/-
BenthosDc/SmartiWire.lean

Names and numbers between the daemon and the client.

The client looks for the address of a device with `(.*): ([0-9]+) (.*)`, whose first
part is as long as possible: a name that holds a colon, a blank, digits and a blank
itself is cut off behind them (`deviceLine_parsed_iff`).  Numbers survive in both
directions (`numbers_survive`).
-/
import BenthosDc.SmartiCalm
import BenthosDc.SmartiEnum
import BenthosDc.SmartidLinkRuns
import BenthosDc.SmartidTransfers

namespace BenthosDc

open CString Delivery Hoare Lines SmartiCmd

/-! ### Names

The first part of the pattern takes as much as it can.  The last place in the line that looks
like an address is therefore taken for the address.
-/

/-- Somewhere in the name there is what the client takes for an address. -/
def HoldsAddress (name : Text) : Prop :=
  ∃ pre digits post, name = pre ++ ':' :: ' ' :: (digits ++ ' ' :: post) ∧ digits ≠ [] ∧
    ∀ c ∈ digits, c.isDigit = true

/-- A number is a run of digits. -/
theorem number_eq_some {s digits rest : Text} (h : number s = some (digits, rest)) :
    s = digits ++ rest ∧ digits ≠ [] ∧ ∀ c ∈ digits, c.isDigit = true := by
  rw [number] at h
  split at h
  · cases h
  · next hne =>
    obtain ⟨rfl, rfl⟩ := Prod.mk.inj (Option.some.inj h)
    exact ⟨List.takeWhile_append_dropWhile.symm, hne, fun c hc => List.mem_takeWhile_imp hc⟩

/-- A run of digits is a number. -/
theorem number_digits {digits : Text} (hne : digits ≠ []) (hdigits : ∀ c ∈ digits, c.isDigit = true)
    (rest : Text) : number (digits ++ ' ' :: rest) = some (digits, ' ' :: rest) := by
  have htake : (digits ++ ' ' :: rest).takeWhile Char.isDigit = digits := by
    rw [List.takeWhile_append_of_pos hdigits]
    exact List.append_nil _
  have hdrop : (digits ++ ' ' :: rest).dropWhile Char.isDigit = ' ' :: rest := by
    rw [List.dropWhile_append_of_pos hdigits]
    rfl
  rw [number, htake, hdrop, if_neg hne]

/-- What the scan for an address reads. -/
theorem enumPart_eq_some_iff {s digits name : Text} :
    enumPart s = some (digits, name) ↔
      s = ':' :: ' ' :: (digits ++ ' ' :: name) ∧ digits ≠ [] ∧ ∀ c ∈ digits, c.isDigit = true := by
  constructor
  · intro h
    rw [enumPart] at h
    split at h
    · cases h
    · next s hinfo =>
      split at h
      · next digits' name' hnumber =>
        obtain ⟨rfl, rfl⟩ := Prod.mk.inj (Option.some.inj h)
        obtain ⟨rfl, hne, hdigits⟩ := number_eq_some hnumber
        unfold infoPart at hinfo
        split at hinfo
        · cases hinfo
          exact ⟨rfl, hne, hdigits⟩
        · cases hinfo
      · cases h
  · rintro ⟨rfl, hne, hdigits⟩
    rw [enumPart, infoPart]
    dsimp only
    rw [number_digits hne hdigits]
    rfl

/-- The scan succeeds somewhere in a text just when the text holds an address. -/
theorem splitLast_enumPart_iff {s : Text} : splitLast enumPart s = none ↔ ¬HoldsAddress s := by
  rw [splitLast_eq_none_iff]
  constructor
  · rintro h ⟨pre, digits, post, rfl, hne, hdigits⟩
    have hread := h _ (List.suffix_append pre _)
    rw [enumPart_eq_some_iff.mpr ⟨rfl, hne, hdigits⟩] at hread
    cases hread
  · rintro h t ⟨pre, rfl⟩
    cases hread : enumPart t with
    | none => rfl
    | some r =>
      obtain ⟨rfl, hne, hdigits⟩ := enumPart_eq_some_iff.mp hread
      exact absurd ⟨pre, _, _, rfl, hne, hdigits⟩ h

/-- An address begins with a colon. -/
theorem holdsAddress_append {a b : Text} (ha : ':' ∉ a) (h : HoldsAddress (a ++ b)) :
    HoldsAddress b := by
  obtain ⟨pre, digits, post, heq, hne, hdigits⟩ := h
  rcases List.append_eq_append_iff.mp heq with ⟨as, -, hb⟩ | ⟨bs, ha', hb⟩
  · exact ⟨as, digits, post, hb, hne, hdigits⟩
  · rcases bs with - | ⟨x, bs⟩
    · exact ⟨[], digits, post, hb.symm, hne, hdigits⟩
    · -- the colon would stand in `a`
      obtain ⟨rfl, -⟩ := List.cons.inj hb
      rw [ha'] at ha
      exact absurd (List.mem_append_right _ List.mem_cons_self) ha

/-- **The address and the name are read as they were written**, unless the name holds
an address. -/
theorem smarticParseEnuminfo_iff {n : Nat} (hn : n < 2 ^ 32) {name : Text} (hzero : '\x00' ∉ name) :
    smarticParseEnuminfo ("Device: ".toList ++ decimal n ++ ' ' :: name) = some (n, name) ↔
      ¬HoldsAddress name := by
  have hnul := zero_not_mem_deviceText n hzero
  have hpart := enumPart_decimal n name
  rw [smarticParseEnuminfo, deviceText_eq, cstr_eq hnul]
  constructor
  · rintro hparse ⟨pre, digits, post, rfl, hne, hdigits⟩
    obtain ⟨⟨pre', digits', name'⟩, hlast, hresult⟩ := Option.map_eq_some_iff.mp hparse
    obtain ⟨t, -, ht, hmin⟩ := splitLast_eq_some hlast
    obtain ⟨rfl, -, -⟩ := enumPart_eq_some_iff.mp ht
    -- the scan also succeeds at the address in the name, behind which less is left
    have hle := hmin (':' :: ' ' :: (digits ++ ' ' :: post)) ?_ ?_
    · have hname : name' = _ := congrArg Prod.snd hresult
      have hlen := congrArg List.length hname
      simp only [List.length_cons, List.length_append] at hle hlen
      have hpos := List.length_pos_iff.mpr hne
      omega
    · refine ⟨"Device".toList ++ ':' :: ' ' :: (decimal n ++ ' ' :: pre), ?_⟩
      simp
    · rw [enumPart_eq_some_iff.mpr ⟨rfl, hne, hdigits⟩]
      exact Option.some_ne_none _
  · intro hname
    have hrest : ¬HoldsAddress (' ' :: (decimal n ++ ' ' :: name)) := by
      intro h
      have hfront : ' ' :: (decimal n ++ ' ' :: name) = (' ' :: (decimal n ++ [' '])) ++ name := by
        simp
      rw [hfront] at h
      refine hname (holdsAddress_append ?_ h)
      simp only [List.mem_cons, List.mem_append, List.not_mem_nil, or_false, not_or]
      exact ⟨by decide, not_mem_decimal (by decide) n, by decide⟩
    have hlast : splitLast enumPart (':' :: ' ' :: (decimal n ++ ' ' :: name)) =
        some ([], (decimal n, name)) := by
      rw [splitLast, splitLast_enumPart_iff.mpr hrest]
      dsimp only
      rw [hpart]
      rfl
    rw [splitLast_append hlast]
    dsimp only [Option.map_some]
    rw [strtoulValue_decimal (by omega), Nat.mod_eq_of_lt hn]

/-- **ENUM lines**: a device whose name fits into the line is read as it was printed
just when its name holds no address. -/
theorem deviceLine_parsed_iff (d : IrdaDevice) (hlen : (cstr d.name).length ≤ 900) :
    (∃ msg, smarticParseResponse ((deviceLine d).take 1023) = some (smartiStatusInfo, msg) ∧
        smarticParseEnuminfo msg = some (d.addr.toNat, cstr d.name)) ↔
      ¬HoldsAddress (cstr d.name) := by
  have hdigits : (decimal d.addr.toNat).length ≤ 10 :=
    length_decimal_le (d.addr.toNat_lt.trans (by decide)) (by decide)
  have hvisible : visibleName d = cstr d.name := List.take_of_length_le (by omega)
  have hline : '\x00' ∉ ((enumLine d).take 2046).take 1019 := fun h =>
    not_mem_enumLine (d := d) (by decide) rfl (not_mem_cstr d.name)
      (List.mem_of_mem_take (List.mem_of_mem_take h))
  have hparsed : smarticParseResponse ((deviceLine d).take 1023) = some (smartiStatusInfo,
      "Device: ".toList ++ decimal d.addr.toNat ++ ' ' :: cstr d.name) := by
    rw [deviceLine, smarticParseResponse_line (by decide) (by decide), cstr_eq hline, take_enumLine,
      hvisible]
  rw [hparsed, ← smarticParseEnuminfo_iff d.addr.toNat_lt (not_mem_cstr d.name)]
  constructor
  · rintro ⟨_, heq, hmsg⟩
    obtain ⟨-, rfl⟩ := Prod.mk.inj (Option.some.inj heq)
    exact hmsg
  · exact fun hmsg => ⟨_, rfl, hmsg⟩

/-- A name with a colon and a number in it. -/
theorem deviceLine_parsed_iff_uwatec :
    (∃ msg, smarticParseResponse ((deviceLine ⟨7, "UWATEC: 2".toList⟩).take 1023) =
          some (smartiStatusInfo, msg) ∧
        smarticParseEnuminfo msg = some (7, cstr "UWATEC: 2".toList)) ↔
      ¬HoldsAddress (cstr "UWATEC: 2".toList) :=
  deviceLine_parsed_iff ⟨7, "UWATEC: 2".toList⟩ (by decide)

/-- The name `a: 1 b` comes out as the address 1 and the name `b`. -/
theorem not_deviceLine_parsed :
    ¬∀ d : IrdaDevice, (cstr d.name).length ≤ 900 → (∀ c ∈ d.name, c ≠ '\n' ∧ c ≠ '\r') →
      ∃ msg, smarticParseResponse ((deviceLine d).take 1023) = some (smartiStatusInfo, msg) ∧
        smarticParseEnuminfo msg = some (d.addr.toNat, cstr d.name) := by
  intro h
  obtain ⟨msg, hresponse, hinfo⟩ := h ⟨5, "a: 1 b".toList⟩ (by decide) (by simp)
  have hparsed : smarticParseResponse ((deviceLine ⟨5, "a: 1 b".toList⟩).take 1023) =
      some (smartiStatusInfo, "Device: 5 a: 1 b".toList) := by decide +kernel
  rw [hparsed] at hresponse
  obtain ⟨-, rfl⟩ := Prod.mk.inj (Option.some.inj hresponse)
  exact absurd hinfo (by decide +kernel)

/-! ### Numbers that are sent

`%u` and `sscanf` are inverse to each other for 32-bit numbers.
-/

/-- **The numbers of OPEN** are scanned as they were given. -/
theorem scanOpen_decimal {addr lsap chunkSize : Nat} (haddr : addr < 2 ^ 32) (hlsap : lsap < 2 ^ 32)
    (hchunk : chunkSize < 2 ^ 64) :
    scanOpen (decimal addr ++ ' ' :: (decimal lsap ++ ' ' :: decimal chunkSize)) =
      some (addr, lsap, chunkSize) := by
  have hfirst : strtoul (decimal addr ++ ' ' :: (decimal lsap ++ ' ' :: decimal chunkSize)) =
      some (addr, ' ' :: (decimal lsap ++ ' ' :: decimal chunkSize)) :=
    strtoul_decimal (by omega) rfl
  have hsecond : strtoul (' ' :: (decimal lsap ++ ' ' :: decimal chunkSize)) =
      some (lsap, ' ' :: decimal chunkSize) := by
    rw [strtoul_blank]
    exact strtoul_decimal (by omega) rfl
  have hthird : strtoul (' ' :: decimal chunkSize) = some (chunkSize, []) := by
    have h := strtoul_decimal hchunk (show ([] : Text).takeWhile Char.isDigit = [] from rfl)
    rwa [List.append_nil] at h
  rw [scanOpen, hfirst]
  dsimp only
  rw [hsecond]
  dsimp only
  rw [hthird]
  dsimp only
  rw [u32_of_lt haddr, u32_of_lt hlsap]

/-- The command and its arguments. -/
theorem openCommand_eq (addr lsap : UInt32) (chunkSize : UInt8) :
    openCommand addr lsap chunkSize = "OPEN".toList ++ ' ' :: (decimal addr.toNat ++
      ' ' :: (decimal lsap.toNat ++ ' ' :: decimal (clampChunk chunkSize).toNat)) := by
  have hword : "OPEN ".toList = "OPEN".toList ++ [' '] := rfl
  unfold openCommand
  rw [hword]
  simp only [List.append_assoc, List.cons_append, List.nil_append]

/-- The daemon scans from the line of OPEN what the client was given, with the chunk
size as the client has clamped it. -/
theorem openCommand_scanned (addr lsap : UInt32) (chunkSize : UInt8) :
    ∃ params, commandParams (openCommand addr lsap chunkSize) = some params ∧
      scanOpen params = some (addr.toNat, lsap.toNat, (clampChunk chunkSize).toNat) := by
  have hnul : '\x00' ∉ decimal addr.toNat ++
      ' ' :: (decimal lsap.toNat ++ ' ' :: decimal (clampChunk chunkSize).toNat) := by
    have hdec : ∀ n, '\x00' ∉ decimal n := not_mem_decimal (by decide)
    simp only [List.mem_append, List.mem_cons, not_or]
    exact ⟨hdec _, by decide, hdec _, by decide, hdec _⟩
  rw [openCommand_eq]
  refine ⟨_, commandParams_word (by decide) (by decide), ?_⟩
  rw [cstr_eq hnul]
  apply scanOpen_decimal addr.toNat_lt lsap.toNat_lt
  have hlt := (clampChunk chunkSize).toNat_lt
  omega

/-- A chunk size in its bounds stays as it is. -/
theorem clampChunk_eq {chunkSize : UInt8} (hlow : 2 ≤ chunkSize) (hhigh : chunkSize ≤ 32) :
    clampChunk chunkSize = chunkSize := by
  have hlt : ¬chunkSize < 2 := UInt8.not_lt.mpr hlow
  have hgt : ¬chunkSize > 32 := UInt8.not_lt.mpr hhigh
  simp only [clampChunk, if_neg hlt, if_neg hgt]

/-- The daemon reads the token that has been sent. -/
theorem tokenCommand_scanned (token : UInt32) :
    ∃ params, commandParams (tokenCommand token) = some params ∧
      scanToken params = some token.toNat := by
  rw [tokenCommand_eq]
  exact ⟨_, commandParams_word (by decide) (by decide), scanToken_decimal token.toNat_lt⟩

/-! ### Numbers that are read

The replies hold numbers in decimals, and the client reads them with `strtoul`.
-/

section Numbers

variable {S : Type} {W : Irda S} {fuel : Nat} {l : Link S}

/-- **A request for a number** returns the number that the reply holds, unless there is
trouble. -/
theorem infoRequest_number {cmd text : Text} {n width : Nat} (hcmd : ∀ c ∈ cmd, isEol c = false)
    (hplain : text.all fun c => c != '\n' && c != '\x00') (hshort : text.length ≤ 1000)
    (hn : n < 2 ^ width) (hwidth : width ≤ 32) (hl : Synced l)
    (hreply : replyTo W fuel l.server cmd =
      responseLine smartiStatusInfo (text ++ ':' :: ' ' :: decimal n)) :
    Triple (infoRequest W fuel cmd width) l (fun r l' => l'.trouble = true ∨ r = .ok n) never := by
  have hn32 : n < 2 ^ 32 := hn.trans_le (Nat.pow_le_pow_right (by decide) hwidth)
  obtain ⟨hmsg, ⟨rLine, hresponse⟩, hinfo⟩ := response_info hplain hshort hn32
  rw [responseLine_eq] at hreply
  apply (smarticRequest_spec hcmd hl).bind
  rintro r l₁ (htrouble | ⟨-, -, line, hline, hfirst, rfl⟩)
  · -- the rest of the call does not look at the network
    refine Triple.imp (Q := fun _ l' => l'.trouble = true) ?_ fun _ _ h => .inl h
    rcases r with rv | ⟨rLine', code, msg⟩
    · exact Triple.pure htrouble
    dsimp only
    split
    · exact (Idle.setError _ _ _).steady l₁ htrouble
    split
    · exact (Idle.setError _ _ _).steady l₁ htrouble
    · exact Triple.pure htrouble
  · obtain ⟨rfl, -⟩ := append_cons_inj (not_mem_responseLine hmsg _) hline (hreply.symm.trans hfirst)
    rw [hresponse]
    dsimp only
    rw [if_neg (fun h => h rfl), hinfo]
    dsimp only
    rw [strtoulValue_decimal (by omega), Nat.mod_eq_of_lt hn]
    exact Triple.pure (.inr rfl)

/-- **Numbers survive the wire**: the daemon scans what the client was given, and the
client stores what the daemon has printed. -/
theorem numbers_survive (addr lsap token : UInt32) {chunkSize : UInt8} (hlow : 2 ≤ chunkSize)
    (hhigh : chunkSize ≤ 32) {model serial ticks size : Nat} (hmodel : model < 2 ^ 8)
    (hserial : serial < 2 ^ 32) (hticks : ticks < 2 ^ 32) (hsize : size < 2 ^ 32) (hl : Synced l) :
    (dispatch (openCommand addr lsap chunkSize) = some cmdOpen ∧
      ∃ params, commandParams (openCommand addr lsap chunkSize) = some params ∧
        scanOpen params = some (addr.toNat, lsap.toNat, chunkSize.toNat)) ∧
    (dispatch (tokenCommand token) = some cmdToken ∧
      ∃ params, commandParams (tokenCommand token) = some params ∧
        scanToken params = some token.toNat) ∧
    (replyTo W fuel l.server "MODEL".toList =
        responseLine smartiStatusInfo ("Model Number: ".toList ++ decimal model) →
      Triple (smartiClientModel W fuel) l (fun r l' => l'.trouble = true ∨ r = .ok model) never) ∧
    (replyTo W fuel l.server "SERIAL".toList =
        responseLine smartiStatusInfo ("Serial Number: ".toList ++ decimal serial) →
      Triple (smartiClientSerial W fuel) l (fun r l' => l'.trouble = true ∨ r = .ok serial) never) ∧
    (replyTo W fuel l.server "TICKS".toList =
        responseLine smartiStatusInfo ("Ticks: ".toList ++ decimal ticks) →
      Triple (smartiClientTicks W fuel) l (fun r l' => l'.trouble = true ∨ r = .ok ticks) never) ∧
    (replyTo W fuel l.server "SIZE".toList =
        responseLine smartiStatusInfo ("Data Size: ".toList ++ decimal size) →
      Triple (smartiClientSize W fuel) l (fun r l' => l'.trouble = true ∨ r = .ok size) never) := by
  refine ⟨⟨dispatch_openCommand addr lsap chunkSize, ?_⟩,
    ⟨dispatch_tokenCommand token, tokenCommand_scanned token⟩, ?_, ?_, ?_, ?_⟩
  · obtain ⟨params, hparams, hscan⟩ := openCommand_scanned addr lsap chunkSize
    rw [clampChunk_eq hlow hhigh] at hscan
    exact ⟨params, hparams, hscan⟩
  · exact @infoRequest_number S W fuel l _ "Model Number".toList _ _ Call.model.command_line
      (by decide) (by decide) hmodel (by decide) hl
  · exact @infoRequest_number S W fuel l _ "Serial Number".toList _ _ Call.serial.command_line
      (by decide) (by decide) hserial (by decide) hl
  · exact @infoRequest_number S W fuel l _ "Ticks".toList _ _ Call.ticks.command_line
      (by decide) (by decide) hticks (by decide) hl
  · exact @infoRequest_number S W fuel l _ "Data Size".toList _ _ Call.size.command_line
      (by decide) (by decide) hsize (by decide) hl

end Numbers

/-- A link behind an OPEN, to a device that answers every command with ones. -/
def openLink : Link Bool :=
  { Link.dialed false [] [] with
    connected := true
    server := (connRead openIrda 0 (Server.start false) ("OPEN 1".toList ++ ['\n'])).1
    channel := ⟨[], []⟩
    produced := [] }

/-- Nothing is in flight. -/
theorem openLink_synced : Synced openLink where
  connected := rfl
  server := (connRead_line (Server.start_waiting false) (by simp [isEol])).1
  pending := rfl
  consumed := rfl

/-- The greatest values, and the numbers of that device. -/
theorem numbers_survive_open :
    (dispatch (openCommand 4294967295 4294967295 32) = some cmdOpen ∧
      ∃ params, commandParams (openCommand 4294967295 4294967295 32) = some params ∧
        scanOpen params = some (4294967295, 4294967295, 32)) ∧
    Triple (smartiClientModel openIrda 0) openLink (fun r l' => l'.trouble = true ∨ r = .ok 1)
      never ∧
    Triple (smartiClientSerial openIrda 0) openLink
      (fun r l' => l'.trouble = true ∨ r = .ok 16843009) never := by
  have h := @numbers_survive Bool openIrda 0 openLink 4294967295 4294967295 0 32 (by decide)
    (by decide) 1 16843009 0 0 (by decide) (by decide) (by decide) (by decide) openLink_synced
  exact ⟨h.1, h.2.2.1 (by decide +kernel), h.2.2.2.1 (by decide +kernel)⟩

end BenthosDc
