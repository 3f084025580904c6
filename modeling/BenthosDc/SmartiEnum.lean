/-
BenthosDc/SmartiEnum.lean

What an ENUM hands to its callback: the devices of a discovery, the last one first, and
of each name what is left of it in the buffers of the daemon and of the client.

A name ends at its first zero, and is cut by the line of the client.  A name that has the
separator of the line in it is split at the wrong place.
-/
import BenthosDc.SmartiCalls
import Mathlib.Data.List.Forall2

namespace BenthosDc

open CString Delivery Hoare Lines SmartiCmd

variable {S α : Type} {W : Irda S} {fuel : Nat} {l l' : Link S}

/-! ### A line for a device

The daemon writes the address and the name behind `Device: `, and the client splits the line
again.  It takes the last place where an address can stand.
-/

/-- No colon and blank follow one another behind `a`, if they do not in `b`. -/
theorem infix_append_of_not_mem {a b : Text} (ha : ':' ∉ a) (h : [':', ' '] <:+: a ++ b) :
    [':', ' '] <:+: b := by
  induction a with
  | nil => exact h
  | cons c a ih =>
    rw [List.mem_cons, not_or] at ha
    rw [List.cons_append, List.infix_cons_iff] at h
    rcases h with h | h
    · have hhead := (List.cons_prefix_cons.mp h).1
      exact absurd hhead ha.1
    · exact ih ha.2 h

/-- No address without the separator. -/
theorem enumPart_eq_none {s : Text} (h : ¬[':', ' '] <+: s) : enumPart s = none := by
  have hinfo : infoPart s = none := by
    unfold infoPart
    split
    · next s => exact absurd ⟨s, rfl⟩ h
    · rfl
  rw [enumPart, hinfo]

/-- No split without the separator. -/
theorem splitLast_enumPart {s : Text} (h : ¬[':', ' '] <:+: s) : splitLast enumPart s = none := by
  induction s with
  | nil => rfl
  | cons c s ih =>
    rw [List.infix_cons_iff, not_or] at h
    rw [splitLast, ih h.2, enumPart_eq_none h.1]
    rfl

/-- A number that has been written is read back. -/
theorem number_decimal (n : Nat) (rest : Text) :
    number (decimal n ++ ' ' :: rest) = some (decimal n, ' ' :: rest) := by
  have hdigits : ∀ c ∈ decimal n, c.isDigit = true := fun c hc => isDigit_of_mem_decimal hc
  have htake : (decimal n ++ ' ' :: rest).takeWhile Char.isDigit = decimal n := by
    rw [List.takeWhile_append_of_pos hdigits]
    exact List.append_nil _
  have hdrop : (decimal n ++ ' ' :: rest).dropWhile Char.isDigit = ' ' :: rest := by
    rw [List.dropWhile_append_of_pos hdigits]
    rfl
  rw [number, htake, hdrop, if_neg (decimal_ne_nil n)]

/-- The message of a device, split at the colon. -/
theorem deviceText_eq (n : Nat) (name : Text) : "Device: ".toList ++ decimal n ++ ' ' :: name =
    "Device".toList ++ ':' :: ' ' :: (decimal n ++ ' ' :: name) := by
  have hword : "Device: ".toList = "Device".toList ++ [':', ' '] := rfl
  rw [hword]
  simp

/-- A line is a text of C. -/
theorem zero_not_mem_deviceText (n : Nat) {name : Text} (hzero : '\x00' ∉ name) :
    '\x00' ∉ "Device".toList ++ ':' :: ' ' :: (decimal n ++ ' ' :: name) := by
  simp only [List.mem_append, List.mem_cons, not_or]
  exact ⟨by decide, by decide, by decide, not_mem_decimal (by decide) n, by decide, hzero⟩

/-- An address and a name that have been written are read back. -/
theorem enumPart_decimal (n : Nat) (name : Text) :
    enumPart (':' :: ' ' :: (decimal n ++ ' ' :: name)) = some (decimal n, name) := by
  rw [enumPart, infoPart]
  dsimp only
  rw [number_decimal]
  rfl

/-- **The address and the name behind it are read as they were written.** -/
theorem smarticParseEnuminfo_eq {n : Nat} (hn : n < 2 ^ 32) {name : Text} (hzero : '\x00' ∉ name)
    (hname : ¬[':', ' '] <:+: name) :
    smarticParseEnuminfo ("Device: ".toList ++ decimal n ++ ' ' :: name) = some (n, name) := by
  have hcolon : ':' ∉ ' ' :: (decimal n ++ [' ']) := by
    simp only [List.mem_cons, List.mem_append, List.not_mem_nil, or_false, not_or]
    exact ⟨by decide, not_mem_decimal (by decide) n, by decide⟩
  have hrest : ¬[':', ' '] <:+: ' ' :: (decimal n ++ ' ' :: name) := by
    intro h
    have hsplit : ' ' :: (decimal n ++ ' ' :: name) = (' ' :: (decimal n ++ [' '])) ++ name := by
      simp
    rw [hsplit] at h
    exact hname (infix_append_of_not_mem hcolon h)
  have hnul := zero_not_mem_deviceText n hzero
  -- the last place at which the scan succeeds is the colon of the word
  have hlast : splitLast enumPart (':' :: ' ' :: (decimal n ++ ' ' :: name)) =
      some ([], (decimal n, name)) := by
    rw [splitLast, splitLast_enumPart hrest]
    dsimp only
    rw [enumPart_decimal]
    rfl
  rw [smarticParseEnuminfo, deviceText_eq, cstr_eq hnul, splitLast_append hlast]
  dsimp only [Option.map_some]
  rw [strtoulValue_decimal (by omega), Nat.mod_eq_of_lt hn]

/-- The line of the daemon for a device, without its terminator. -/
def deviceLine (d : IrdaDevice) : Text :=
  decimalInt smartiStatusInfo ++ ' ' :: (enumLine d).take 2046

/-- The name of a device as the client reads it: the line of the client is cut off behind
1023 characters, of which 13 and the digits of the address stand in front of the name. -/
def visibleName (d : IrdaDevice) : Text :=
  (cstr d.name).take (1010 - (decimal d.addr.toNat).length)

/-- The device as the callback of the client gets it. -/
def found (d : IrdaDevice) : Found := (d.addr.toNat, visibleName d)

/-- The line tells the client of a device. -/
def Announces (line : Text) (f : Found) : Prop :=
  '\n' ∉ line ∧ ∃ rLine msg, parsed line = some (rLine, smartiStatusInfo, msg) ∧
    smarticParseEnuminfo msg = some f

/-- A text of C has no zero in it. -/
theorem not_mem_cstr (s : Text) : '\x00' ∉ cstr s := by
  intro h
  have := List.mem_takeWhile_imp h
  simp at this

/-- A device whose name can be sent: no line ends in it, and no colon and blank. -/
def SendableName (name : Text) : Prop := '\n' ∉ name ∧ ¬[':', ' '] <:+: name

/-- What stands in a line is the word, the digits and the name. -/
theorem not_mem_enumLine {c : Char} {d : IrdaDevice} (hword : c ∉ "Device: ".toList)
    (hdigit : c.isDigit = false) (hname : c ∉ cstr d.name) : c ∉ enumLine d := by
  have hblank : c ≠ ' ' := fun h => hword (h ▸ by decide)
  intro h
  unfold enumLine at h
  rcases List.mem_append.mp h with h | h
  · rcases List.mem_append.mp h with h | h
    · exact hword h
    · exact not_mem_decimal hdigit _ h
  · rcases List.mem_cons.mp h with h | h
    · exact hblank h
    · exact hname h

/-- What is left of the line in the buffer of the client. -/
theorem take_enumLine (d : IrdaDevice) : ((enumLine d).take 2046).take 1019 =
    "Device: ".toList ++ decimal d.addr.toNat ++ ' ' :: visibleName d := by
  have hdigits : (decimal d.addr.toNat).length ≤ 10 :=
    length_decimal_le (d.addr.toNat_lt.trans (by decide)) (by decide)
  have hlen : ("Device: ".toList ++ decimal d.addr.toNat).length =
      8 + (decimal d.addr.toNat).length := by
    rw [List.length_append]
    rfl
  have hroom : min 1019 2046 - (8 + (decimal d.addr.toNat).length) =
      (1010 - (decimal d.addr.toNat).length) + 1 := by omega
  unfold enumLine
  rw [List.take_take, visibleName, List.take_append, hlen, List.take_of_length_le (by omega), hroom,
    List.take_succ_cons]

/-- **A device is announced by its line.** -/
theorem deviceLine_announces {d : IrdaDevice} (hname : SendableName d.name) :
    Announces (deviceLine d) (found d) := by
  have hstart : cstr d.name <+: d.name := List.takeWhile_prefix _
  have hvisible : visibleName d <+: cstr d.name := List.take_prefix _ _
  have hzero : '\x00' ∉ visibleName d := fun h => not_mem_cstr d.name (hvisible.subset h)
  constructor
  · rw [deviceLine, List.mem_append, List.mem_cons]
    rintro (h | h | h)
    · exact not_mem_decimalInt rfl (by decide) _ h
    · cases h
    · have hline : '\n' ∉ enumLine d :=
        not_mem_enumLine (by decide) rfl fun h => hname.1 (hstart.subset h)
      exact hline (List.mem_of_mem_take h)
  · have hcstr : cstr (((enumLine d).take 2046).take 1019) =
        "Device: ".toList ++ decimal d.addr.toNat ++ ' ' :: visibleName d := by
      rw [← take_enumLine]
      refine cstr_eq fun h => ?_
      have hline : '\x00' ∉ enumLine d := not_mem_enumLine (by decide) rfl (not_mem_cstr d.name)
      exact hline (List.mem_of_mem_take (List.mem_of_mem_take h))
    have hparsed : parsed (deviceLine d) = some ((deviceLine d).take 1023, smartiStatusInfo,
        "Device: ".toList ++ decimal d.addr.toNat ++ ' ' :: visibleName d) := by
      rw [parsed, deviceLine, smarticParseResponse_line (by decide) (by decide), hcstr]
      rfl
    refine ⟨_, _, hparsed, smarticParseEnuminfo_eq d.addr.toNat_lt hzero fun h => ?_⟩
    exact hname.2 ((h.trans hvisible.isInfix).trans hstart.isInfix)

/-! ### The callback

The devices are handed over in the order of the lines, until the callback says no.
-/

/-- The loop has handed `fs` to its callback, unless a poll came too early. -/
def HandsOver (fs : List Found) (l : Link S) (r : Int × List Found) (l' : Link S) : Prop :=
  ∃ new, l'.polls = l.polls ++ new ∧ (Prompt new → r = (0, fs))

theorem HandsOver.next {fs : List Found} {l l₁ l' : Link S} {r : Int × List Found} {p : Nat × Nat}
    (h : HandsOver fs l₁ r l') (hpolls : l₁.polls = l.polls ++ [p]) : HandsOver fs l r l' := by
  obtain ⟨new, hnew, hr⟩ := h
  refine ⟨[p] ++ new, ?_, fun hprompt => ?_⟩
  · rw [hnew, hpolls, List.append_assoc]
  · exact hr fun q hq => hprompt q (List.mem_append_right _ hq)

/-- **The loop of ENUM** hands all announced devices to a callback that never stops it. -/
theorem enumLoop_found {cb : List Found → Int} (hcb : ∀ seen, cb seen = 0) (n : Nat) (l : Link S)
    (hl : l.connected = true) (hn : l.measure < n) (seen : List Found) (rLine : Text) {msg : Text}
    {d : Found} (hd : smarticParseEnuminfo msg = some d) {ls : List Text} {fs : List Found}
    (hls : List.Forall₂ Announces ls fs) (hpend : l.channel.pending = unlines '\n' ls) :
    Triple (enumLoop cb n seen rLine smartiStatusInfo msg) l
      (fun r l' => l'.trouble = true ∨ HandsOver (seen ++ d :: fs) l r l') never := by
  induction n generalizing l seen rLine msg d ls fs with
  | zero => exact absurd hn (Nat.not_lt_zero _)
  | succ n ih =>
    rw [enumLoop, if_neg (fun h => h rfl), hd]
    dsimp only
    rw [if_neg (fun h => h (hcb _))]
    refine enumPass_spec hl hn _ rLine ?_ hpend (fun _ _ h => .inl h) ?_ ?_
    · exact ((List.forall₂_and_left _ _).mp hls).1
    · -- the reply is at its end, or the poll came too early
      intro ch events harrived hch
      refine .inr ⟨[(ch.arrived.length, ch.flight.length)], rfl, fun hprompt => ?_⟩
      have hflight : ch.flight = [] :=
        List.length_eq_zero_iff.mp (hprompt _ List.mem_cons_self (congrArg List.length harrived))
      have hnil : unlines '\n' ls = [] := by
        rw [← hpend, ← hch, Channel.pending, harrived, hflight]
        rfl
      rw [unlines_eq_nil_iff] at hnil
      subst hnil
      cases hls
      rfl
    rintro line ls p l₂ rfl - hreads hpolls hrest hlt
    cases hls with
    | @cons _ f _ fs hline hls =>
    obtain ⟨-, rLine', msg', hparsed, hf⟩ := hline
    rw [hparsed]
    refine (ih l₂ (hreads.connected.trans hl) (hlt _ hparsed) (seen ++ [d]) rLine' hf hls
      hrest).imp ?_
    rintro r l' (htrouble | hends)
    · exact .inl htrouble
    · right
      rw [List.append_assoc] at hends
      exact hends.next hpolls

/-! ### ENUM

The discovery of the daemon is sent as lines, the last device first.
-/

/-- The reply for devices, in lines. -/
theorem enumReply_unlines (ds : List IrdaDevice) :
    enumReply ds = unlines '\n' (ds.map deviceLine) := by
  induction ds with
  | nil => rfl
  | cons d ds ih =>
    have hline : responseLine smartiStatusInfo ((enumLine d).take 2046) =
        deviceLine d ++ ['\n'] := by
      rw [responseLine, deviceLine, List.append_assoc]
      rfl
    have hcons : enumReply (d :: ds) =
        responseLine smartiStatusInfo ((enumLine d).take 2046) ++ enumReply ds := rfl
    rw [hcons, hline, ih, List.map_cons, unlines_cons, List.append_assoc]
    rfl

/-- The reply to ENUM. -/
def discoverReply (ds : List IrdaDevice) : Text :=
  if ds = [] then responseLine smartiStatusNoDevs "No Devices".toList else enumReply ds.reverse

theorem smartidCmdEnum_spec {c : Conn S} (hc : WellFormed c) (hirda : c.irda = true)
    {ds : List IrdaDevice} (hds : (W.discover c.world).1 = some ds) :
    Triple (smartidCmdEnum W none) c (fun _ c' => c'.out = c.out ++ discoverReply ds) never := by
  let c₁ : Conn S := { c with world := (W.discover c.world).2 }
  have hc₁ : Owns c₁ c.dev := ⟨hc.sound, hc.live, hc.heap, hc.fresh⟩
  have hsocket : Triple smartidConnIrda c (fun irda c' => irda = true ∧ c' = c) never :=
    Triple.of_run rfl ⟨hirda, rfl⟩
  have hdiscover : Triple (irdaSocketDiscover W) c (fun r c' => r = some ds ∧ c' = c₁) never :=
    Triple.of_run rfl ⟨hds, rfl⟩
  apply hsocket.bind
  rintro _ _ ⟨rfl, rfl⟩
  apply hdiscover.bind
  rintro _ _ ⟨rfl, rfl⟩
  cases ds with
  | nil => exact rfl
  | cons d ds =>
    apply (forM_sends (fun d => evbufferAdd_sends _) _ c₁ hc₁).imp
    rintro _ c' ⟨-, -, reply, hout, rfl⟩
    rw [hout, foldl_irdaEnumCb, List.append_nil, discoverReply, if_neg (List.cons_ne_nil d ds)]
    rfl

/-- The daemon replies to an ENUM with what it has found. -/
theorem replyTo_enum {s : Server S} {c : Conn S} (hs : s.Waiting) (hconn : s.conn = some c)
    (hirda : c.irda = true) {ds : List IrdaDevice} (hds : (W.discover c.world).1 = some ds) :
    replyTo W fuel s "ENUM".toList = discoverReply ds := by
  obtain ⟨conn, input⟩ := s
  obtain rfl : input = [] := hs.input
  obtain rfl : conn = some c := hconn
  have hline : ∀ c ∈ "ENUM".toList, isEol c = false := by simp [isEol]
  have hlookup : lookupCommand ((commandName "ENUM".toList).map Char.toLower) = some cmdEnum := by
    decide
  have hprocess : smartidCmdProcess W fuel "ENUM".toList = smartidCmdEnum W none :=
    process_func (by decide) hlookup fuel
  obtain ⟨u, c', hrun, hout⟩ :=
    (smartidCmdEnum_spec (hs.wellFormed c rfl) hirda hds).exists_run
  have hempty : c.out = [] := hs.flushed c rfl
  rw [← hprocess] at hrun
  rw [replyTo, connRead_command hline hrun]
  show c'.out = _
  rw [hout, hempty, List.nil_append]

theorem smartiClientEnumerate_steady (cb : List Found → Int) :
    Steady never (smartiClientEnumerate W fuel cb) := by
  apply (smarticRequest_steady _).bind
  rintro (rv | ⟨rLine, code, msg⟩) l htrouble
  · exact htrouble
  dsimp only
  split
  · exact htrouble
  rw [Triple, run_bind_of_ok (enumFuel_run l)]
  exact enumLoop_trouble cb _ l htrouble (Nat.lt_succ_self _) _ _ _ _

/-- **ENUM hands the devices of a discovery to its callback**, the last one first, and fails
with the code 241 if there are none. -/
theorem smartiClientEnumerate_found {cb : List Found → Int} (hcb : ∀ seen, cb seen = 0)
    (hl : Synced l) {c : Conn S} (hconn : l.server.conn = some c) (hirda : c.irda = true)
    {ds : List IrdaDevice} (hds : (W.discover c.world).1 = some ds)
    (hnames : ∀ d ∈ ds, SendableName d.name) :
    Triple (smartiClientEnumerate W fuel cb) l
      (fun r l' => l'.trouble = true ∨
        (ds = [] ∧ r = (-1, []) ∧ l'.errcode = smartiStatusNoDevs) ∨
        (ds ≠ [] ∧ HandsOver (ds.reverse.map found) l r l')) never := by
  have hcmd : ∀ c ∈ "ENUM".toList, isEol c = false := by simp [isEol]
  apply (smarticRequest_spec hcmd hl).bind
  rintro r l₁ (htrouble | ⟨hex, hpolls, line, hline, hreply, rfl⟩)
  · rcases r with rv | ⟨rLine, code, msg⟩
    · exact .inl htrouble
    dsimp only
    split
    · exact .inl htrouble
    rw [Triple, run_bind_of_ok (enumFuel_run l₁)]
    exact (enumLoop_trouble cb _ l₁ htrouble (Nat.lt_succ_self _) _ _ _ _).imp fun _ _ h => .inl h
  rw [replyTo_enum hl.server hconn hirda hds, discoverReply] at hreply
  split at hreply
  next hnil =>
    -- the one line of the reply has the code 241
    have hterm : responseLine smartiStatusNoDevs "No Devices".toList =
        (decimalInt smartiStatusNoDevs ++ ' ' :: "No Devices".toList) ++ '\n' :: [] := by
      rw [responseLine, List.append_assoc]
      rfl
    rw [hterm] at hreply
    have hnl : '\n' ∉ decimalInt smartiStatusNoDevs ++ ' ' :: "No Devices".toList := by
      rw [List.mem_append, not_or]
      exact ⟨not_mem_decimalInt rfl (by decide) _, by decide⟩
    obtain ⟨rfl, -⟩ := append_cons_inj hnl hline hreply
    have hcode : StatusCode smartiStatusNoDevs := by decide
    obtain ⟨rLine, msg, hparsed⟩ := parsed_status hcode "No Devices".toList
    rw [response, hparsed]
    dsimp only
    rw [if_pos rfl]
    exact .inr (.inl ⟨hnil, rfl, rfl⟩)
  next hnil =>
    obtain ⟨d, rest, hrev⟩ := List.exists_cons_of_ne_nil (fun h => hnil (List.reverse_eq_nil_iff.mp h))
    have hall : ∀ d' ∈ d :: rest, SendableName d'.name := by
      intro d' hd'
      rw [← hrev, List.mem_reverse] at hd'
      exact hnames d' hd'
    obtain ⟨hfirst, rLine, msg, hparsed, hfound⟩ :=
      deviceLine_announces (hall d List.mem_cons_self)
    rw [enumReply_unlines, hrev, List.map_cons, unlines_cons] at hreply
    obtain ⟨rfl, hpend⟩ := append_cons_inj hfirst hline hreply
    have hls : List.Forall₂ Announces (rest.map deviceLine) (rest.map found) := by
      rw [List.forall₂_map_left_iff, List.forall₂_map_right_iff, List.forall₂_same]
      exact fun d' hd' => deviceLine_announces (hall d' (List.mem_cons_of_mem _ hd'))
    rw [response, hparsed]
    dsimp only
    rw [if_neg (by decide), Triple, run_bind_of_ok (enumFuel_run l₁), hrev, List.map_cons]
    refine (enumLoop_found hcb _ l₁ (hex.connected.trans hl.connected) (Nat.lt_succ_self _) [] rLine
      hfound hls hpend.symm).imp ?_
    rintro r l' (htrouble | ⟨new, hnew, hr⟩)
    · exact .inl htrouble
    · refine .inr (.inr ⟨hnil, new, ?_, hr⟩)
      rw [hnew, hpolls]

/-! ### Programs without a poll

Only ENUM polls, so that all polls of a run are those of its ENUMs.
-/

/-- Trouble stays, and nothing is polled. -/
structure Later (l l' : Link S) : Prop where
  trouble : l.trouble = true → l'.trouble = true
  polls : l'.polls = l.polls

instance : IsPreorder (Link S) Later where
  refl _ := ⟨fun h => h, rfl⟩
  trans _ _ _ h h' := ⟨fun ht => h'.trouble (h.trouble ht), h'.polls.trans h.polls⟩

section Later

variable {E : Halt → Prop}

/-- A character is read without a poll. -/
theorem readChar_later (l : Link S) : Later l (readChar l).2 := by
  refine ⟨readChar_trouble, ?_⟩
  rcases hawait : awaitChar l.schedule l.channel with ⟨r, ch, events⟩
  rw [readChar, hawait]
  cases r with
  | char c => rfl
  | timedOut => rfl
  | selectFailed => rfl
  | endOfFile => rfl
  | failed errno => rfl

/-- A line is read without a poll. -/
theorem smarticSocketReadln_later (len : Nat) :
    Within Later (fun _ => True) E (smarticSocketReadln (S := S) len) := fun l =>
  (smarticSocketReadln_keeps (fun l₁ h => trans_of Later h (readChar_later l₁)) len
    (refl_of Later l)).imp fun _ _ h => ⟨trivial, h⟩

/-- A text is written without a poll. -/
theorem writeAll_polls (events : List NetEvent) (l : Link S) (text : Text) :
    (writeAll W fuel events l text).2.polls = l.polls :=
  writeAll_keeps (I := fun l' => l'.polls = l.polls) (fun _ _ h => h) (fun _ _ h => h)
    (fun _ _ h => h) (fun _ h => h) events rfl text

theorem smarticSocketWrite_later (text : Text) :
    Within Later (fun _ => True) E (smarticSocketWrite W fuel text) := by
  intro l
  by_cases hguard : !l.connected ∨ text = []
  · exact Triple.of_run (if_pos hguard) ⟨trivial, refl_of Later l⟩
  · refine Triple.of_run (if_neg hguard) ⟨trivial, fun h => ?_, ?_⟩
    · exact writeAll_trouble W fuel l.schedule h text
    · exact writeAll_polls l.schedule l text

theorem Idle.later {m : Client S α} (hm : Idle m) : Within Later (fun _ => True) E m := by
  intro l
  obtain ⟨a, code, msg, hrun⟩ := hm l
  exact Triple.of_run hrun ⟨trivial, fun h => h, rfl⟩

theorem smarticRequest_later (cmd : Text) :
    Within Later (fun _ => True) E (smarticRequest W fuel cmd) := by
  refine (smarticSocketWrite_later _).bind fun w _ => ?_
  rw [firstResponse]
  split
  · exact Within.pure trivial
  have hline : Within Later (fun _ => True) E (unsetLine (S := S)) := fun l =>
    Triple.of_run rfl ⟨trivial, refl_of Later l⟩
  refine hline.bind fun rLine _ => ?_
  refine ((smarticSocketReadln_later 1024).bind fun r _ =>
    (checkResponse_idle w.timeout rLine r).later).bind ?_
  rintro (_ | r) -
  · exact Within.pure trivial
  · exact Within.pure trivial

theorem statusRequest_later (cmd : Text) :
    Within Later (fun _ => True) E (statusRequest W fuel cmd) := by
  apply (smarticRequest_later cmd).bind
  rintro (rv | ⟨rLine, code, msg⟩) -
  · exact Within.pure trivial
  dsimp only
  split
  · exact (Idle.setError _ _ _).later
  · exact Within.pure trivial

theorem infoRequest_later (cmd : Text) (width : Nat) :
    Within Later (fun _ => True) E (infoRequest W fuel cmd width) := by
  apply (smarticRequest_later cmd).bind
  rintro (rv | ⟨rLine, code, msg⟩) -
  · exact Within.pure trivial
  dsimp only
  split
  · exact (Idle.setError _ _ _).later
  split
  · exact (Idle.setError _ _ _).later
  · exact Within.pure trivial

end Later

end BenthosDc
