/-
BenthosDc/TransferResumes.lean

Incremental transfers over whole histories.

The files mirror the journal of the runs that returned 0 with at least one dive, as long as
a run that stores a token returns (`Past.Faithful.step`).  The network driver always does.
The local driver comes to its second close only when the token has been stored.

The network driver tells the token to the daemon, with a line that may get lost on the way.

* `tokensResume`: in a history without such runs every transfer goes on behind the last
  dive of the runs before it, by the tokens in the commands that the device hears.
-/
import BenthosDc.SmartiRuns
import BenthosDc.TransferHandles
import BenthosDc.TransferTokens

namespace BenthosDc

open CString Hoare Journal Lifetime Loop

variable {S D σ α : Type}

/-! ### The tokens of extracted dives

The token of a dive is a word of its bytes, which the extraction copies beside them.
-/

/-- The token of a report is the word of its dive. -/
theorem reports_token {mem : Memory} {size : Nat} {r : ExtractResult}
    (h : Returns (extractStep mem size) extractStart r) :
    ∀ rep ∈ r.reports, rep.pos < size ∧ rep.token = toString (diveToken mem rep.pos) := by
  refine h.invariant (I := fun s => ∀ rep ∈ s.reports,
      rep.pos < size ∧ rep.token = toString (diveToken mem rep.pos))
    (Q := fun r => ∀ rep ∈ r.reports,
      rep.pos < size ∧ rep.token = toString (diveToken mem rep.pos)) ?_ ?_ fun rep hrep =>
    nomatch hrep
  · intro s s' hs hnext rep hrep
    obtain ⟨hmagic, -, -, hreports⟩ := extractStep_next hnext
    rw [hreports, List.mem_append, List.mem_singleton] at hrep
    rcases hrep with hrep | rfl
    · exact hs rep hrep
    · exact ⟨hmagic.1, rfl⟩
  · intro s r hs hstop
    rw [(extractStep_stop hstop).1]
    exact hs

/-- A byte that has been copied. -/
theorem octet_copied {mem : Memory} {pos len i : Nat} (h : i < len) :
    octet (copied mem pos len) i = (mem (pos + i)).toNat := by
  rw [octet, List.getD_eq_getElem _ _ (by rwa [length_copied])]
  simp [copied]

/-- The token that has been copied is that of the memory. -/
theorem uint32Le_copied {mem : Memory} {pos len : Nat} (hlen : 12 ≤ len) (hpos : pos + 8 < 2 ^ 32) :
    uint32Le (copied mem pos len) 8 = diveToken mem pos := by
  have hbyte : ∀ j < 4, octet (copied mem pos len) (u32 (8 + j)) = (mem (pos + 8 + j)).toNat := by
    intro j hj
    rw [u32_of_lt (by omega), octet_copied (Nat.lt_of_lt_of_le (Nat.add_lt_add_left hj 8) hlen),
      Nat.add_assoc]
  rw [uint32Le_eq]
  unfold diveToken loadWord
  rw [u32_of_lt hpos, hbyte 0 (by decide), hbyte 1 (by decide), hbyte 2 (by decide),
    hbyte 3 (by decide), Nat.add_zero]

/-- A dive whose token is the word at its offset 8, if it has one. -/
def Labelled (dive : DiveData) : Prop :=
  12 ≤ dive.1.length → dive.2 = some (decimal (uint32Le dive.1 8))

/-- **Extraction labels the dives of a buffer** that ends far below 4 GiB. -/
theorem driverExtract_labels [HasBase σ] {fuel dev size : Nat} {buffer : Option Memory}
    (hsize : buffer ≠ none → size + 8 ≤ 2 ^ 32) :
    Gives (fun r => ∀ dive ∈ r.2, Labelled dive)
      (SmartPlugin.driverExtract (σ := σ) fuel dev buffer size) := by
  refine (gives_true _).bind fun _ _ => ?_
  cases buffer with
  | none => exact Maintains.pure fun dive h => nomatch h
  | some mem =>
    dsimp only
    cases hiter : iterate (extractStep mem size) fuel extractStart with
    | next s => exact Maintains.throw trivial
    | stop r =>
      have hdives : ∀ dive ∈ r.reports.map fun d => (copied mem d.pos d.len, some d.token.toList),
          Labelled dive := by
        intro dive hdive hlen
        obtain ⟨rep, hrep, rfl⟩ := List.mem_map.mp hdive
        obtain ⟨hpos, htoken⟩ := reports_token (iterate_stop_returns hiter) rep hrep
        have hlong : 12 ≤ rep.len := by rwa [length_copied] at hlen
        have hend := hsize fun h => nomatch h
        show some rep.token.toList = some (decimal (uint32Le (copied mem rep.pos rep.len) 8))
        rw [uint32Le_copied hlong (by omega), htoken]
        exact congrArg some Nat.toList_repr
      dsimp only
      refine Maintains.ite (fun _ => Maintains.pure hdives) fun _ => ?_
      exact (gives_true _).bind fun _ _ => Maintains.pure hdives

/-! ### What parsing checks

A dive that has been parsed is long enough to have its token in it.
-/

/-- Every header reaches beyond the token. -/
theorem twelve_le_hdrSize (m : Model) : 12 ≤ m.hdrSize := by
  cases m <;> decide

/-- So does every buffer that passes the check. -/
theorem length_ge_of_check {m : Model} {data : List UInt8} (h : smartCheckBuffer m data = none) :
    12 ≤ data.length := by
  rw [smartCheckBuffer] at h
  split at h
  · cases h
  next hlen => exact (twelve_le_hdrSize m).trans (Nat.le_of_not_lt hlen)

/-- So does every header that has been parsed. -/
theorem parserParseHeader_gives [HasBase σ] (p : Nat) (data : List UInt8) :
    Gives (fun r => r.1 = 0 → 12 ≤ data.length)
      (SmartPlugin.parserParseHeader (σ := σ) p data) := by
  refine (gives_true _).bind fun _ _ => ?_
  refine (gives_true _).bind fun s _ => ?_
  refine (gives_true _).bind fun _ _ => ?_
  cases hr : smartParserParseHeaderOn (HasBase.base s.driver).forParser (s.parser p) data with
  | none => exact Maintains.throw trivial
  | some r =>
    refine (gives_true _).bind fun _ _ => ?_
    refine (gives_true _).bind fun _ _ => ?_
    exact Maintains.pure fun hret => length_ge_of_check (check_of_smartParserParseHeaderOn hr hret)

/-- A dive that is written has passed all calls of the parser. -/
theorem runParserDive_ok {F : Formatter D} {s s' : D} {c : ParserCalls}
    (h : runParserDive F s c = .ok s') :
    c.reset = 0 ∧ c.headerRv = 0 := by
  unfold runParserDive failOn at h
  by_cases hreset : c.reset = 0
  · by_cases hheader : c.headerRv = 0
    · exact ⟨hreset, hheader⟩
    · rw [hreset, if_neg (by decide), if_pos hheader] at h
      cases h
  · rw [if_pos hreset] at h
    cases h

section Parsing

variable {drv : DriverInterface σ} {F : Formatter D} {dev p : Nat}
  (hheader : ∀ p data, Gives (fun r => r.1 = 0 → 12 ≤ data.length) (drv.parserParseHeader p data))

include hheader

/-- So does a dive. -/
theorem diveCalls_gives (data : List UInt8) :
    Gives (fun c => c.reset = 0 → c.headerRv = 0 → 12 ≤ data.length)
      (diveCalls drv dev p data) := by
  refine (gives_true _).bind fun reset _ => ?_
  refine Maintains.ite (fun hreset => ?_) fun _ => ?_
  · refine (gives_true _).bind fun _ _ => ?_
    exact Maintains.pure fun h => absurd h hreset
  · refine (hheader p data).bind fun r hr => ?_
    refine Maintains.ite (fun hne => ?_) fun hzero => ?_
    · refine (gives_true _).bind fun _ _ => ?_
      exact Maintains.pure fun _ h => absurd h hne
    · have hlen := hr (not_not.mp hzero)
      refine (gives_true _).bind fun r' _ => ?_
      refine Maintains.ite (fun _ => ?_) fun _ => Maintains.pure fun _ _ => hlen
      exact (gives_true _).bind fun _ _ => Maintains.pure fun _ _ => hlen

/-- So do all dives of a list. -/
theorem parseDives_gives (s : D) (dives : List (List UInt8 × Text)) :
    Gives (fun r => ∀ s', r = .ok s' → ∀ dive ∈ dives, 12 ≤ dive.1.length)
      (parseDives drv F dev p s dives) := by
  induction dives generalizing s with
  | nil => exact Maintains.pure fun _ _ dive h => nomatch h
  | cons dive dives ih =>
    refine (diveCalls_gives hheader dive.1).bind fun c hc => ?_
    cases hrun : runParserDive F s c with
    | error rv => exact Maintains.pure fun s' h => nomatch h
    | ok s₁ =>
      obtain ⟨hreset, hheaderRv⟩ := runParserDive_ok hrun
      refine (ih s₁).imp fun r hr s' hs' e he => ?_
      rcases List.mem_cons.mp he with rfl | he
      · exact hc hreset hheaderRv
      · exact hr s' hs' e he

/-- So they do if the parser returns. -/
theorem runParserWith_gives (init : Except Int D) (dives : List (List UInt8 × Text)) :
    Gives (fun r => ∀ s', r = .ok s' → ∀ dive ∈ dives, 12 ≤ dive.1.length)
      (runParserWith drv F init dev dives) := by
  cases init with
  | error rv => exact Maintains.pure fun s' h => nomatch h
  | ok s =>
    refine (gives_true _).bind fun r _ => ?_
    cases r with
    | error rv =>
      exact (gives_true _).bind fun _ _ => Maintains.pure fun s' h => nomatch h
    | ok p =>
      refine (parseDives_gives hheader s dives).bind fun r hr => ?_
      cases r with
      | error rv => exact Maintains.pure fun s' h => nomatch h
      | ok s' =>
        exact (gives_true _).bind fun _ _ => Maintains.pure fun _ _ => hr s' rfl

/-- A transfer fails, or it stores the token of the last of the dives that it has parsed. -/
theorem parseTransferred_gives (init : Except Int D) (o : TransferOptions)
    (dives : List (List UInt8 × Text)) :
    Gives (fun res => res = transferFailed ∨
        res = storeToken o dives ∧ ∀ dive ∈ dives, 12 ≤ dive.1.length)
      (parseTransferred drv F init o dev dives) := by
  refine Maintains.ite (fun _ => ?_) fun hnone => ?_
  · refine (runParserWith_gives hheader init dives).bind fun r hr => ?_
    cases r with
    | error rv => exact Maintains.pure (.inl rfl)
    | ok s => exact Maintains.pure (.inr ⟨rfl, hr s rfl⟩)
  · have hnil : dives = [] := List.length_eq_zero_iff.mp (Nat.eq_zero_of_not_pos hnone)
    rw [hnil]
    exact Maintains.pure (.inr ⟨rfl, fun dive h => nomatch h⟩)

/-- **What a transfer can come to.** -/
theorem transferDives_cases {init : Except Int D} {o : TransferOptions} {d d' : Desk σ}
    {res : TransferResult}
    (hrun : (transferDives drv F init o dev).run d = .ok (res, d')) :
    res = transferFailed ∨ ∃ data d₁ dives, (extractDives drv o dev).run d = .ok (data, d₁) ∧
      extractCb data = some dives ∧ res = storeToken o dives ∧
        ∀ dive ∈ dives, 12 ≤ dive.1.length := by
  obtain ⟨r, d₁, htransfer, hrest⟩ := run_bind_eq_ok.mp hrun
  have hfailed : ∀ {d}, (do let _ ← drv.driverErrmsg dev; return transferFailed).run d =
      .ok (res, d') → res = transferFailed := by
    intro d hrun
    obtain ⟨_, _, _, hret⟩ := run_bind_eq_ok.mp hrun
    cases hret
    rfl
  rcases r with rc | ⟨bufferLen, buffer⟩
  · exact .inl (hfailed hrest)
  have hrest : (if bufferLen > 0 then _ else parseTransferred drv F init o dev []).run d₁ =
    .ok (res, d') := hrest
  by_cases hlen : bufferLen > 0
  · rw [if_pos hlen] at hrest
    obtain ⟨⟨rv, data⟩, d₂, hextract, hrest⟩ := run_bind_eq_ok.mp hrest
    have hdata : (extractDives drv o dev).run d = .ok (data, d₂) := by
      refine run_bind_eq_ok.mpr ⟨_, _, htransfer, ?_⟩
      show StateT.run (if bufferLen > 0 then _ else pure []) d₁ = _
      rw [if_pos hlen]
      exact run_bind_eq_ok.mpr ⟨_, _, hextract, rfl⟩
    dsimp only at hrest
    cases hcb : extractCb data with
    | none =>
      rw [hcb] at hrest
      cases hrest
    | some dives =>
      rw [hcb] at hrest
      have hrest : (if rv ≠ driverErrSuccess then _
        else parseTransferred drv F init o dev dives).run d₂ = .ok (res, d') := hrest
      by_cases hrv : rv = driverErrSuccess
      · rw [if_neg (not_not.mpr hrv)] at hrest
        rcases (parseTransferred_gives hheader init o dives).result hrest with h | ⟨h, hlong⟩
        · exact .inl h
        · exact .inr ⟨data, d₂, dives, hdata, hcb, h, hlong⟩
      · rw [if_pos hrv] at hrest
        exact .inl (hfailed hrest)
  · rw [if_neg hlen] at hrest
    rcases (parseTransferred_gives hheader init o []).result hrest with h | ⟨h, hlong⟩
    · exact .inl h
    · refine .inr ⟨[], d₁, [], ?_, rfl, h, hlong⟩
      refine run_bind_eq_ok.mpr ⟨_, _, htransfer, ?_⟩
      show StateT.run (if bufferLen > 0 then _ else pure []) d₁ = _
      rw [if_neg hlen]
      rfl

end Parsing

/-- The dives are kept with their tokens. -/
theorem extractCb_eq_some {data : List DiveData} {dives : List (List UInt8 × Text)}
    (h : extractCb data = some dives) : data = dives.map fun dive => (dive.1, some dive.2) := by
  induction data generalizing dives with
  | nil =>
    cases h
    rfl
  | cons dive data ih =>
    obtain ⟨bytes, token⟩ := dive
    rw [extractCb, List.mapM_cons] at h
    obtain ⟨dive', hdive', h⟩ := Option.bind_eq_some_iff.mp h
    obtain ⟨dives', hdives', h⟩ := Option.bind_eq_some_iff.mp h
    obtain ⟨token', rfl, rfl⟩ := Option.map_eq_some_iff.mp hdive'
    cases h
    rw [List.map_cons, ← ih hdives']

/-! ### The network driver

The data fit in their buffer, as they come out of base64.
-/

section Network

variable {H : SmartiHost S} {W : Irda S} {fuel dev : Nat} {E : Halt → Prop}

/-- A decoded text is short enough. -/
theorem length_base64Decode_lt {text : Text} {data : List UInt8}
    (h : base64Decode text = some data) : data.length < 2 ^ 31 := by
  rw [base64Decode] at h
  split at h
  · cases h
  split at h
  · cases h
  next htext =>
    have hlt := Nat.lt_of_not_le (not_or.mp htext).2
    have hlen := congrArg List.length (Option.some.inj h)
    rw [List.length_take] at hlen
    -- the padding only makes the data shorter
    split at hlen
    · split at hlen
      · omega
      · omega
    · split at hlen
      · omega
      · omega

/-- What XFER gives is shorter than 2 GiB. -/
def XferFits : Except Int (Option (List UInt8)) → Prop
  | .ok (some data) => data.length < 2 ^ 31
  | _ => True

/-- What the client gives back fits. -/
theorem smartiClientXfer_gives : Gives XferFits (smartiClientXfer W fuel) := by
  have hfail : ∀ (code : Int) (msg : ErrorText) (rv : Int),
      Gives XferFits (do setError (S := S) code msg; return Except.error rv) := fun code msg rv =>
    (gives_true _).bind fun _ _ => Maintains.pure trivial
  refine (gives_true _).bind fun r _ => ?_
  rcases r with rv | ⟨rLine, code, msg⟩
  · exact Maintains.pure trivial
  refine Maintains.ite (fun _ => hfail _ _ _) fun _ => ?_
  cases smarticParseDevinfo msg with
  | none => exact hfail _ _ _
  | some info =>
    refine (gives_true _).bind fun r _ => ?_
    rw [checkData]
    split
    · exact hfail _ _ _
    split
    · exact hfail _ _ _
    cases (r.text.getD []).rdropWhile fun c => !isB64 c with
    | nil => exact Maintains.throw trivial
    | cons c text =>
      refine Maintains.ite (fun _ => hfail _ _ _) fun _ => Maintains.pure ?_
      cases hdata : base64Decode (c :: text) with
      | none => trivial
      | some data => exact length_base64Decode_lt hdata

/-- So does what the driver makes of it. -/
theorem liftClient_gives {P : α → Prop} {m : Client S α} (hm : Gives P m) :
    Gives P (Smarti.liftClient m) := by
  intro d _
  exact Smarti.liftClient_triple (hm d.state.link trivial)

theorem call_gives {P : α → Prop} {m : Client S α} (hm : Gives P m) : Gives P (Smarti.call m) := by
  refine (gives_true _).bind fun _ _ => ?_
  refine (gives_true _).bind fun _ _ => ?_
  refine (gives_true _).bind fun s _ => ?_
  cases s.socket with
  | none => exact liftClient_gives hm
  | some s => exact (gives_true _).bind fun _ _ => liftClient_gives hm

/-- A block that the network driver hands out is a null pointer, or ends far below 4 GiB. -/
def FitsBuffer : Except Int (Nat × List UInt8) → Prop
  | .error _ => True
  | .ok (size, data) => data ≠ [] → size < 2 ^ 31

theorem smartiTransferFail_gives : Gives FitsBuffer (smartiTransferFail (S := S)) :=
  (gives_true _).bind fun _ _ => Maintains.pure trivial

theorem smartiDriverReadBlock_gives (size : Nat) :
    Gives FitsBuffer (smartiDriverReadBlock H size) := by
  refine (call_gives smartiClientXfer_gives).bind fun r hr => ?_
  cases r with
  | error rv =>
    refine (gives_true _).bind fun code _ => ?_
    refine Maintains.ite (fun _ => ?_) fun _ => smartiTransferFail_gives
    exact (gives_true _).bind fun _ _ => Maintains.pure trivial
  | ok data =>
    refine Maintains.ite (fun _ => ?_) fun hsize => ?_
    · exact (gives_true _).bind fun _ _ => Maintains.pure trivial
    apply Maintains.pure
    cases data with
    | none => exact fun h => absurd rfl h
    | some data =>
      intro _
      have hlen : data.length < 2 ^ 31 := hr
      rwa [show data.length = size from not_not.mp hsize] at hlen

/-- So does what the driver hands on. -/
theorem smartiDriverTransfer_gives (dcb : Option DeviceCallback) :
    Gives FitsBuffer (smartiDriverTransfer H dev dcb) := by
  refine (gives_true _).bind fun _ _ => ?_
  refine (gives_true _).bind fun s _ => ?_
  refine (gives_true _).bind fun _ _ => ?_
  cases (transferToken dcb s.base).2 with
  | error rc => exact Maintains.pure trivial
  | ok token =>
    refine (gives_true _).bind fun rc _ => ?_
    refine Maintains.ite (fun _ => smartiTransferFail_gives) fun _ => ?_
    refine (gives_true _).bind fun r _ => ?_
    cases r with
    | error rc => exact smartiTransferFail_gives
    | ok size =>
      refine Maintains.ite (fun _ => ?_) fun _ => smartiDriverReadBlock_gives size
      exact Maintains.pure fun h => absurd rfl h

theorem onDriver_gives {P : α → Prop} {m : Driver σ α} (hm : Gives P m) :
    Gives P (onDriver m) := fun d _ =>
  (onDriver_spec (hm d.driver trivial)).imp fun _ _ h => ⟨h.1, trivial⟩

/-- **The dives of the network driver are labelled.** -/
theorem extractDives_labels (o : TransferOptions) :
    Gives (fun data => ∀ dive ∈ data, Labelled dive)
      (extractDives (smartiDriverInterface H fuel) o dev) := by
  refine (onDriver_gives (smartiDriverTransfer_gives _)).bind fun r hr => ?_
  rcases r with rc | ⟨bufferLen, buffer⟩
  · exact Maintains.pure fun dive h => nomatch h
  refine Maintains.ite (fun _ => ?_) fun _ => Maintains.pure fun dive h => nomatch h
  have hsize : o.bufferPtr buffer ≠ none → bufferLen + 8 ≤ 2 ^ 32 := by
    intro hptr
    have hlt : bufferLen < 2 ^ 31 := by
      refine hr fun hnil => hptr ?_
      rw [TransferOptions.bufferPtr, if_pos hnil]
    omega
  exact (driverExtract_labels hsize).bind fun r hr => Maintains.pure hr

/-! ### The close of the network driver

Closing halts nowhere but at a handle that is gone.
-/

/-- A program that halts at most at a handle that is not live. -/
abbrev OnlyDangles (m : Driver σ α) : Prop :=
  Maintains (fun _ => True) (fun _ => True) (· = .dangling) m

theorem onlyDangles_pure (a : α) : OnlyDangles (σ := σ) (pure a) := Maintains.pure trivial

theorem onlyDangles_useHandle (h : Nat) : OnlyDangles (σ := σ) (useHandle h) := by
  intro d _
  cases huse : d.ledger.use h with
  | none => exact Triple.of_run_error (useHandle_run_none huse) rfl
  | some l => exact Triple.of_run (useHandle_run huse) ⟨trivial, trivial⟩

theorem onlyDangles_disposeHandle (h : Nat) : OnlyDangles (σ := σ) (disposeHandle h) := by
  intro d _
  cases hdispose : d.ledger.dispose h with
  | none => exact Triple.of_run_error (disposeHandle_run_none hdispose) rfl
  | some l => exact Triple.of_run (disposeHandle_run hdispose) ⟨trivial, trivial⟩

theorem onlyDangles_getState : OnlyDangles (σ := σ) getState := fun _ _ =>
  Triple.of_run rfl ⟨trivial, trivial⟩

theorem onlyDangles_modifyState (f : σ → σ) : OnlyDangles (modifyState f) := fun _ _ =>
  Triple.of_run rfl ⟨trivial, trivial⟩

theorem onlyDangles_getDev : OnlyDangles (Smarti.getDev (S := S)) := fun _ _ =>
  Triple.of_run rfl ⟨trivial, trivial⟩

/-- The client does not halt. -/
theorem onlyDangles_liftClient {m : Client S α} (hm : HaltsOnly never m) :
    OnlyDangles (Smarti.liftClient m) := by
  intro d _
  refine Smarti.liftClient_triple ((hm d.state.link trivial).mono ?_ ?_)
  · exact fun _ _ _ => ⟨trivial, trivial⟩
  · rintro _ ⟨⟩

theorem onlyDangles_call {m : Client S α} (hm : HaltsOnly never m) :
    OnlyDangles (Smarti.call m) := by
  refine onlyDangles_getDev.bind fun dev _ => ?_
  refine (onlyDangles_useHandle _).bind fun _ _ => ?_
  refine onlyDangles_getState.bind fun s _ => ?_
  cases s.socket with
  | none => exact onlyDangles_liftClient hm
  | some h => exact (onlyDangles_useHandle h).bind fun _ _ => onlyDangles_liftClient hm

/-- The socket is closed. -/
theorem onlyDangles_disconnect : OnlyDangles (Smarti.disconnect (S := S)) := by
  refine onlyDangles_getDev.bind fun dev _ => ?_
  refine (onlyDangles_useHandle _).bind fun _ _ => ?_
  refine onlyDangles_getState.bind fun s _ => ?_
  have hlast : OnlyDangles (do let _ ← Smarti.liftClient (S := S) smartiClientDisconnect) :=
    (onlyDangles_liftClient smartiClientDisconnect_tame).bind fun _ _ => onlyDangles_pure _
  cases s.socket with
  | none => exact hlast
  | some h =>
    refine (onlyDangles_disposeHandle h).bind fun _ _ => ?_
    exact (onlyDangles_modifyState _).bind fun _ _ => hlast

/-- The device is closed. -/
theorem onlyDangles_close : OnlyDangles (smartiDriverClose H dev) := by
  refine (onlyDangles_useHandle dev).bind fun _ _ => ?_
  refine (onlyDangles_call (statusRequest_tame _)).bind fun _ _ => ?_
  exact onlyDangles_disconnect.bind fun _ _ => onlyDangles_modifyState _

/-- The device is shut down. -/
theorem onlyDangles_shutdown : OnlyDangles (smartiDriverShutdown (S := S) dev) := by
  refine (onlyDangles_useHandle dev).bind fun _ _ => ?_
  have hdispose : OnlyDangles (smartiClientDispose (S := S)) := by
    refine onlyDangles_getDev.bind fun s _ => ?_
    exact onlyDangles_disconnect.bind fun _ _ => onlyDangles_disposeHandle _
  refine hdispose.bind fun _ _ => ?_
  exact (onlyDangles_modifyState _).bind fun _ _ => onlyDangles_disposeHandle dev

theorem onDriver_onlyDangles {m : Driver σ α} (hm : OnlyDangles m) :
    OnlyDangles (onDriver m) := fun d _ =>
  (onDriver_spec (hm d.driver trivial)).imp fun _ _ h => h

/-- Closing does not change the result. -/
theorem closeDevice_result {drv : DriverInterface σ} {d d' : Desk σ} {res res' : TransferResult}
    (hrun : (closeDevice drv (some (dev, res))).run d = .ok (res', d')) : res' = res := by
  obtain ⟨_, _, _, hrest⟩ := run_bind_eq_ok.mp hrun
  obtain ⟨_, _, _, hret⟩ := run_bind_eq_ok.mp hrest
  cases hret
  rfl

/-- **The network driver closes what it has opened**, and the transfer returns. -/
theorem smarti_closes {d : Desk (Parsing (SmartiProc S))} (hd : SmartiOwns dev d.driver)
    (res : TransferResult) :
    ∃ d', (closeDevice (smartiDriverInterface H fuel) (some (dev, res))).run d = .ok (res, d') := by
  have hkept := smarti_closeDevice H fuel dev res d hd
  have hdangles : OnlyDangles (closeDevice (smartiDriverInterface H fuel) (some (dev, res))) :=
    (onDriver_onlyDangles onlyDangles_close).bind fun _ _ =>
      (onDriver_onlyDangles onlyDangles_shutdown).bind fun _ _ => onlyDangles_pure res
  cases hrun : (closeDevice (smartiDriverInterface H fuel) (some (dev, res))).run d with
  | error e => exact absurd ((hdangles d trivial).halt hrun) (hkept.halt hrun)
  | ok r =>
    obtain ⟨res', d'⟩ := r
    rw [closeDevice_result hrun]
    exact ⟨d', rfl⟩

end Network

/-! ### What a run leaves

A run stores a token or leaves the files alone.  Whether the run returns decides on the
journal.
-/

section Runs

variable {r : SmartRun S D} {t : TokenDir} {files : Files} {dev : Nat}
  {d d' : Desk (Parsing r.table.Listened)} {res : TransferResult}

/-- The run is one with the network driver, or it does not come to store a token; and with the
network driver, the line of TOKEN reaches the daemon as a whole. -/
structure SmartRun.KeepsTokens (r : SmartRun S D) (t : TokenDir) (files : Files) : Prop where
  stores : r.table.isSmarti ∨ r.stored t files = none
  sends : ∀ dev d, r.opened t files = some (dev, d) → ∀ token,
    (transferToken (some (deviceCb (r.options t files))) d.base).2 = .ok token →
      r.table.SendsToken token d.state.driver

/-- The device has been opened. -/
theorem openDevice_of_opened (h : r.opened t files = some (dev, d)) :
    (openDevice r.drv (r.options t files)).run (Desk.start r.state) = .ok (some dev, d) := by
  rw [SmartRun.opened] at h
  split at h
  next hrun =>
    rw [hrun]
    cases h
    rfl
  · cases h

/-- What is returned is what closing the device returns. -/
theorem runTransfer_of_opened (h : r.opened t files = some (dev, d))
    (hrun : (transferDives r.drv r.formatter r.init (r.options t files) dev).run d =
      .ok (res, d')) :
    (runTransfer r.drv r.formatter r.init (r.options t files)).run (Desk.start r.state) =
      (closeDevice r.drv (some (dev, res))).run d' := by
  have hbefore : (beforeClose r.drv r.formatter r.init (r.options t files)).run
      (Desk.start r.state) = .ok (some (dev, res), d') :=
    run_bind_eq_ok.mpr ⟨_, _, openDevice_of_opened h, run_bind_eq_ok.mpr ⟨_, _, hrun, rfl⟩⟩
  rw [runTransfer_eq, run_bind_of_ok hbefore]

/-- The code of a run that returns. -/
theorem ret_of_returned {n : Int} (h : r.opened t files = some (dev, d))
    (hret : r.returned t files = some n) :
    ∃ res d', (transferDives r.drv r.formatter r.init (r.options t files) dev).run d =
      .ok (res, d') ∧ res.ret = n := by
  rw [SmartRun.returned] at hret
  split at hret
  · cases hret
  next res' d₂ hrun =>
    cases hret
    rw [runTransfer_eq] at hrun
    obtain ⟨x, d₁, hbefore, hclose⟩ := run_bind_eq_ok.mp hrun
    obtain ⟨y, d₀, hopen, hbefore⟩ := run_bind_eq_ok.mp hbefore
    rw [openDevice_of_opened h] at hopen
    cases hopen
    obtain ⟨res, d₁, htransfer, hpure⟩ := run_bind_eq_ok.mp hbefore
    cases hpure
    refine ⟨res, d₁, htransfer, ?_⟩
    rw [closeDevice_result hclose]

/-- A header that has been parsed has its token in it. -/
theorem header_gives (r : SmartRun S D) (p : Nat) (data : List UInt8) :
    Gives (fun x => x.1 = 0 → 12 ≤ data.length) (r.drv.parserParseHeader p data) := by
  obtain ⟨table⟩ := r
  cases table with
  | smart H => exact parserParseHeader_gives p data
  | smarti H => exact parserParseHeader_gives p data

/-- The dives of the network driver have their tokens. -/
theorem labels_of_isSmarti (hnet : r.table.isSmarti) {data : List DiveData} {o : TransferOptions}
    (hrun : (extractDives r.drv o dev).run d = .ok (data, d')) : ∀ dive ∈ data, Labelled dive := by
  obtain ⟨table⟩ := r
  cases table with
  | smart H => exact hnet.elim
  | smarti H => exact (extractDives_labels o).result hrun

/-- The network driver comes to the end of its close. -/
theorem closes_of_isSmarti (hnet : r.table.isSmarti) (h : r.opened t files = some (dev, d))
    (hrun : (transferDives r.drv r.formatter r.init (r.options t files) dev).run d =
      .ok (res, d')) :
    r.returned t files = some res.ret := by
  have hclose : ∃ d'', (closeDevice r.drv (some (dev, res))).run d' = .ok (res, d'') := by
    have hopen := openDevice_of_opened h
    generalize r.options t files = o at hrun hopen
    obtain ⟨table, fuel⟩ := r
    cases table with
    | smart H => exact hnet.elim
    | smarti H =>
      have hd := (openDevice_spec (smartiContract (H.listening none) fuel) o _).result hopen dev rfl
      have hd' := Triple.result
        (transferDives_spec (smartiContract (H.listening none) fuel) _ o hd) hrun
      exact smarti_closes hd' res
  obtain ⟨d'', hclose⟩ := hclose
  rw [SmartRun.returned, runTransfer_of_opened h hrun, hclose]

/-- What the journal gets. -/
theorem download_of_opened (h : r.opened t files = some (dev, d)) :
    r.download t files =
      some ⟨r.driver, d.base.serial, r.returned t files, r.extracted t files dev d⟩ := by
  rw [SmartRun.download, h]
  rfl

/-- What the files get. -/
theorem stored_of_run (h : r.opened t files = some (dev, d))
    (hrun : (transferDives r.drv r.formatter r.init (r.options t files) dev).run d =
      .ok (res, d')) :
    r.stored t files = res.token.map fun token => (d.base.serial, token) := by
  rw [SmartRun.stored, h]
  dsimp only
  rw [hrun]

/-- The dives of the run. -/
theorem extracted_of_run {data : List DiveData} {d₁ : Desk (Parsing r.table.Listened)}
    {dives : List (List UInt8 × Text)}
    (hrun : (extractDives r.drv (r.options t files) dev).run d = .ok (data, d₁))
    (hcb : extractCb data = some dives) :
    r.extracted t files dev d = dives.map (·.1) := by
  rw [SmartRun.extracted, hrun, extractCb_eq_some hcb]
  show List.map _ (List.map _ _) = _
  rw [List.map_map]
  rfl

/-- A run that does not return 0 does not get into the journal. -/
theorem not_completed (h : r.opened t files = some (dev, d)) (hret : r.returned t files ≠ some 0) :
    (r.download t files).bind Download.completed = none := by
  rw [download_of_opened h]
  exact if_neg hret

/-- **What a run stores is what it leaves in the journal.** -/
theorem stored_eq (hkeeps : r.KeepsTokens t files) :
    r.stored t files =
      ((r.download t files).bind Download.completed).map fun e => (e.1.2, decimal e.2) := by
  cases h : r.opened t files with
  | none =>
    rw [SmartRun.stored, SmartRun.download, h]
    rfl
  | some o =>
  obtain ⟨dev, d⟩ := o
  cases hrun : (transferDives r.drv r.formatter r.init (r.options t files) dev).run d with
  | error e =>
    have hret : r.returned t files ≠ some 0 := by
      intro hret
      obtain ⟨res, d', hok, -⟩ := ret_of_returned h hret
      rw [hrun] at hok
      cases hok
    rw [not_completed h hret, SmartRun.stored, h]
    dsimp only
    rw [hrun]
    rfl
  | ok p =>
  obtain ⟨res, d'⟩ := p
  have hstored := stored_of_run h hrun
  rcases transferDives_cases (header_gives r) hrun with
    rfl | ⟨data, d₁, dives, hdata, hcb, rfl, hlong⟩
  · have hret : r.returned t files ≠ some 0 := by
      intro hret
      obtain ⟨res, d₂, hok, hzero⟩ := ret_of_returned h hret
      rw [hrun] at hok
      cases hok
      exact absurd hzero (by decide)
    rw [not_completed h hret, hstored]
    rfl
  have hextracted := extracted_of_run hdata hcb
  rcases List.eq_nil_or_concat' dives with rfl | ⟨front, last, rfl⟩
  · rw [hstored, download_of_opened h, hextracted]
    show none = Option.map _ (Download.completed _)
    rw [Download.completed]
    split
    · rfl
    · rfl
  -- a run that stores a token is one with the network driver
  have hlast : (storeToken (r.options t files) (front ++ [last])).token = some last.2 := by
    show (List.getLast? (front ++ [last])).map _ = _
    rw [List.getLast?_concat]
    rfl
  rw [hlast] at hstored
  have hnet : r.table.isSmarti := hkeeps.stores.resolve_right fun hnone => by
    rw [hstored] at hnone
    cases hnone
  have hmem : last ∈ front ++ [last] := List.mem_append_right _ List.mem_cons_self
  have hlabel : Labelled (last.1, some last.2) := by
    apply labels_of_isSmarti hnet hdata
    rw [extractCb_eq_some hcb]
    exact List.mem_map_of_mem hmem
  have htoken : last.2 = decimal (uint32Le last.1 8) := Option.some.inj (hlabel (hlong last hmem))
  have hret : r.returned t files = some 0 := closes_of_isSmarti hnet h hrun
  rw [hstored, download_of_opened h, hret, hextracted, List.map_append, htoken]
  show _ = Option.map _ (Download.completed _)
  rw [Download.completed, if_pos rfl]
  show _ = Option.map _ ((List.map _ front ++ [last.1]).getLast?.map _)
  rw [List.getLast?_concat]
  rfl

/-- The entry is that of the driver. -/
theorem completed_key {e : (Text × Nat) × Nat}
    (he : (r.download t files).bind Download.completed = some e) : e.1.1 = r.driver := by
  obtain ⟨c, hc, he⟩ := Option.bind_eq_some_iff.mp he
  obtain ⟨o, -, rfl⟩ := Option.map_eq_some_iff.mp hc
  rw [Download.completed] at he
  split at he
  · obtain ⟨dive, -, rfl⟩ := Option.map_eq_some_iff.mp he
    rfl
  · cases he

/-- A token has 32 bits. -/
theorem completed_lt {c : Download} {e : (Text × Nat) × Nat} (he : c.completed = some e) :
    e.2 < 2 ^ 32 := by
  rw [Download.completed] at he
  split at he
  · obtain ⟨dive, -, rfl⟩ := Option.map_eq_some_iff.mp he
    exact uint32Le_lt dive 8
  · cases he

end Runs

/-! ### What the device hears

The commands in the log are all that the device has been told.
-/

section Commands

variable {r : SmartRun S D} {t : TokenDir} {files : Files} {dev : Nat}
  {d : Desk (Parsing r.table.Listened)}

/-- A device that is open has been created and opened. -/
theorem openDevice_ok {drv : DriverInterface σ} {o : TransferOptions} {d₀ d : Desk σ}
    (h : (openDevice drv o).run d₀ = .ok (some dev, d)) :
    ∃ d₁ rv, drv.driverCreate.run d₀ = .ok (.ok dev, d₁) ∧
      (drv.driverOpen dev o.device o.dargs).run d₁ = .ok (rv, d) := by
  obtain ⟨c, d₁, hcreate, hrest⟩ := run_bind_eq_ok.mp h
  cases c with
  | error rc => cases hrest
  | ok dev' =>
    obtain ⟨rv, d₂, hopen, hrest⟩ := run_bind_eq_ok.mp hrest
    by_cases hrv : rv ≠ driverErrSuccess
    · rw [if_pos hrv] at hrest
      obtain ⟨_, _, _, hrest⟩ := run_bind_eq_ok.mp hrest
      obtain ⟨_, _, _, hrest⟩ := run_bind_eq_ok.mp hrest
      cases hrest
    · rw [if_neg hrv] at hrest
      cases hrest
      exact ⟨d₁, rv, hcreate, hopen⟩

/-- No command has put a token to the device. -/
def SmartTable.Untold : (p : SmartTable S) → p.Listened → Prop
  | .smart _, s => Hears (fun cmd => commandToken cmd = none) s.world
  | .smarti _, s => Speaks BenthosDc.Untold OpeningText s.link

/-- **Opening the device puts no token to it.** -/
theorem opened_untold (h : r.opened t files = some (dev, d)) : r.table.Untold d.state.driver := by
  obtain ⟨d₁, rv, hcreate, hopen⟩ := openDevice_ok (openDevice_of_opened h)
  generalize r.options t files = o at hopen
  obtain ⟨table, fuel, driver, noSlash, device, dargs, behind, bufferLen, F, init, state,
    starts⟩ := r
  cases table with
  | smart H =>
    have hstart : Hears (fun cmd => commandToken cmd = none) d₁.driver.state.world := by
      cases hcreate
      show Hears _ state.driver.world
      have hnothing : state.driver.world.heard = [] := starts
      rw [Hears, hnothing]
      exact fun cmd hcmd => nomatch hcmd
    have hopens : TellsOnly (fun cmd => commandToken cmd = none)
        (smartDriverOpen (H.listening none) dev o.device o.dargs) :=
      smartDriverOpen_hears (fun _ h => h) dev o.device o.dargs
    exact ((onDriver_spec (hopens d₁.driver hstart)).result hopen).2
  | smarti G =>
    have hstart : Speaks Untold OpeningText d₁.driver.state.link := by
      cases hcreate
      obtain ⟨w, schedule, junk, hlink⟩ := starts
      show Speaks Untold OpeningText state.driver.link
      rw [hlink]
      rintro c ⟨⟩
      exact ⟨fun cmd hcmd => (nomatch hcmd), openingText_nil⟩
    have hopens : DriverKeeps (Speaks Untold OpeningText)
        (smartiDriverOpen (G.listening none) dev o.device o.dargs) :=
      smartiDriverOpen_hears dev o.device o.dargs
    exact ((onDriver_spec (hopens d₁.driver hstart)).result hopen).2

/-- **The commands of a run have the token of its transfer**, and no other. -/
theorem heard_carries {limit : Option Nat} {serial token : Nat} {cmds : List (List UInt8)}
    (h : r.opened t files = some (dev, d))
    (htoken : (transferToken (some (deviceCb (r.options t files))) d.base).2 = .ok token)
    (hsends : r.table.SendsToken token d.state.driver)
    (hheard : r.heard t files limit = some (serial, cmds)) :
    serial = d.base.serial ∧ ∀ cmd ∈ cmds, Carries token cmd := by
  have huntold := opened_untold h
  rw [SmartRun.heard, h] at hheard
  dsimp only at hheard
  generalize r.options t files = o at htoken hheard
  obtain ⟨table, fuel⟩ := r
  split at hheard
  next => cases hheard
  next res d' hrun =>
  obtain ⟨cmds, hcmds, heq⟩ := Option.map_eq_some_iff.mp hheard
  cases heq
  refine ⟨rfl, ?_⟩
  have hlt : token < 2 ^ 32 := transferToken_lt htoken
  cases table with
  | smart H =>
    cases hcmds
    have htells : Triple (smartDriverTransfer (H.listening limit) fuel dev o.bufferLen
        (some (deviceCb o)) (some transferCb)) d.driver (fun _ d' => Hears (Carries token)
          d'.state.world) anyHalt := by
      refine smartDriverTransfer_hears rfl (huntold.imp fun _ => carries_of_none) ?_ _ _ _
      intro n hn
      obtain rfl : token = n := Except.ok.inj (htoken.symm.trans hn)
      exact ⟨carries_tokenCmd (.inl rfl) hlt, carries_tokenCmd (.inr rfl) hlt⟩
    exact (onDriver_spec htells).result hrun
  | smarti G =>
    obtain ⟨c, hc, rfl⟩ := Option.map_eq_some_iff.mp hcmds
    have hspeaks : Speaks Untold OpeningText d.driver.state.link := huntold
    have htells : Triple (smartiDriverTransfer (G.listening limit) dev (some (deviceCb o))) d.driver
        (fun _ d' => ToldOnly token d'.state.link) anyHalt :=
      smartiDriverTransfer_hears rfl hspeaks htoken hsends dev
    exact (onDriver_spec htells).result hrun c hc

end Commands

/-! ### Histories

A history is a list of runs, each from the files that the one before it has left.
-/

section Histories

variable {t : TokenDir} {p : Past} {r : SmartRun S D} {runs : List (SmartRun S D)}

/-- The tokens that the runs so far should have left. -/
def Past.journal (p : Past) : List ((Text × Nat) × Nat) :=
  p.downloads.filterMap Download.completed

/-- The files hold what the journal says. -/
def Past.Faithful (t : TokenDir) (p : Past) : Prop :=
  Mirrors (fun key : Text × Nat => tokenPath t key.1 key.2) (fun n => tokenFile (decimal n))
    p.files p.journal

/-- No file, no entry. -/
theorem Past.Faithful.start : Past.start.Faithful t := mirrors_nil

theorem journal_step : (p.step t r).journal =
    p.journal ++ ((r.download t p.files).bind Download.completed).toList := by
  rw [Past.journal, Past.step, List.filterMap_append]
  cases r.download t p.files with
  | none => rfl
  | some c =>
    show _ ++ List.filterMap _ [c] = _ ++ c.completed.toList
    cases hc : c.completed with
    | none => rw [List.filterMap_cons_none hc]; rfl
    | some e => rw [List.filterMap_cons_some hc]; rfl

/-- **One run keeps the files faithful.** -/
theorem Past.Faithful.step (hp : p.Faithful t) (hkeeps : r.KeepsTokens t p.files) :
    (p.step t r).Faithful t := by
  have hstored := stored_eq hkeeps
  rw [Past.Faithful, journal_step]
  cases hc : (r.download t p.files).bind Download.completed with
  | none =>
    rw [hc] at hstored
    have hfiles : (p.step t r).files = p.files := by
      rw [Past.step]
      dsimp only
      rw [show r.stored t p.files = none from hstored]
    rw [hfiles]
    exact (List.append_nil p.journal).symm ▸ hp
  | some e =>
    obtain ⟨⟨driver, serial⟩, n⟩ := e
    obtain rfl : driver = r.driver := completed_key hc
    rw [hc] at hstored
    have hfiles : (p.step t r).files = Function.update p.files (tokenPath t r.driver serial)
        (some (tokenFile (decimal n))) := by
      rw [Past.step]
      dsimp only
      rw [show r.stored t p.files = some (serial, decimal n) from hstored]
    rw [hfiles]
    exact Mirrors.put (k := (r.driver, serial)) (tokenPath_injective t) hp

/-- In front of each of the runs the condition is met. -/
def KeepTokens (t : TokenDir) (runs : List (SmartRun S D)) : Prop :=
  ∀ before r after, runs = before ++ r :: after → r.KeepsTokens t (pastOf t before).files

/-- The front of a history. -/
theorem KeepTokens.front {before after : List (SmartRun S D)}
    (h : KeepTokens t (before ++ after)) : KeepTokens t before := by
  intro front r rest hsplit
  apply h front r (rest ++ after)
  rw [hsplit, List.append_assoc]
  rfl

/-- **A whole history keeps the files faithful.** -/
theorem faithful_pastOf (h : KeepTokens t runs) : (pastOf t runs).Faithful t := by
  induction runs using List.reverseRecOn with
  | nil => exact Past.Faithful.start
  | append_singleton runs r ih =>
    rw [pastOf, List.foldl_append]
    exact (ih h.front).step (h runs r [] rfl)

/-- **Every transfer goes on behind the last dive**, if the runs of the history that store a
token are runs with the network driver, and their TOKEN lines reach the daemon. -/
theorem tokensResume (t : TokenDir) (runs : List (SmartRun S D)) (h : KeepTokens t runs) :
    TokensResume t runs := by
  intro before r after hsplit limit serial cmds hheard
  subst hsplit
  have hfaithful := faithful_pastOf h.front
  have hkeeps := h before r after rfl
  generalize pastOf t before = p at hfaithful hkeeps hheard
  cases ho : r.opened t p.files with
  | none =>
    rw [SmartRun.heard, ho] at hheard
    cases hheard
  | some o =>
  obtain ⟨dev, d⟩ := o
  have hlt : ∀ n, latest p.journal (r.driver, d.base.serial) = some n → n < 2 ^ 32 := by
    intro n hn
    obtain ⟨c, -, hc⟩ := List.mem_filterMap.mp (mem_of_latest hn)
    exact completed_lt hc
  have htoken : (transferToken (some (deviceCb (r.options t p.files))) d.base).2 =
      .ok ((latest p.journal (r.driver, d.base.serial)).getD 0) :=
    transferToken_file rfl rfl (hfaithful (r.driver, d.base.serial)) hlt
  obtain ⟨rfl, hcarries⟩ := heard_carries ho htoken (hkeeps.sends dev d ho _ htoken) hheard
  exact hcarries

end Histories

/-! ### A device with one dive

The same device behind both drivers.
-/

/-- The dive has the token 7. -/
def onlyDive : List UInt8 :=
  [0xa5, 0xa5, 0x5a, 0x5a, 92, 0, 0, 0, 7, 0, 0, 0] ++ List.replicate 80 0

/-- A Smart Pro with the serial number 1. -/
def answerTo (cmd : List UInt8) : List UInt8 :=
  match cmd with
  | 0x10 :: _ => [16]
  | 0x14 :: _ => [1, 0, 0, 0]
  | 0x1a :: _ => [0, 0, 0, 0]
  | 0xc6 :: _ => [92, 0, 0, 0]
  | 0xc4 :: _ => [96, 0, 0, 0] ++ onlyDive
  | _ => [1]

/-- The world is the rest of the last answer. -/
def oneDiveHost : SmartHost (List UInt8) where
  discover w := (some [⟨1, "Uwatec Smart".toList⟩], w)
  connectLsap w _ _ := (.done (), w)
  write _ cmd := (.done cmd.length, answerTo cmd)
  read w n := (.done (w.take n), w.drop n)
  time w := (0, w)
  junk _ _ := 0
  foreignFree := false
  socketOpen w := (true, w)
  setTimeout w _ := (true, w)
  errcode _ := 0

/-- The same device behind the daemon. -/
def oneDiveDaemon : SmartiHost (List UInt8) where
  irda := oneDiveHost.toIrda
  fuel := 20
  dial _ _ := none
  clock := 0
  bsize := 0

/-- A run that writes nothing. -/
def silentRun (table : SmartTable (List UInt8)) (state : Parsing table.Listened)
    (starts : table.Starts state.driver) : SmartRun (List UInt8) Unit where
  table := table
  fuel := 20
  driver := "uwatec".toList
  noSlash := by decide
  device := []
  dargs := []
  behind _ := 0
  bufferLen := 0
  formatter := silentFormatter
  init := .ok ()
  state := state
  starts := starts

/-- A run of the local driver. -/
def localRun : SmartRun (List UInt8) Unit :=
  silentRun (.smart oneDiveHost) ⟨⟨⟨[], []⟩, SmartDev.fresh⟩, fun _ => default, fun _ => 0⟩ rfl

/-- A run with the network driver; `junk` is what its line buffers hold before they are set. -/
def runOverNetwork (schedule : List NetEvent) (junk : Text) : SmartRun (List UInt8) Unit :=
  silentRun (.smarti oneDiveDaemon)
    ⟨⟨Link.dialed ⟨[], []⟩ schedule junk, none, SmartiDev.fresh 0⟩, fun _ => default, fun _ => 0⟩
    ⟨[], schedule, junk, rfl⟩

/-- A run of the network driver. -/
def networkRun : SmartRun (List UInt8) Unit := runOverNetwork [] []

/-- Where the files are. -/
def homeDir : TokenDir := ⟨"/home".toList, []⟩

/-- Which device is opened does not depend on the files. -/
theorem opened_files (r : SmartRun S D) (t : TokenDir) (files files' : Files) :
    r.opened t files = r.opened t files' := rfl

/-- Without a schedule nothing is cut short. -/
theorem networkRun_keepsTokens (files : Files) : networkRun.KeepsTokens homeDir files := by
  refine ⟨.inl trivial, ?_⟩
  have hlink : (networkRun.opened homeDir fun _ => none).map (fun p =>
      (p.2.state.driver.link.server.input, p.2.state.driver.link.schedule)) = some ([], []) := by
    decide +kernel
  intro dev d hopened token _
  rw [opened_files networkRun homeDir files fun _ => none] at hopened
  rw [hopened] at hlink
  obtain ⟨hinput, hschedule⟩ := Prod.mk.inj (Option.some.inj hlink)
  refine ⟨hinput, fun hcut => ?_⟩
  have hcut : CutShort d.state.driver.link.schedule _ := hcut
  rw [hschedule] at hcut
  exact hcut

/-- The second of two runs with the network driver goes on behind the dive: its size command and
its transfer command have the token 7. -/
theorem tokensResume_twoRuns :
    (networkRun.heard homeDir (pastOf homeDir [networkRun]).files none).map
        (fun p => (p.1, p.2.filterMap commandToken)) = some (1, [7, 7]) ∧
      TokensResume homeDir [networkRun, networkRun] := by
  refine ⟨by decide +kernel, tokensResume homeDir [networkRun, networkRun] ?_⟩
  intro before r after hsplit
  have hmem : r ∈ [networkRun, networkRun] := by
    rw [hsplit]
    exact List.mem_append_right _ List.mem_cons_self
  rcases List.mem_pair.mp hmem with rfl | rfl
  · exact networkRun_keepsTokens _
  · exact networkRun_keepsTokens _

/-- A run that puts another token than the one of the last dive to the device. -/
theorem not_tokensResume {t : TokenDir} {r r' : SmartRun S D} {serial : Nat}
    {cmds : List (List UInt8)} (hheard : r'.heard t (pastOf t [r]).files none = some (serial, cmds))
    {n : Nat} (hn : n ∈ cmds.filterMap commandToken)
    (hresume : n ≠ resumeToken (pastOf t [r]).downloads r'.driver serial) :
    ¬TokensResume t [r, r'] := by
  intro h
  obtain ⟨cmd, hcmd, htoken⟩ := List.mem_filterMap.mp hn
  exact hresume (h [r] r' [] rfl none serial cmds hheard cmd hcmd n htoken)

/-- **A run with the local driver comes to a halt, and its token is used** by the next. -/
theorem localRun_not_tokensResume : ¬TokensResume homeDir [localRun, localRun] := by
  have hheard : localRun.heard homeDir (pastOf homeDir [localRun]).files none =
      some (1, [[0x1b], [0x1c, 0x10, 0x27, 0, 0], [0x10], [0x14], [0x1a], tokenCmd 0xc6 7,
        tokenCmd 0xc4 7]) := by decide +kernel
  have hresume : 7 ≠ resumeToken (pastOf homeDir [localRun]).downloads "uwatec".toList 1 := by
    decide +kernel
  exact not_tokensResume hheard (by decide) hresume

/-- A network on which the device is opened without trouble, and the select in front of TOKEN
fails, as does the one in front of its reply. -/
def lostToken : List NetEvent :=
  let looks n := List.replicate n (NetEvent.arrive 100)
  -- the greeting, ENUM and a poll, OPEN, MODEL, SERIAL, TICKS
  looks 31 ++ .accept 100 :: looks 27 ++ .again :: .accept 100 :: looks 18 ++
    .accept 100 :: looks 21 ++ .accept 100 :: looks 21 ++ .accept 100 :: looks 13 ++
    [.selectFails, .selectFails]

/-- **A TOKEN line that gets lost is taken for a success**, if the buffer of its reply happens to
hold one; the daemon puts the token 0 to the device. -/
theorem lostToken_not_tokensResume :
    ¬TokensResume homeDir [networkRun, runOverNetwork lostToken "210 ok".toList] := by
  have hheard : (runOverNetwork lostToken "210 ok".toList).heard homeDir
      (pastOf homeDir [networkRun]).files none =
        some (1, [[0x1b], [0x1c, 0x10, 0x27, 0, 0], [0x1a], [0x10], [0x14], tokenCmd 0xc6 0,
          tokenCmd 0xc4 0]) := by decide +kernel
  have hresume : 0 ≠ resumeToken (pastOf homeDir [networkRun]).downloads "uwatec".toList 1 := by
    decide +kernel
  exact not_tokensResume hheard (by decide) hresume

end BenthosDc
