/-
BenthosDc/SmartidSession.lean

A connection from its first command to its end, and the lives of the device
handles in between.

* `session_handles_iff`: no handle is followed that is not live; and each handle is disposed
  exactly once by the end of the session, if and only if the session has one.

A session ends if and only if each XFER in it does, so the condition is that of
`answered_iff_served` for XFER, in front of each line.
-/
import BenthosDc.SmartidAnswered

namespace BenthosDc

open CString Hoare Lifetime Loop SmartiCmd

variable {S : Type} {W : Irda S} {c : Conn S}

/-- The commands of a connection, one after the other. -/
def session (W : Irda S) (fuel : Nat) (lines : List CommandLine) : Daemon S Unit :=
  lines.forM fun line => smartidCmdProcess W fuel line.1

/-- **One command**: whatever the socket does, the connection stays well formed and
no handle is followed that has been disposed. -/
theorem smartidCmdProcess_wellFormed (hc : WellFormed c) (fuel : Nat) (line : CommandLine) :
    Triple (smartidCmdProcess W fuel line.1) c (fun _ c' => WellFormed c') (· ≠ .dangling) := by
  have hparams := newline_not_mem_commandParams line
  obtain ⟨line, hline⟩ := line
  by_cases hname : commandName line = []
  · rw [process_ready hname]
    exact (sendReady_sends.replies c hc rfl).imp fun _ _ h => h.1
  cases hcmd : lookupCommand ((commandName line).map Char.toLower) with
  | none =>
    rw [process_unknown hname hcmd]
    exact Triple.pure hc
  | some cmd =>
    rw [process_func hname hcmd]
    refine (func_replies hparams cmd (fun _ => ?_) fuel c hc rfl).imp fun _ _ h => h.1
    exact ⟨fun h => (nomatch h), fun h => (nomatch h), fun h => (nomatch h)⟩

theorem session_wellFormed (hc : WellFormed c) (fuel : Nat) (lines : List CommandLine) :
    Triple (session W fuel lines) c (fun _ c' => WellFormed c') (· ≠ .dangling) :=
  Triple.forM (I := WellFormed) (fun line _ hc => smartidCmdProcess_wellFormed hc fuel line) hc
    lines

/-! ### More passes

A loop that ends does so with any larger number of passes, and with the same result.
-/

section Passes

variable {fuel fuel' : Nat} (hle : fuel ≤ fuel')

include hle

/-- The loop over the chunks. -/
theorem readBlock_below (csize len : Nat) :
    Below (readBlock W fuel csize len) (readBlock W fuel' csize len) := by
  rintro c ⟨r, c'⟩ hrun
  have hrun : readBlock W fuel csize len c = .ok (r, c') := hrun
  show readBlock W fuel' csize len c = .ok (r, c')
  rw [readBlock] at hrun ⊢
  cases hiter : iterate (readChunk W csize) fuel (c.world, [], len) with
  | next s =>
    rw [hiter] at hrun
    cases hrun
  | stop out =>
    rw [hiter] at hrun
    rw [iterate_stop_mono hle hiter]
    exact hrun

theorem smartidDevXferData_below (dev : Option Nat) :
    Below (smartidDevXferData W fuel dev) (smartidDevXferData W fuel' dev) := by
  cases dev with
  | none => exact Below.refl _
  | some h =>
    refine (Below.refl (deref h)).bind fun d => (Below.refl _).bind fun _ => ?_
    refine (Below.refl _).bind fun ans => (Below.refl _).bind fun r => ?_
    cases r with
    | error rv => exact Below.refl _
    | ok nb =>
      show Below (receiveBlock W fuel d.csize nb) (receiveBlock W fuel' d.csize nb)
      rw [receiveBlock, receiveBlock]
      split
      · exact Below.refl _
      split
      · exact Below.refl _
      exact (readBlock_below hle _ _).bind fun _ => Below.refl _

theorem smartidCmdXfer_below (params : Option Text) :
    Below (smartidCmdXfer W fuel params) (smartidCmdXfer W fuel' params) := by
  rw [smartidCmdXfer, smartidCmdXfer]
  cases params with
  | some params => exact Below.refl (syntaxError cmdXfer)
  | none =>
    refine (Below.refl smartidConnDevice).bind fun dev => ?_
    cases dev with
    | none => exact Below.refl _
    | some h => exact (smartidDevXferData_below hle (some h)).bind fun r => Below.refl _

/-- **A command that ends** ends in the same way when its loop is given more passes. -/
theorem smartidCmdProcess_below (line : Text) :
    Below (smartidCmdProcess W fuel line) (smartidCmdProcess W fuel' line) := by
  by_cases hname : commandName line = []
  · rw [process_ready hname, process_ready hname]
    exact Below.refl _
  cases hcmd : lookupCommand ((commandName line).map Char.toLower) with
  | none =>
    rw [process_unknown hname hcmd, process_unknown hname hcmd]
    exact Below.refl _
  | some cmd =>
    rw [process_func hname hcmd, process_func hname hcmd]
    by_cases hxfer : cmd = cmdXfer
    · subst hxfer
      exact smartidCmdXfer_below hle _
    · -- the loop of XFER is the only one
      have hsame : cmd.func W fuel = cmd.func W fuel' := by
        cases cmd <;> simp_all [SmartiCmd.func]
      rw [hsame]
      exact Below.refl _

theorem session_below (lines : List CommandLine) :
    Below (session W fuel lines) (session W fuel' lines) :=
  Below.forM (fun line : CommandLine => smartidCmdProcess_below hle line.1) lines

end Passes

/-- A command has one outcome. -/
theorem process_unique {fuel fuel' : Nat} {line : Text} {c₁ c₂ : Conn S}
    (h₁ : (smartidCmdProcess W fuel line).run c = .ok ((), c₁))
    (h₂ : (smartidCmdProcess W fuel' line).run c = .ok ((), c₂)) : c₁ = c₂ := by
  have hmax₁ := smartidCmdProcess_below (Nat.le_max_left fuel fuel') line c _ h₁
  have hmax₂ := smartidCmdProcess_below (Nat.le_max_right fuel fuel') line c _ h₂
  cases hmax₁.symm.trans hmax₂
  rfl

/-! ### Sessions that come to their end

Only XFER may fail to return, so that the condition is one on the XFERs.
-/

/-- Each XFER of the session comes to its end when its turn comes. -/
def XfersEnd (W : Irda S) : Conn S → List CommandLine → Prop
  | _, [] => True
  | c, line :: lines => LineEnds W line.1 c ∧ ∀ fuel c',
      (smartidCmdProcess W fuel line.1).run c = .ok ((), c') → XfersEnd W c' lines

/-- **A session ends exactly if its XFERs do.** -/
theorem session_ends_iff (hc : WellFormed c) (lines : List CommandLine) :
    (∃ fuel c', (session W fuel lines).run c = .ok ((), c')) ↔ XfersEnd W c lines := by
  induction lines generalizing c with
  | nil => exact iff_of_true ⟨0, c, rfl⟩ trivial
  | cons line lines ih =>
    rw [XfersEnd, ← process_ends_iff line hc]
    constructor
    · rintro ⟨fuel, c', hrun⟩
      obtain ⟨⟨⟩, c₁, hline, hrest⟩ := run_bind_eq_ok.mp hrun
      refine ⟨⟨fuel, (), c₁, hline⟩, fun fuel' c₂ hline' => ?_⟩
      obtain rfl := process_unique hline hline'
      exact (ih ((smartidCmdProcess_wellFormed hc fuel line).result hline)).mp ⟨fuel, c', hrest⟩
    · rintro ⟨⟨fuel, ⟨⟩, c₁, hline⟩, hrest⟩
      have hc₁ : WellFormed c₁ := (smartidCmdProcess_wellFormed hc fuel line).result hline
      obtain ⟨fuel', c', hrun⟩ := (ih hc₁).mpr (hrest fuel c₁ hline)
      -- as many passes as the command and the rest need
      refine ⟨max fuel fuel', c', run_bind_eq_ok.mpr ⟨(), c₁, ?_, ?_⟩⟩
      · exact smartidCmdProcess_below (Nat.le_max_left fuel fuel') line.1 c _ hline
      · exact session_below (Nat.le_max_right fuel fuel') lines c₁ _ hrun

/-! ### The lives of the handles

The trace of a session holds the handles that are got, used and disposed.
-/

/-- A session and `smartid_conn_dispose` behind it come to their end, and then each handle that was
allocated has been disposed exactly once, and none has been used after that; behind each command
`conn->dev` is null or a handle that has not been disposed. -/
def DisposesHandles (W : Irda S) (lines : List CommandLine) (w : S) : Prop :=
  ∃ fuel c c', (session W fuel lines).run (Conn.fresh w) = .ok ((), c) ∧
    smartidConnDispose.run c = .ok ((), c') ∧
    (∀ h, .alloc h ∈ c'.events → c'.events.count (.dispose h) = 1) ∧
    (∀ pre h post, c'.events = pre ++ .use h :: post → .dispose h ∉ pre) ∧
    ∀ front, front <+: lines → ∀ c₁, (session W fuel front).run (Conn.fresh w) = .ok ((), c₁) →
      ∀ h, c₁.dev = some h → Live c₁.events h

/-- The device that is open is live. -/
theorem session_dev_live {fuel : Nat} {lines : List CommandLine} {w : S}
    (hrun : (session W fuel lines).run (Conn.fresh w) = .ok ((), c)) (h : Nat)
    (hdev : c.dev = some h) : Live c.events h :=
  (((session_wellFormed (wellFormed_fresh w) fuel lines).result hrun).live h).mpr hdev

/-- A session that ends has disposed of its handles. -/
theorem disposesHandles_of_ends {fuel : Nat} {lines : List CommandLine} {w : S}
    (hrun : (session W fuel lines).run (Conn.fresh w) = .ok ((), c)) :
    DisposesHandles W lines w := by
  have hc : WellFormed c := (session_wellFormed (wellFormed_fresh w) fuel lines).result hrun
  obtain ⟨_, c', hdispose, hc'⟩ := (smartidConnDispose_spec (E := never) hc).exists_run
  refine ⟨fuel, c, c', hrun, hdispose, fun h halloc => ?_, fun pre h post hsplit => ?_,
    fun front _ c₁ hrun₁ => session_dev_live hrun₁⟩
  · refine hc'.sound.count_dispose halloc fun hlive => ?_
    cases (hc'.live h).mp hlive
  · exact (hc'.sound.live_of_use hsplit).2

/-- **The lives of the handles**: no operation of a session follows a handle that is not live, and
`conn->dev` is null or a live handle behind each command.  Every handle is disposed exactly once by
the end if and only if each XFER of the session comes to its end. -/
theorem session_handles_iff (W : Irda S) (lines : List CommandLine) (w : S) :
    (∀ fuel, (session W fuel lines).run (Conn.fresh w) ≠ .error .dangling) ∧
    (∀ fuel c, (session W fuel lines).run (Conn.fresh w) = .ok ((), c) →
      ∀ h, c.dev = some h → Live c.events h) ∧
    (DisposesHandles W lines w ↔ XfersEnd W (Conn.fresh w) lines) := by
  refine ⟨fun fuel hrun => ?_, fun fuel c hrun => session_dev_live hrun, ?_⟩
  · exact (session_wellFormed (wellFormed_fresh w) fuel lines).halt hrun rfl
  · rw [← session_ends_iff (wellFormed_fresh w)]
    constructor
    · rintro ⟨fuel, c, -, hrun, -⟩
      exact ⟨fuel, c, hrun⟩
    · rintro ⟨fuel, c, hrun⟩
      exact disposesHandles_of_ends hrun

/-! ### An OPEN and an XFER

Two runs of the same lines, with a device that sends its byte and with
one whose block fails.
-/

/-- Sockets behind which a device answers every command; `read` says how it answers. -/
def answeringIrda (read : Nat → IoResult (List UInt8)) : Irda Unit where
  discover w := (some [⟨1, "Aladin".toList⟩], w)
  connectLsap w _ _ := (.done (), w)
  write w bytes := (.done bytes.length, w)
  read w n := (read n, w)
  time w := (0, w)
  junk _ _ := 0
  foreignFree := false

/-- OPEN. -/
def lineOpen : CommandLine := ⟨"OPEN 1".toList, by simp⟩

/-- XFER. -/
def lineXfer : CommandLine := ⟨"XFER".toList, by simp⟩

/-- The connection behind the OPEN. -/
def openedConn (read : Nat → IoResult (List UInt8)) : Conn Unit :=
  match (smartidCmdProcess (answeringIrda read) 0 lineOpen.1).run (Conn.fresh ()) with
  | .ok (_, c) => c
  | .error _ => Conn.fresh ()

/-- The OPEN leaves a device whose blocks are read in chunks of `n` bytes. -/
def Opens (read : Nat → IoResult (List UInt8)) (n : Nat) : Prop :=
  ((smartidCmdProcess (answeringIrda read) 0 lineOpen.1).run (Conn.fresh ())).isOk ∧
    (openedConn read).dev = some 0 ∧ ((openedConn read).heap 0).map SmartDevice.csize = some n

instance (read : Nat → IoResult (List UInt8)) (n : Nat) : Decidable (Opens read n) :=
  inferInstanceAs (Decidable (_ ∧ _))

/-- The condition for the two lines. -/
theorem xfersEnd_iff {read : Nat → IoResult (List UInt8)} {n : Nat} (hopens : Opens read n) :
    XfersEnd (answeringIrda read) (Conn.fresh ()) [lineOpen, lineXfer] ↔
      ∀ bytes, read 4 = .done bytes → 4 < uint32Le (received bytes [0, 0, 0, 0]) 0 →
        BlockEnds (answeringIrda read) n (uint32Le (received bytes [0, 0, 0, 0]) 0 - 4) ()
          (uint32Le (received bytes [0, 0, 0, 0]) 0 - 4) := by
  obtain ⟨hok, hdev, hcsize⟩ := hopens
  have hrun : (smartidCmdProcess (answeringIrda read) 0 lineOpen.1).run (Conn.fresh ()) =
      .ok ((), openedConn read) := by
    rw [openedConn]
    cases hrun : (smartidCmdProcess (answeringIrda read) 0 lineOpen.1).run (Conn.fresh ()) with
    | error e =>
      rw [hrun] at hok
      cases hok
    | ok r => rfl
  obtain ⟨d, hd, rfl⟩ := Option.map_eq_some_iff.mp hcsize
  have hxfer : dispatch lineXfer.1 = some cmdXfer ∧ commandParams lineXfer.1 = none := by decide
  have hopen : dispatch lineOpen.1 ≠ some cmdXfer := by decide
  constructor
  · rintro ⟨-, hrest⟩ bytes hread
    exact (hrest 0 _ hrun).1 hxfer.1 hxfer.2 0 d 9 () bytes () hdev hd rfl
      (congrArg (fun r => (r, ())) hread)
  · intro hblock
    refine ⟨fun h => absurd h hopen, fun fuel c hline => ?_⟩
    obtain rfl := process_unique hrun hline
    refine ⟨fun _ _ h d' m w₁ bytes w₂ hdev' hd' _ hread => ?_, fun _ _ _ => trivial⟩
    obtain rfl := Option.some.inj (hdev.symm.trans hdev')
    obtain rfl := Option.some.inj (hd.symm.trans hd')
    exact hblock bytes (congrArg Prod.fst hread)

/-- The block has one byte. -/
def byteAnswer (n : Nat) : IoResult (List UInt8) :=
  .done (if n = 4 then [5, 0, 0, 0] else List.replicate n 1)

theorem session_handles_iff_byte :
    DisposesHandles (answeringIrda byteAnswer) [lineOpen, lineXfer] () := by
  apply (session_handles_iff (answeringIrda byteAnswer) [lineOpen, lineXfer] ()).2.2.mpr
  have hopens : Opens byteAnswer 8 := by decide +kernel
  apply (xfersEnd_iff hopens).mpr
  rintro _ ⟨⟩ -
  exact .chunk (by decide) rfl (.full (by decide))

/-- The block does not come, and `free` gets the address of a variable. -/
def lostAnswer (n : Nat) : IoResult (List UInt8) :=
  if n ≤ 4 then .done (List.replicate n 1) else .failed

theorem not_disposesHandles_lost :
    ¬DisposesHandles (answeringIrda lostAnswer) [lineOpen, lineXfer] () := by
  rintro ⟨fuel, c, -, hrun, -⟩
  have hopens : Opens lostAnswer 8 := by decide +kernel
  have hends := (session_ends_iff (wellFormed_fresh ()) _).mp ⟨fuel, c, hrun⟩
  have hblock := (xfersEnd_iff hopens).mp hends [1, 1, 1, 1] rfl (by decide)
  cases hblock with
  | chunk _ hread _ => cases hread
  | cut _ _ _ hfree => cases hfree

end BenthosDc
