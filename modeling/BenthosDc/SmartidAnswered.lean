/-
BenthosDc/SmartidAnswered.lean

Which command lines are answered.

An unknown command is not: after the loop over the command table `cmd` points to
the last entry, so the test for a null pointer fails.  Neither is XFER when its
block does not come to an end, or when `free` gets the address of a variable.

The condition is computed from the line, the state of the connection and the device: a block is
followed chunk by chunk, without running the command.
-/
import BenthosDc.SmartidReplies

namespace BenthosDc

open CString Hoare Lifetime Loop SmartiCmd

variable {S : Type} {W : Irda S} {c : Conn S}

/-! ### Dispatch

A line is ready, a command or unknown, by its first word.
-/

/-- The name is a prefix of a command name, without regard to case. -/
def IsCommand (name : Text) : Prop := ∃ cmd : SmartiCmd, name.map Char.toLower <+: cmd.name

/-- Every command stands in the table. -/
theorem mem_smartiCmdTable (cmd : SmartiCmd) : cmd ∈ smartiCmdTable := by
  cases cmd <;> decide

/-- An entry is the command if the name is a prefix of the name of the entry. -/
theorem strncaseEq_name (name : Text) (cmd : SmartiCmd) :
    strncaseEq (name.map Char.toLower).length (name.map Char.toLower) cmd.name ↔
      name.map Char.toLower <+: cmd.name := by
  have hlower : cmd.name.map Char.toLower = cmd.name := by
    cases cmd <;> decide
  have hidem : (name.map Char.toLower).map Char.toLower = name.map Char.toLower := by
    rw [List.map_map]
    exact List.map_congr_left fun c _ => toLower_toLower c
  rw [strncaseEq_length_iff, hlower, hidem]

/-- Only a command word is found. -/
theorem lookupCommand_eq_none_iff (name : Text) :
    lookupCommand (name.map Char.toLower) = none ↔ ¬IsCommand name := by
  rw [lookupCommand, List.find?_eq_none]
  constructor
  · rintro h ⟨cmd, hcmd⟩
    exact h cmd (mem_smartiCmdTable cmd) ((strncaseEq_name name cmd).mpr hcmd)
  · intro h cmd _ hcmd
    exact h ⟨cmd, (strncaseEq_name name cmd).mp hcmd⟩

/-- A line without a word is answered with the greeting. -/
theorem process_ready {line : Text} (h : commandName line = []) (fuel : Nat) :
    smartidCmdProcess W fuel line = smartidConnSendReady := by
  rw [smartidCmdProcess, h]
  rfl

/-- A line with a command word calls its function. -/
theorem process_func {line : Text} {cmd : SmartiCmd} (h : commandName line ≠ [])
    (hcmd : lookupCommand ((commandName line).map Char.toLower) = some cmd) (fuel : Nat) :
    smartidCmdProcess W fuel line = cmd.func W fuel (commandParams line) := by
  rw [smartidCmdProcess, if_neg (by rwa [List.length_eq_zero_iff]), hcmd]

/-- **An unknown command is passed over in silence.** -/
theorem process_unknown {line : Text} (h : commandName line ≠ [])
    (hcmd : lookupCommand ((commandName line).map Char.toLower) = none) (fuel : Nat) :
    smartidCmdProcess W fuel line = pure () := by
  rw [smartidCmdProcess, if_neg (by rwa [List.length_eq_zero_iff]), hcmd]
  rfl

/-- What stands in the parameters stands in the line. -/
theorem mem_commandParams {line params : Text} (h : commandParams line = some params) {c : Char}
    (hc : c ∈ params) : c ∈ line := by
  rw [commandParams] at h
  split at h
  · cases h
  · cases h
    have hskip : c ∈ skipBlanks line := List.mem_of_mem_drop hc
    exact mem_cstr ((List.dropWhile_suffix _).subset hskip)

/-- A parameter lies within the line. -/
theorem newline_not_mem_commandParams (line : CommandLine) :
    ∀ p, commandParams line.1 = some p → '\n' ∉ p := fun _ hp hmem =>
  (line.2 _ (mem_commandParams hp hmem)).1 rfl

/-! ### A command word and a parameter behind it

What the daemon makes of a line that a client has put together.
-/

section Word

variable {name params : Text} (hword : name.all fun c => !isBlank c && c != '\x00') (hne : name ≠ [])

include hword hne

/-- The line has no blanks in front. -/
theorem skipBlanks_word : skipBlanks (name ++ ' ' :: params) = name ++ ' ' :: cstr params := by
  have hname : ∀ c ∈ name, isBlank c = false ∧ c ≠ '\x00' := by
    intro c hc
    simpa using List.all_eq_true.mp hword c hc
  have hzero : '\x00' ∉ name := fun h => (hname _ h).2 rfl
  obtain ⟨c, cs, rfl⟩ := List.exists_cons_of_ne_nil hne
  rw [skipBlanks, cstr_append hzero, List.cons_append, List.dropWhile_cons,
    (hname c List.mem_cons_self).1]
  rfl

/-- The word is the name. -/
theorem commandName_word : commandName (name ++ ' ' :: params) = name := by
  have hall : ∀ c ∈ name, (!isBlank c) = true := by
    intro c hc
    have hc' := List.all_eq_true.mp hword c hc
    simp only [Bool.and_eq_true] at hc'
    exact hc'.1
  rw [commandName, skipBlanks_word hword hne, List.takeWhile_append_of_pos hall]
  exact List.append_nil name

/-- What stands behind it is the parameter, up to its first zero. -/
theorem commandParams_word : commandParams (name ++ ' ' :: params) = some (cstr params) := by
  rw [commandParams, commandName_word hword hne, skipBlanks_word hword hne, if_neg]
  · rw [List.drop_append, List.drop_of_length_le (Nat.le_succ _), Nat.add_sub_cancel_left]
    rfl
  · rw [List.length_append, List.length_cons]
    omega

end Word

/-! ### The end of a block

A block comes to its end if the device gives bytes, or an error, as long as bytes are missing.
-/

/-- The IrDA socket comes to the end of the `len` bytes that are left of a block of
`size` bytes: the last byte arrives, and the block is not too long to be encoded;
or a read fails or times out, and `free` puts up with a pointer to a variable. -/
inductive BlockEnds (W : Irda S) (csize size : Nat) : S → Nat → Prop
  | full {w : S} : size ≤ maxEncodable → BlockEnds W csize size w 0
  | chunk {w w' : S} {len : Nat} {bytes : List UInt8} : len ≠ 0 →
      W.read w (chunkLength csize len) = (.done bytes, w') →
      BlockEnds W csize size w' (len - (bytes.take (chunkLength csize len)).length) →
      BlockEnds W csize size w len
  | cut {w w' : S} {len : Nat} {r : IoResult (List UInt8)} : len ≠ 0 →
      W.read w (chunkLength csize len) = (r, w') → (∀ bytes, r ≠ .done bytes) → W.foreignFree →
      BlockEnds W csize size w len

/-- What is required of the outcome of the loop that reads a block. -/
def BlockOutcome (W : Irda S) (size : Nat) : IoResult (List UInt8) → Prop
  | .done _ => size ≤ maxEncodable
  | .failed => W.foreignFree
  | .timedOut => W.foreignFree

/-- It does so exactly if the loop over the chunks ends. -/
theorem blockEnds_iff {csize size len : Nat} {w : S} (buf : List UInt8) :
    BlockEnds W csize size w len ↔
      ∃ r w', Returns (readChunk W csize) (w, buf, len) (r, w') ∧ BlockOutcome W size r := by
  constructor
  · intro h
    induction h generalizing buf with
    | full hsize => exact ⟨.done buf, _, Returns.of_stop rfl, hsize⟩
    | chunk hlen hread _ ih =>
      obtain ⟨r, w', hret, hout⟩ := ih _
      refine ⟨r, w', Returns.head ?_ hret, hout⟩
      rw [readChunk, if_neg hlen, hread]
    | @cut w w' len r hlen hread hr hfree =>
      refine ⟨r, w', Returns.of_stop ?_, ?_⟩
      · rw [readChunk, if_neg hlen, hread]
        cases r with
        | failed => rfl
        | timedOut => rfl
        | done bytes => exact absurd rfl (hr bytes)
      · cases r with
        | failed => exact hfree
        | timedOut => exact hfree
        | done bytes => exact absurd rfl (hr bytes)
  · rintro ⟨r, w', ⟨⟨w₁, buf₁, len₁⟩, hreach, hstop⟩, hout⟩
    -- the way to the last state, from its end
    have hlast : BlockEnds W csize size w₁ len₁ := by
      rw [readChunk] at hstop
      split at hstop
      · next hlen =>
        cases hstop
        exact hlen ▸ .full hout
      next hlen =>
      split at hstop
      · next hread =>
        cases hstop
        exact .cut hlen hread (by rintro _ ⟨⟩) hout
      · next hread =>
        cases hstop
        exact .cut hlen hread (by rintro _ ⟨⟩) hout
      · cases hstop
    have hback : ∀ s, Reaches (readChunk W csize) s (w₁, buf₁, len₁) →
        BlockEnds W csize size s.1 s.2.2 := by
      intro s hs
      induction hs using Relation.ReflTransGen.head_induction_on with
      | refl => exact hlast
      | head hnext _ ih =>
        obtain ⟨hlen, bytes, hread, -, hlen'⟩ := readChunk_next hnext
        rw [hlen'] at ih
        exact .chunk hlen hread ih
    exact hback _ hreach

/-! ### Transfers

XFER is answered if the block ends, or is refused before its first byte.
-/

/-- An XFER on an open device comes to its end: if the device answers with the
length of a block, the socket comes to the end of the block. -/
def XferEnds (W : Irda S) (c : Conn S) : Prop :=
  ∀ h d n w₁ bytes w₂, c.dev = some h → c.heap h = some d →
    W.write c.world (tokenCmd 0xc4 d.token) = (.done n, w₁) →
    W.read w₁ 4 = (.done bytes, w₂) →
    let nb := uint32Le (received bytes ((List.range 4).map (W.junk c.world))) 0
    4 < nb → BlockEnds W d.csize (nb - 4) w₂ (nb - 4)

/-- The part behind the length. -/
theorem receiveBlock_ends_iff (csize nb : Nat) (c : Conn S) :
    (∃ fuel r c', (receiveBlock W fuel csize nb).run c = .ok (r, c') ∧ Sendable r) ↔
      (4 < nb → BlockEnds W csize (nb - 4) c.world (nb - 4)) := by
  by_cases hfour : nb = 4
  · refine iff_of_true ⟨0, .error smartiStatusNoData, c, ?_, by rintro data ⟨⟩⟩ ?_
    · rw [receiveBlock, if_pos hfour]
      rfl
    · intro hlt
      exact absurd hfour (Nat.ne_of_gt hlt)
  by_cases hlow : nb < 4
  · refine iff_of_true ⟨0, .error smartiErrorDevice, c, ?_, by rintro data ⟨⟩⟩ ?_
    · rw [receiveBlock, if_neg hfour, if_pos hlow]
      rfl
    · intro hlt
      exact absurd hlt (Nat.lt_asymm hlow)
  have hlt : 4 < nb := by omega
  rw [imp_iff_right hlt, blockEnds_iff []]
  -- a block is read, and given back if it is not complete
  have hblock : ∀ fuel, receiveBlock W fuel csize nb = _ := fun fuel => by
    rw [receiveBlock, if_neg hfour, if_neg hlow]
  constructor
  · rintro ⟨fuel, r, c', hrun, hsend⟩
    rw [hblock] at hrun
    obtain ⟨r₁, c₁, hread, hrest⟩ := run_bind_eq_ok.mp hrun
    obtain ⟨w, hret, rfl⟩ := readBlock_run_iff.mp ⟨fuel, hread⟩
    refine ⟨r₁, w, hret, ?_⟩
    cases r₁ with
    | failed =>
      obtain ⟨_, _, hfree, -⟩ := run_bind_eq_ok.mp hrest
      exact (freeForeign_run_iff.mp hfree).1
    | timedOut =>
      obtain ⟨_, _, hfree, -⟩ := run_bind_eq_ok.mp hrest
      exact (freeForeign_run_iff.mp hfree).1
    | done data =>
      cases hrest
      have hlen : data.length = 0 + (nb - 4) := length_of_readChunk_returns hret
      show nb - 4 ≤ maxEncodable
      rw [← Nat.zero_add (nb - 4), ← hlen]
      exact hsend data rfl
  · rintro ⟨r, w, hret, hout⟩
    obtain ⟨fuel, hread⟩ := readBlock_run_iff.mpr ⟨w, hret, rfl⟩
    cases r with
    | failed =>
      refine ⟨fuel, .error smartiErrorIo, { c with world := w }, ?_, by rintro data ⟨⟩⟩
      rw [hblock]
      refine run_bind_eq_ok.mpr ⟨_, _, hread, run_bind_eq_ok.mpr ⟨(), _, ?_, rfl⟩⟩
      exact freeForeign_run_iff.mpr ⟨hout, rfl⟩
    | timedOut =>
      refine ⟨fuel, .error smartiErrorTimeout, { c with world := w }, ?_, by rintro data ⟨⟩⟩
      rw [hblock]
      refine run_bind_eq_ok.mpr ⟨_, _, hread, run_bind_eq_ok.mpr ⟨(), _, ?_, rfl⟩⟩
      exact freeForeign_run_iff.mpr ⟨hout, rfl⟩
    | done data =>
      have hlen : data.length = 0 + (nb - 4) := length_of_readChunk_returns hret
      refine ⟨fuel, .ok data, { c with world := w }, ?_, ?_⟩
      · rw [hblock]
        exact run_bind_eq_ok.mpr ⟨_, _, hread, rfl⟩
      · rintro data' hdata
        cases hdata
        rw [hlen, Nat.zero_add]
        exact hout

theorem xferData_ends_iff {h : Nat} (hc : Owns c (some h)) (hdev : c.dev = some h) :
    (∃ fuel r c', (smartidDevXferData W fuel (some h)).run c = .ok (r, c') ∧ Sendable r) ↔
      XferEnds W c := by
  obtain ⟨d, hd⟩ := hc.exists_device
  let c₁ : Conn S := { c with events := c.events ++ [.use h] }
  let ans := (List.range 4).map (W.junk c.world)
  have hlen : ans.length = 4 := by simp [ans]
  rcases smartDriverCmd_cases (W := W) (tokenCmd 0xc4 d.token) ans c₁ with
    ⟨n, w₁, bytes, w₂, hwrite, hread⟩ | ⟨hnone, rv, c₂, hrun⟩
  · have hrest := fun fuel => smartidDevXferData_run hd fuel (smartReadUlong_run hwrite hread)
    simp only [hrest]
    refine (receiveBlock_ends_iff d.csize _ _).trans ⟨?_, ?_⟩
    · intro hblock h' d' n' w₁' bytes' w₂' hdev' hd' hwrite' hread'
      obtain rfl := Option.some.inj (hdev'.symm.trans hdev)
      obtain rfl := Option.some.inj (hd'.symm.trans hd)
      cases hwrite.symm.trans hwrite'
      rw [← hlen] at hread'
      cases hread.symm.trans hread'
      exact hblock
    · intro hends
      rw [hlen] at hread
      exact hends h d n w₁ bytes w₂ hdev hd hwrite hread
  · -- there is no answer, and the transfer ends with the error
    refine iff_of_true ⟨0, .error rv, c₂, ?_, by rintro data ⟨⟩⟩ ?_
    · exact smartidDevXferData_run_error hd 0 (run_bind_eq_ok.mpr ⟨_, _, hrun, rfl⟩)
    · intro h' d' n w₁ bytes w₂ hdev' hd' hwrite hread
      obtain rfl := Option.some.inj (hdev'.symm.trans hdev)
      obtain rfl := Option.some.inj (hd'.symm.trans hd)
      rw [← hlen] at hread
      exact absurd hread (hnone n w₁ bytes w₂ hwrite)

/-- What cannot be sent halts the daemon. -/
theorem sendable_of_run {r : Except Int (List UInt8)} {c c' : Conn S} {u : Unit}
    (h : (sendTransfer r).run c = .ok (u, c')) : Sendable r := by
  rintro data rfl
  by_contra hlong
  have hne : data ≠ [] := by
    rintro rfl
    exact hlong (Nat.zero_le _)
  have henc := base64EncodeRun_overflow (Nat.not_le.mp hlong)
  rw [sendTransfer, smartidConnSendBuffer, if_neg hne, henc] at h
  cases h

/-- The command, with its checks. -/
theorem smartidCmdXfer_ends_iff (hc : WellFormed c) (params : Option Text) :
    (∃ fuel u c', (smartidCmdXfer W fuel params).run c = .ok (u, c')) ↔
      (params = none → XferEnds W c) := by
  cases params with
  | some params =>
    obtain ⟨u, c', hrun, -⟩ := (syntaxError_sends (E := never) cmdXfer c hc).exists_run
    exact iff_of_true ⟨0, u, c', hrun⟩ (by rintro ⟨⟩)
  | none =>
    rw [imp_iff_right rfl]
    cases hdev : c.dev with
    | none =>
      rw [WellFormed, hdev] at hc
      have hsay := checkDevice_replies (o := none) (E := never)
        (k := fun dev => do sendTransfer (← smartidDevXferData W 0 dev))
        (fun _ h => h) (by rintro _ ⟨⟩) c hc hdev
      obtain ⟨u, c', hrun, -⟩ := hsay.exists_run
      apply iff_of_true ⟨0, u, c', hrun⟩
      intro h d n w₁ bytes w₂ hdev'
      rw [hdev] at hdev'
      cases hdev'
    | some h =>
      rw [WellFormed, hdev] at hc
      -- the device is there, so that the command goes on with the data
      have hstart : ∀ fuel, (smartidCmdXfer W fuel none).run c =
          (smartidDevXferData W fuel (some h) >>= sendTransfer).run c := by
        intro fuel
        have hrun : smartidConnDevice.run c = .ok (some h, c) := by
          rw [← hdev]
          rfl
        exact run_bind_of_ok hrun
      rw [← xferData_ends_iff hc hdev]
      constructor
      · rintro ⟨fuel, u, c', hrun⟩
        rw [hstart] at hrun
        obtain ⟨r, c₁, hdata, hsend⟩ := run_bind_eq_ok.mp hrun
        exact ⟨fuel, r, c₁, hdata, sendable_of_run hsend⟩
      · rintro ⟨fuel, r, c₁, hdata, hsend⟩
        obtain ⟨⟨hc₁, hq₁⟩, hne⟩ :=
          (smartidDevXferData_spec (E := fun _ => True) hc trivial trivial fuel).result hdata
        obtain ⟨u, c', hrun, -⟩ := (sendTransfer_replies (E := never) hne
          (fun h => absurd hsend h) c₁ hc₁ (hq₁.dev.trans hdev)).exists_run
        refine ⟨fuel, u, c', ?_⟩
        rw [hstart]
        exact run_bind_eq_ok.mpr ⟨r, c₁, hdata, hrun⟩

/-- The greeting is one line. -/
theorem sendReady_sends {o : Option Nat} {E : Halt → Prop} :
    Sends (S := S) o E StatusReply smartidConnSendReady :=
  sendResponsef_sends (by decide) (by decide)

/-! ### Lines

Which lines come to their end: all but those of XFER with a block that does not.
-/

/-- The command that a line runs. -/
def dispatch (line : Text) : Option SmartiCmd :=
  if commandName line = [] then none
  else lookupCommand ((commandName line).map Char.toLower)

/-- If the line runs XFER on an open device, the transfer comes to its end. -/
def LineEnds (W : Irda S) (line : Text) (c : Conn S) : Prop :=
  dispatch line = some cmdXfer → commandParams line = none → XferEnds W c

/-- **Only XFER can fail to end.** -/
theorem process_ends_iff (line : CommandLine) (hc : WellFormed c) :
    (∃ fuel u c', (smartidCmdProcess W fuel line.1).run c = .ok (u, c')) ↔
      LineEnds W line.1 c := by
  have hparams := newline_not_mem_commandParams line
  obtain ⟨line, hline⟩ := line
  by_cases hname : commandName line = []
  · obtain ⟨u, c', hrun, -⟩ := (sendReady_sends (E := never) c hc).exists_run
    refine iff_of_true ⟨0, u, c', ?_⟩ fun h => ?_
    · rw [process_ready hname]
      exact hrun
    · rw [dispatch, if_pos hname] at h
      cases h
  cases hcmd : lookupCommand ((commandName line).map Char.toLower) with
  | none =>
    refine iff_of_true ⟨0, (), c, ?_⟩ fun h => ?_
    · rw [process_unknown hname hcmd]
      rfl
    · rw [dispatch, if_neg hname, hcmd] at h
      cases h
  | some cmd =>
    rw [LineEnds, dispatch, if_neg hname, hcmd, Option.some_inj]
    simp only [process_func hname hcmd]
    by_cases hxfer : cmd = cmdXfer
    · subst hxfer
      rw [imp_iff_right rfl]
      exact smartidCmdXfer_ends_iff hc _
    · obtain ⟨u, c', hrun, -⟩ := (func_replies (E := never) hparams cmd
        (fun h => absurd h hxfer) 0 c hc rfl).exists_run
      exact iff_of_true ⟨0, u, c', hrun⟩ fun h => absurd h hxfer

/-! ### Answers

An answer is a line with a code at the beginning of the reply.
-/

/-- A reply as the client expects it: at least one response line; outside of ENUM
and HELP one status line, with a line of base64 text for the code 301; an error for
a command that does not exist. -/
structure IsAnswer (line reply : Text) : Prop where
  nonempty : ∃ code msg rest, '\n' ∉ msg ∧ reply = responseLine code msg ++ rest
  single : dispatch line ≠ some cmdEnum → dispatch line ≠ some cmdHelp → OneReply reply
  unknown : commandName line ≠ [] → ¬IsCommand (commandName line) →
    ∃ msg, '\n' ∉ msg ∧ reply = responseLine smartiErrorUnknownCommand msg

/-- The line is processed, and an answer has been sent. -/
def Answered (W : Irda S) (line : Text) (c : Conn S) : Prop :=
  ∃ fuel u c' reply, (smartidCmdProcess W fuel line).run c = .ok (u, c') ∧
    c'.out = c.out ++ reply ∧ IsAnswer line reply

/-- The line has no word in it, or its first word is the prefix of a command; and
if it runs XFER on an open device, the transfer comes to its end. -/
def Served (W : Irda S) (line : Text) (c : Conn S) : Prop :=
  commandName line = [] ∨
    (IsCommand (commandName line) ∧
      (dispatch line = some cmdXfer → commandParams line = none → XferEnds W c))

/-- A response begins with a line, whatever the message. -/
theorem responseLine_begins (code : Int) (msg rest : Text) :
    ∃ code' msg' rest', '\n' ∉ msg' ∧
      responseLine code msg ++ rest = responseLine code' msg' ++ rest' := by
  by_cases hmem : '\n' ∈ msg
  · obtain ⟨pre, post, rfl, hpre⟩ := List.eq_append_cons_of_mem hmem
    refine ⟨code, pre, post ++ '\n' :: rest, hpre, ?_⟩
    simp [responseLine]
  · exact ⟨code, msg, rest, hmem, rfl⟩

/-- One line is an answer. -/
theorem OneReply.begins {reply : Text} (h : OneReply reply) :
    ∃ code msg rest, '\n' ∉ msg ∧ reply = responseLine code msg ++ rest := by
  cases h with
  | @status code msg _ hmsg => exact ⟨code, msg, [], hmsg, (List.append_nil _).symm⟩
  | data _ _ => exact responseLine_begins _ _ _

/-- The reply to a command begins with an answer. -/
theorem ReplyTo.begins {cmd : SmartiCmd} {reply : Text} (h : ReplyTo cmd reply) :
    ∃ code msg rest, '\n' ∉ msg ∧ reply = responseLine code msg ++ rest := by
  rcases h with h | ⟨-, h⟩ | ⟨-, ds, hne, rfl⟩ | ⟨-, rfl⟩
  · exact h.one.begins
  · exact h.begins
  · obtain ⟨d, ds, rfl⟩ := List.exists_cons_of_ne_nil hne
    exact responseLine_begins _ _ _
  · exact responseLine_begins _ _ _

/-- **A command that ends is answered.** -/
theorem isAnswer_of_func {line reply : Text} {cmd : SmartiCmd} (hname : commandName line ≠ [])
    (hcmd : lookupCommand ((commandName line).map Char.toLower) = some cmd)
    (hreply : ReplyTo cmd reply) : IsAnswer line reply := by
  have hdispatch : dispatch line = some cmd := by rw [dispatch, if_neg hname, hcmd]
  refine ⟨hreply.begins, ?_, ?_⟩
  · intro henum hhelp
    rw [hdispatch] at henum hhelp
    rcases hreply with h | ⟨-, h⟩ | ⟨rfl, -⟩ | ⟨rfl, -⟩
    · exact h.one
    · exact h
    · exact absurd rfl henum
    · exact absurd rfl hhelp
  · intro _ hunknown
    rw [← lookupCommand_eq_none_iff, hcmd] at hunknown
    cases hunknown

/-- The greeting is an answer. -/
theorem isAnswer_of_ready {line reply : Text} (hname : commandName line = [])
    (hreply : OneReply reply) : IsAnswer line reply :=
  ⟨hreply.begins, fun _ _ => hreply, fun h => absurd hname h⟩

/-- An unknown command sends nothing. -/
theorem not_answered_of_unknown {line : Text} (hname : commandName line ≠ [])
    (hcmd : lookupCommand ((commandName line).map Char.toLower) = none) : ¬Answered W line c := by
  rintro ⟨fuel, u, c', reply, hrun, hout, hanswer⟩
  rw [process_unknown hname hcmd] at hrun
  cases hrun
  obtain ⟨code, msg, rest, -, rfl⟩ := hanswer.nonempty
  have hlen := congrArg List.length hout
  simp [responseLine] at hlen

/-- **The exact condition for an answer**: in every state of a connection, a line
is answered if and only if it is served. -/
theorem answered_iff_served (line : CommandLine) (hc : WellFormed c) :
    Answered W line.1 c ↔ Served W line.1 c := by
  obtain ⟨line, hline⟩ := line
  have hparams : ∀ p, commandParams line = some p → '\n' ∉ p := fun p hp hmem =>
    (hline _ (mem_commandParams hp hmem)).1 rfl
  by_cases hname : commandName line = []
  · refine iff_of_true ?_ (.inl hname)
    obtain ⟨u, c', hrun, -, -, reply, hout, hreply⟩ :=
      (sendReady_sends (E := never) c hc).exists_run
    refine ⟨0, u, c', reply, ?_, hout, isAnswer_of_ready hname hreply.one⟩
    rw [process_ready hname]
    exact hrun
  cases hcmd : lookupCommand ((commandName line).map Char.toLower) with
  | none =>
    apply iff_of_false (not_answered_of_unknown hname hcmd)
    rintro (h | ⟨h, -⟩)
    · exact hname h
    · exact (lookupCommand_eq_none_iff _).mp hcmd h
  | some cmd =>
    have hisCommand : IsCommand (commandName line) := by
      by_contra h
      rw [← lookupCommand_eq_none_iff, hcmd] at h
      cases h
    have hserved : Served W line c ↔ LineEnds W line c := by
      rw [Served, or_iff_right hname, and_iff_right hisCommand, LineEnds]
    rw [hserved, ← process_ends_iff ⟨line, hline⟩ hc]
    constructor
    · rintro ⟨fuel, u, c', reply, hrun, -⟩
      exact ⟨fuel, u, c', hrun⟩
    · rintro ⟨fuel, u, c', hrun⟩
      have hfunc : (cmd.func W fuel (commandParams line)).run c = .ok (u, c') := by
        rw [← process_func hname hcmd]
        exact hrun
      obtain ⟨-, reply, hout, hreply⟩ := (func_replies (E := fun _ => True) hparams cmd
        (fun _ => ⟨trivial, trivial, trivial⟩) fuel c hc rfl).result hfunc
      exact ⟨fuel, u, c', reply, hrun, hout, isAnswer_of_func hname hcmd hreply⟩

/-! ### An unknown command

A word that is no command, and a device that is never asked.
-/

/-- A socket on which everything fails. -/
def deadIrda : Irda Unit where
  discover w := (none, w)
  connectLsap w _ _ := (.failed, w)
  write w _ := (.failed, w)
  read w _ := (.failed, w)
  time w := (0, w)
  junk _ _ := 0
  foreignFree := false

/-- No command has this name. -/
def lineFoo : CommandLine := ⟨"foo".toList, by simp⟩

theorem answered_iff_served_foo :
    Answered deadIrda lineFoo.1 (Conn.fresh ()) ↔ Served deadIrda lineFoo.1 (Conn.fresh ()) :=
  answered_iff_served lineFoo (wellFormed_fresh ())

theorem not_answered_foo :
    WellFormed (Conn.fresh ()) ∧ ¬Answered deadIrda lineFoo.1 (Conn.fresh ()) :=
  ⟨wellFormed_fresh (), not_answered_of_unknown (by decide) (by decide)⟩

end BenthosDc
