/-
BenthosDc/SmartiCalls.lean

Runs of calls on one connection: which reply each call reads.

There is no mark at the end of a reply of several lines.  ENUM takes a moment at
which nothing can be read for the end of its reply, and it stops at a line that it
does not accept; what is left of the reply is then read by the next call.

So the result on runs has a condition on ENUM: its line is read to the end, and each poll that
finds nothing comes when nothing is in flight.
-/
import BenthosDc.SmartiExchange

namespace BenthosDc

open CString Delivery Hoare Lines SmartiCmd

variable {S α : Type} {W : Irda S} {fuel : Nat} {cmd : Text} {l l' : Link S}

/-! ### Replies of one line

All commands but ENUM and XFER are answered with one line, which the call reads whole.
-/

/-- A call that reads one line, and nothing else. -/
theorem oneLine_spec {k : Except Int (Text × Int × Text) → Client S α} (hk : ∀ r, Idle (k r))
    (hcmd : ∀ c ∈ cmd, isEol c = false) (hl : Synced l)
    (hone : ∀ reply, ReplyLine cmd reply → reply = [] ∨ StatusReply reply) :
    Triple (smarticRequest W fuel cmd >>= k) l
      (fun _ l' => l'.trouble = true ∨ Exchanged W fuel cmd l l' ∧ l'.channel.pending = [])
      never := by
  apply (smarticRequest_spec hcmd hl).bind
  intro r l₁ h
  obtain ⟨a, code, msg, hrun⟩ := hk r l₁
  apply Triple.of_run hrun
  rcases h with htrouble | ⟨hex, -, line, hline, hreply, -⟩
  · exact .inl htrouble
  right
  refine ⟨⟨hex.connected, hex.server, hex.produced, hex.taken⟩, ?_⟩
  rcases hone _ (connRead_line hl.server hcmd).2 with hnil | hstatus
  · rw [replyTo, hnil] at hreply
    exact absurd hreply.symm (List.append_ne_nil_of_right_ne_nil _ (List.cons_ne_nil _ _))
  · exact hstatus.rest hline hreply

/-- The commands whose reply is one line. -/
theorem replyLine_one {cmd' : SmartiCmd} (hdispatch : dispatch cmd = some cmd')
    (hxfer : cmd' ≠ cmdXfer) (henum : cmd' ≠ cmdEnum) (hhelp : cmd' ≠ cmdHelp) (reply : Text)
    (h : ReplyLine cmd reply) : reply = [] ∨ StatusReply reply := by
  rcases h with h | ⟨-, h⟩ | ⟨cmd'', hdispatch', h⟩
  · exact .inl h
  · exact .inr h
  obtain rfl : cmd' = cmd'' := Option.some.inj (hdispatch.symm.trans hdispatch')
  rcases h with h | ⟨h, -⟩ | ⟨h, -⟩ | ⟨h, -⟩
  · exact .inr h
  · exact absurd h hxfer
  · exact absurd h henum
  · exact absurd h hhelp

/-- A command word and a parameter behind it. -/
theorem dispatch_params {name params : Text} (hword : name.all fun c => !isBlank c && c != '\x00')
    (hne : name ≠ []) :
    dispatch (name ++ ' ' :: params) = lookupCommand (name.map Char.toLower) := by
  rw [dispatch, commandName_word hword hne, if_neg hne]

/-- A call that looks at the code of the reply only. -/
theorem statusRequest_spec (hcmd : ∀ c ∈ cmd, isEol c = false) (hl : Synced l)
    (hone : ∀ reply, ReplyLine cmd reply → reply = [] ∨ StatusReply reply) :
    Triple (statusRequest W fuel cmd) l
      (fun _ l' => l'.trouble = true ∨ Exchanged W fuel cmd l l' ∧ l'.channel.pending = [])
      never := by
  refine oneLine_spec ?_ hcmd hl hone
  rintro (rv | ⟨rLine, code, msg⟩)
  · exact Idle.pure _
  dsimp only
  split
  · exact Idle.setError _ _ _
  · exact Idle.pure _

/-- A call that reads a number from the reply. -/
theorem infoRequest_spec (hcmd : ∀ c ∈ cmd, isEol c = false) (width : Nat) (hl : Synced l)
    (hone : ∀ reply, ReplyLine cmd reply → reply = [] ∨ StatusReply reply) :
    Triple (infoRequest W fuel cmd width) l
      (fun _ l' => l'.trouble = true ∨ Exchanged W fuel cmd l l' ∧ l'.channel.pending = [])
      never := by
  refine oneLine_spec ?_ hcmd hl hone
  rintro (rv | ⟨rLine, code, msg⟩)
  · exact Idle.pure _
  dsimp only
  split
  · exact Idle.setError _ _ _
  split
  · exact Idle.setError _ _ _
  · exact Idle.pure _

/-! ### The loop over the lines of ENUM

The loop reads lines as long as there is something to read.  Whether it has read the whole
reply depends on the polls and on the lines that it accepts.
-/

/-- What the client has seen when it goes on behind a line of ENUM; `none` if it stops
there. -/
def accept (cb : List Found → Int) (seen : List Found) (code : Int) (msg : Text) :
    Option (List Found) :=
  if code ≠ smartiStatusInfo then none
  else
    match smarticParseEnuminfo msg with
    | none => none
    | some d => if cb (seen ++ [d]) ≠ 0 then none else some (seen ++ [d])

/-- What the loop does with a line: the devices seen, or the end of the loop. -/
def acceptLine (cb : List Found → Int) (seen : List Found) (line : Text) : Option (List Found) :=
  match parsed line with
  | none => none
  | some (_, code, msg) => accept cb seen code msg

/-- The client goes on behind every line but the last. -/
def Accepts (cb : List Found → Int) : List Found → List Text → Prop
  | _, [] => True
  | seen, line :: ls => ls = [] ∨ ∃ seen', acceptLine cb seen line = some seen' ∧ Accepts cb seen' ls

/-- A poll that finds nothing to read comes when nothing is in flight any more. -/
def Prompt (polls : List (Nat × Nat)) : Prop := ∀ p ∈ polls, p.1 = 0 → p.2 = 0

/-- A line that is read takes bytes from the link. -/
theorem readResponse_measure (timeout : Bool) (rLine : Text) (l : Link S) :
    Triple (readResponse timeout rLine) l (fun r l' => r = none ∨ l'.measure < l.measure) never := by
  apply (smarticSocketReadln_measure 1024 l).bind
  intro r l₁ h
  obtain ⟨a, code, msg, hrun⟩ := checkResponse_idle timeout rLine r l₁
  apply Triple.of_run hrun
  rcases h with h | h | h
  · left
    rw [checkResponse] at hrun
    split at hrun
    · cases hrun
      rfl
    · rw [h, Bool.or_true, if_pos rfl] at hrun
      cases hrun
      rfl
  · left
    rw [checkResponse, if_pos h] at hrun
    cases hrun
    rfl
  · exact .inr h

/-- The loop goes on if the poll finds something. -/
theorem enumNext_eq {seen : List Found} {rLine : Text}
    {k : Text → Int → Text → Client S (Int × List Found)} {r : Option Nat} (hr : r ≠ some 0) :
    enumNext seen rLine k r = readResponse false rLine >>= fun r =>
      match r with
      | none => pure (-1, seen)
      | some (rLine, code, msg) => k rLine code msg := by
  rcases r with _ | _ | n
  · rfl
  · exact absurd rfl hr
  · rfl

/-- The end of a pass, when there has been trouble. -/
theorem enumNext_trouble {k : Text → Int → Text → Client S (Int × List Found)} {n : Nat}
    (hk : ∀ l : Link S, l.trouble = true → l.measure < n → ∀ rLine code msg,
      Triple (k rLine code msg) l (fun _ l' => l'.trouble = true) never)
    (seen : List Found) (rLine : Text) (r : Option Nat) (hl : l.trouble = true)
    (hn : l.measure ≤ n) : Triple (enumNext seen rLine k r) l (fun _ l' => l'.trouble = true) never := by
  by_cases hr : r = some 0
  · subst hr
    exact hl
  rw [enumNext_eq hr]
  apply ((readResponse_steady false rLine l hl).and (readResponse_measure false rLine l)).bind
  rintro (_ | ⟨rLine, code, msg⟩) l₁ ⟨hl₁, hn₁⟩
  · exact hl₁
  · exact hk l₁ hl₁ ((hn₁.resolve_left fun h => (nomatch h)).trans_le hn) rLine code msg

/-- Behind trouble the loop comes to its end without reading more. -/
theorem enumLoop_trouble (cb : List Found → Int) (n : Nat) (l : Link S) (hl : l.trouble = true)
    (hn : l.measure < n) (seen : List Found) (rLine : Text) (code : Int) (msg : Text) :
    Triple (enumLoop cb n seen rLine code msg) l (fun _ l' => l'.trouble = true) never := by
  induction n generalizing l seen rLine code msg with
  | zero => exact absurd hn (Nat.not_lt_zero _)
  | succ n ih =>
    rw [enumLoop]
    split
    · exact (Idle.setError _ _ _).steady l hl
    split
    · exact (Idle.setError _ _ _).steady l hl
    split
    · exact (Idle.setError _ _ _).steady l hl
    apply ((smarticSocketAvailable_steady l hl).and (smarticSocketAvailable_measure l)).bind
    rintro r l₁ ⟨hl₁, hn₁⟩
    exact enumNext_trouble (fun l hl hn => ih l hl hn _) _ _ r hl₁
      (hn₁.trans (Nat.le_of_lt_succ hn))

/-- **A pass of the loop behind the callback**, by what the poll comes to: there is trouble,
nothing has arrived, or the next line is read. -/
theorem enumPass_spec {cb : List Found → Int} {n : Nat} {Q : Int × List Found → Link S → Prop}
    (hl : l.connected = true) (hn : l.measure < n + 1) (seen : List Found) (rLine : Text)
    {ls : List Text} (hls : ∀ line ∈ ls, '\n' ∉ line)
    (hpend : l.channel.pending = unlines '\n' ls)
    (htrouble : ∀ r l', l'.trouble = true → Q r l')
    (hnothing : ∀ ch events, ch.arrived = [] → ch.pending = l.channel.pending →
      Q (0, seen) (l.afterPoll ch events))
    (hline : ∀ line ls' p l₂, ls = line :: ls' → p.1 ≠ 0 → Reads l l₂ →
      l₂.polls = l.polls ++ [p] → l₂.channel.pending = unlines '\n' ls' →
      (∀ r, parsed line = some r → l₂.measure < n) →
      Triple (match parsed line with
        | none => pure (-1, seen)
        | some (rLine, code, msg) => enumLoop cb n seen rLine code msg) l₂ Q never) :
    Triple (smarticSocketAvailable >>= enumNext seen rLine (enumLoop cb n seen)) l Q never := by
  obtain ⟨r, l₁, hrun, h⟩ := smarticSocketAvailable_spec l hl
  have hn₁ := (smarticSocketAvailable_measure l).result hrun
  rw [Triple, run_bind_of_ok hrun]
  show Triple (enumNext seen rLine (enumLoop cb n seen) r) l₁ Q never
  rcases h with htrouble₁ | ⟨ch, events, -, hch, rfl, rfl⟩
  · exact (enumNext_trouble (fun l hl hn => enumLoop_trouble cb n l hl hn _) _ _ r htrouble₁
      (hn₁.trans (Nat.le_of_lt_succ hn))).imp htrouble
  by_cases harrived : ch.arrived.length = 0
  · -- nothing has arrived, and the loop ends whatever is in flight
    rw [harrived]
    exact Triple.pure (hnothing ch events (List.length_eq_zero_iff.mp harrived) hch)
  cases ls with
  | nil =>
    rw [hpend, unlines_nil] at hch
    have hlen := congrArg List.length hch
    rw [Channel.pending, List.length_append] at hlen
    exact absurd (Nat.add_eq_zero_iff.mp hlen).1 harrived
  | cons line ls =>
  have hr : some ch.arrived.length ≠ some 0 := fun h => harrived (Option.some.inj h)
  have hfuel : (l.afterPoll ch events).measure ≤ n := hn₁.trans (Nat.le_of_lt_succ hn)
  have hl₁ : (l.afterPoll ch events).connected = true := hl
  rw [enumNext_eq hr]
  apply ((readResponse_spec rLine _ hl₁).and (readResponse_measure false rLine _)).bind
  rintro r l₂ ⟨htrouble₂ | ⟨line', hline', hnext, hreads₂, hpolls₂, rfl⟩, hn₂⟩
  · rcases r with _ | ⟨rLine, code, msg⟩
    · exact htrouble _ _ htrouble₂
    · refine (enumLoop_trouble cb n l₂ htrouble₂ ?_ _ rLine code msg).imp htrouble
      exact (hn₂.resolve_left (by rintro ⟨⟩)).trans_le hfuel
  have hnext' : line ++ '\n' :: unlines '\n' ls = line' ++ '\n' :: l₂.channel.pending := by
    rw [← unlines_cons, ← hpend, ← hch]
    exact hnext
  obtain ⟨rfl, hrest⟩ := append_cons_inj (hls line List.mem_cons_self) hline' hnext'
  refine hline line ls (ch.arrived.length, ch.flight.length) l₂ rfl harrived
    ((Link.reads_afterPoll hch).trans hreads₂) hpolls₂ hrest.symm ?_
  intro r hparsed
  rw [hparsed] at hn₂
  exact (hn₂.resolve_left (by rintro ⟨⟩)).trans_le hfuel

/-- How the loop leaves the link: it has read the lines `ls` to their end if and only if
`more` says that it went on behind the line at hand, and every poll was prompt. -/
def LoopEnds (ls : List Text) (more : Prop) (l l' : Link S) : Prop :=
  Reads l l' ∧ ∃ new, l'.polls = l.polls ++ new ∧
    (l'.channel.pending = [] ↔ (ls = [] ∨ more) ∧ Prompt new)

/-- The loop stops at the line at hand. -/
theorem loopEnds_stop {ls : List Text} {more : Prop} (hpend : l.channel.pending = unlines '\n' ls)
    (hmore : ¬more) (code : Int) (msg : ErrorText) :
    LoopEnds ls more l { l with errcode := code, errmsg := msg } := by
  refine ⟨(Reads.refl l).idle code msg, [], (List.append_nil _).symm, ?_⟩
  show l.channel.pending = [] ↔ _
  rw [hpend, unlines_eq_nil_iff, or_iff_left hmore]
  exact ⟨fun h => ⟨h, fun p hp => (nomatch hp)⟩, fun h => h.1⟩

/-- The loop goes on to the next line. -/
theorem LoopEnds.next {l₁ : Link S} {p : Nat × Nat} {line : Text} {ls : List Text}
    {more more' : Prop} (h : LoopEnds ls more l₁ l') (hreads : Reads l l₁)
    (hpolls : l₁.polls = l.polls ++ [p]) (hp : p.1 ≠ 0) (hmore : more' ↔ ls = [] ∨ more) :
    LoopEnds (line :: ls) more' l l' := by
  obtain ⟨hreads', new, hpolls', hends⟩ := h
  have hprompt : Prompt ([p] ++ new) ↔ Prompt new := by
    rw [Prompt, List.forall_mem_append, List.forall_mem_singleton]
    exact ⟨fun h => h.2, fun h => ⟨fun h0 => absurd h0 hp, h⟩⟩
  refine ⟨hreads.trans hreads', [p] ++ new, ?_, ?_⟩
  · rw [hpolls', hpolls, List.append_assoc]
  · rw [hends, hprompt, hmore, or_iff_right (List.cons_ne_nil line ls)]

/-- **The loop of ENUM** reads its reply to the end if and only if it goes on behind every
line but the last, and no poll finds nothing to read while bytes are in flight. -/
theorem enumLoop_spec (cb : List Found → Int) (n : Nat) (l : Link S) (hl : l.connected = true)
    (hn : l.measure < n) (seen : List Found) (rLine : Text) (code : Int) (msg : Text)
    (ls : List Text) (hls : ∀ line ∈ ls, '\n' ∉ line)
    (hpend : l.channel.pending = unlines '\n' ls) :
    Triple (enumLoop cb n seen rLine code msg) l
      (fun _ l' => l'.trouble = true ∨
        LoopEnds ls (∃ seen', accept cb seen code msg = some seen' ∧ Accepts cb seen' ls) l l')
      never := by
  induction n generalizing l seen rLine code msg ls with
  | zero => exact absurd hn (Nat.not_lt_zero _)
  | succ n ih =>
    rw [enumLoop, accept]
    split
    next hcode =>
      refine .inr (loopEnds_stop hpend ?_ _ _)
      rintro ⟨seen', h, -⟩
      cases h
    cases hinfo : smarticParseEnuminfo msg with
    | none =>
      refine .inr (loopEnds_stop hpend ?_ _ _)
      rintro ⟨seen', h, -⟩
      cases h
    | some d =>
    dsimp only
    split
    next hcb =>
      refine .inr (loopEnds_stop hpend ?_ _ _)
      rintro ⟨seen', h, -⟩
      cases h
    next hcb =>
    have hmore : (∃ seen', some (seen ++ [d]) = some seen' ∧ Accepts cb seen' ls) ↔
        Accepts cb (seen ++ [d]) ls := by
      simp only [Option.some_inj, exists_eq_left']
    refine enumPass_spec hl hn _ rLine hls hpend (fun _ _ h => .inl h) ?_ ?_
    · -- the loop has read everything exactly if the poll was prompt
      intro ch events harrived hch
      refine .inr ⟨Link.reads_afterPoll hch, [(ch.arrived.length, ch.flight.length)], rfl, ?_⟩
      show ch.pending = [] ↔ _
      have hflight : ch.pending = ch.flight := by
        rw [Channel.pending, harrived, List.nil_append]
      have hprompt : Prompt [(ch.arrived.length, ch.flight.length)] ↔ ch.pending = [] := by
        rw [hflight, Prompt, List.forall_mem_singleton, ← List.length_eq_zero_iff]
        exact ⟨fun h => h (congrArg List.length harrived), fun h _ => h⟩
      rw [hprompt, iff_and_self]
      intro hnil
      rw [hch, hpend, unlines_eq_nil_iff] at hnil
      exact .inl hnil
    rintro line ls p l₂ rfl hp hreads hpolls hrest hlt
    have hls' : ∀ line ∈ ls, '\n' ∉ line := fun line h => hls line (List.mem_cons_of_mem _ h)
    rw [hmore, Accepts, acceptLine]
    cases hparsed : parsed line with
    | none =>
      right
      apply (loopEnds_stop hrest not_false l₂.errcode l₂.errmsg).next hreads hpolls hp
      simp
    | some r =>
      obtain ⟨rLine', code', msg'⟩ := r
      refine (ih l₂ (hreads.connected.trans hl) (hlt _ hparsed) _ rLine' code' msg' ls hls'
        hrest).imp ?_
      rintro _ l' (htrouble | hends)
      · exact .inl htrouble
      · exact .inr (hends.next hreads hpolls hp Iff.rfl)

/-! ### ENUM

The reply has a line for each device and one at the end.
-/

/-- The reply to ENUM falls into lines. -/
theorem replyLine_enum {reply : Text} (h : ReplyLine "ENUM".toList reply) : Terminated '\n' reply := by
  rcases h with rfl | ⟨h, -⟩ | ⟨cmd, hdispatch, h⟩
  · exact ⟨[], fun _ h => (nomatch h), rfl⟩
  · exact absurd h (by decide)
  obtain rfl : cmd = cmdEnum := Option.some.inj (hdispatch.symm.trans (by decide))
  rcases h with h | ⟨h, -⟩ | ⟨-, ds, -, rfl⟩ | ⟨h, -⟩
  · obtain ⟨line, -, rfl⟩ := h.line
    exact terminated_concat '\n' line
  · cases h
  · exact enumReply_terminated ds
  · cases h

/-- There is fuel for each byte in flight. -/
theorem enumFuel_run (l : Link S) : enumFuel.run l = .ok (l.measure + 1, l) := rfl

/-- **ENUM** reads its reply to the end if and only if the client goes on behind every
line but the last, and every poll is prompt. -/
theorem smartiClientEnumerate_spec (cb : List Found → Int) (hl : Synced l) :
    Triple (smartiClientEnumerate W fuel cb) l
      (fun _ l' => l'.trouble = true ∨ Exchanged W fuel "ENUM".toList l l' ∧
        ∃ new, l'.polls = l.polls ++ new ∧ (l'.channel.pending = [] ↔
          Accepts cb [] (lines '\n' (replyTo W fuel l.server "ENUM".toList)) ∧ Prompt new))
      never := by
  have hcmd : ∀ c ∈ "ENUM".toList, isEol c = false := by simp [isEol]
  have hterm : Terminated '\n' (replyTo W fuel l.server "ENUM".toList) :=
    replyLine_enum (connRead_line hl.server hcmd).2
  apply (smarticRequest_spec hcmd hl).bind
  rintro r l₁ (htrouble | ⟨hex, hpolls, line, hline, hreply, rfl⟩)
  · rcases r with rv | ⟨rLine, code, msg⟩
    · exact .inl htrouble
    dsimp only
    split
    · exact .inl htrouble
    rw [Triple, run_bind_of_ok (enumFuel_run l₁)]
    exact (enumLoop_trouble cb _ l₁ htrouble (Nat.lt_succ_self _) _ _ _ _).imp fun _ _ h => .inl h
  -- the lines of the reply, and those that are left
  obtain ⟨ls, hls, hunlines⟩ := hterm
  have hlines : lines '\n' (replyTo W fuel l.server "ENUM".toList) = ls := by
    rw [hunlines, lines_unlines hls]
  obtain ⟨ls', rfl, hpend⟩ : ∃ ls', ls = line :: ls' ∧ l₁.channel.pending = unlines '\n' ls' := by
    cases ls with
    | nil =>
      rw [hreply] at hunlines
      exact absurd hunlines (List.append_ne_nil_of_right_ne_nil _ (List.cons_ne_nil _ _))
    | cons line' ls' =>
      rw [hreply, unlines_cons] at hunlines
      obtain ⟨rfl, h⟩ := append_cons_inj hline (hls line' List.mem_cons_self) hunlines
      exact ⟨ls', rfl, h⟩
  have hls' : ∀ line ∈ ls', '\n' ∉ line := fun line h => hls line (List.mem_cons_of_mem _ h)
  -- whatever happens behind the first line is read from what is left
  have hends : ∀ {more : Prop} {l' : Link S}, LoopEnds ls' more l₁ l' →
      (more ↔ ∃ seen, acceptLine cb [] line = some seen ∧ Accepts cb seen ls') →
      Exchanged W fuel "ENUM".toList l l' ∧ ∃ new, l'.polls = l.polls ++ new ∧
        (l'.channel.pending = [] ↔
          Accepts cb [] (lines '\n' (replyTo W fuel l.server "ENUM".toList)) ∧ Prompt new) := by
    rintro more l' ⟨hreads, new, hnew, hiff⟩ hmore
    refine ⟨hex.reads hreads, new, ?_, ?_⟩
    · rw [hnew, hpolls]
    · rw [hlines, Accepts, hiff, hmore]
  cases hparsed : parsed line with
  | none =>
    have hresponse : response line = .error (-1) := by rw [response, hparsed]
    rw [hresponse]
    refine .inr (hends (loopEnds_stop hpend not_false l₁.errcode l₁.errmsg) ?_)
    rw [acceptLine, hparsed]
    simp
  | some r =>
    obtain ⟨rLine, code, msg⟩ := r
    have hresponse : response line = .ok (rLine, code, msg) := by rw [response, hparsed]
    have haccept : ∀ seen, acceptLine cb seen line = accept cb seen code msg := by
      intro seen
      rw [acceptLine, hparsed]
    rw [hresponse]
    dsimp only
    split
    next hcode =>
      refine .inr (hends (loopEnds_stop hpend not_false code (.text msg)) ?_)
      rw [haccept, accept, hcode, if_pos (by decide)]
      simp
    rw [Triple, run_bind_of_ok (enumFuel_run l₁)]
    refine (enumLoop_spec cb _ l₁ (hex.connected.trans hl.connected) (Nat.lt_succ_self _) [] rLine
      code msg ls' hls' hpend).imp ?_
    rintro _ l' (htrouble | hloop)
    · exact .inl htrouble
    · refine .inr (hends hloop ?_)
      rw [haccept]

/-! ### XFER

A reply is a line with a status, or a line with a size and one with the data behind it.
-/

/-- What becomes of the data shows in the error only, or the buffer has no text in it. -/
theorem checkData_spec (rLen : Nat) (r : LineResult) (l : Link S) :
    Triple (checkData rLen r) l
      (fun _ l' => ∃ code msg, l' = { l with errcode := code, errmsg := msg }) (· = .overflow) := by
  rw [checkData]
  split
  · exact ⟨_, _, rfl⟩
  split
  · exact ⟨_, _, rfl⟩
  split
  · exact Triple.throw rfl
  split
  · exact ⟨_, _, rfl⟩
  · exact Triple.pure ⟨l.errcode, l.errmsg, rfl⟩

/-- The data are checked without a further read. -/
theorem checkData_steady (rLen : Nat) (r : LineResult) :
    Steady (S := S) (· = .overflow) (checkData rLen r) := by
  intro l hl
  apply (checkData_spec rLen r l).imp
  rintro _ l' ⟨code, msg, rfl⟩
  exact hl

theorem readTransfer_steady (r : Except Int (Text × Int × Text)) :
    Steady (S := S) (· = .overflow) (readTransfer r) := by
  rcases r with rv | ⟨rLine, code, msg⟩
  · exact Steady.pure _
  rw [readTransfer]
  split
  · exact (Idle.setError _ _ _).steady
  split
  · exact (Idle.setError _ _ _).steady
  · exact (smarticSocketReadln_steady _).bind (checkData_steady _)

/-- The announced length is read as it was written. -/
theorem parsed_dataFollows {n : Nat} (hn : n < 2 ^ 32) :
    ∃ info, parsed (decimalInt smartiDataFollows ++ ' ' :: ("Data Follows: ".toList ++ decimal n)) =
        some ((decimalInt smartiDataFollows ++ ' ' ::
          ("Data Follows: ".toList ++ decimal n)).take 1023, smartiDataFollows,
          "Data Follows".toList ++ ':' :: ' ' :: info) ∧
      smarticParseDevinfo ("Data Follows".toList ++ ':' :: ' ' :: info) = some info ∧
      strtoulValue info = n := by
  have hdigits : (decimal n).length ≤ 10 := length_decimal_le (by omega) (by decide)
  have hzero : '\x00' ∉ decimal n := not_mem_decimal (by decide) n
  have hmsg : '\x00' ∉ "Data Follows: ".toList ++ decimal n := by
    rw [List.mem_append, not_or]
    exact ⟨by decide, hzero⟩
  have hlen : ("Data Follows: ".toList ++ decimal n).length ≤ 1019 := by
    rw [List.length_append]
    show 14 + _ ≤ _
    omega
  refine ⟨decimal n, ?_, ?_, strtoulValue_decimal (by omega)⟩
  · rw [parsed, smarticParseResponse_line (by decide) (by decide), List.take_of_length_le hlen,
      cstr_eq hmsg]
    rfl
  · exact smarticParseDevinfo_eq (by decide) hzero (not_mem_decimal (by decide) n)

/-- The line that announces the data. -/
def dataLine (data : List UInt8) : Text :=
  decimalInt smartiDataFollows ++ ' ' :: ("Data Follows: ".toList ++ decimal (padTriples data).length)

/-- It makes the client read a line of this length. -/
theorem readTransfer_dataLine {data : List UInt8} (hlen : data.length ≤ maxEncodable) :
    readTransfer (S := S) (response (dataLine data)) = (do
      checkData (padTriples data).length
        (← smarticSocketReadln ((padTriples data).length * 2))) := by
  have hlt := length_padTriples_lt hlen
  obtain ⟨info, hparsed, hinfo, hvalue⟩ := parsed_dataFollows (n := (padTriples data).length)
    (by omega)
  have hmod : (padTriples data).length % 2 ^ 32 = (padTriples data).length :=
    Nat.mod_eq_of_lt (by omega)
  have hroom : (padTriples data).length * 2 % 2 ^ 32 = (padTriples data).length * 2 :=
    Nat.mod_eq_of_lt (by omega)
  rw [response, dataLine, hparsed]
  dsimp only
  rw [readTransfer, if_neg (fun h => h rfl), hinfo]
  dsimp only
  rw [hvalue, hmod, hroom]

/-- The characters of the data are not line ends. -/
theorem newline_not_mem_dataLine (data : List UInt8) : '\n' ∉ dataLine data := by
  apply not_mem_responseLine
  rw [List.mem_append, not_or]
  exact ⟨by decide, not_mem_decimal (by decide) _⟩

/-- The replies of XFER. -/
theorem replyLine_xfer {reply : Text} (h : ReplyLine "XFER".toList reply) :
    reply = [] ∨ OneReply reply := by
  rcases h with h | ⟨h, -⟩ | ⟨cmd, hdispatch, h⟩
  · exact .inl h
  · exact absurd h (by decide)
  obtain rfl : cmd = cmdXfer := Option.some.inj (hdispatch.symm.trans (by decide))
  rcases h with h | ⟨-, h⟩ | ⟨h, -⟩ | ⟨h, -⟩
  · exact .inr h.one
  · exact .inr h
  · cases h
  · cases h

/-- No status line is taken for the announcement of data. -/
theorem parsed_status {code : Int} (hcode : StatusCode code) (msg : Text) :
    ∃ rLine msg', parsed (decimalInt code ++ ' ' :: msg) = some (rLine, code, msg') := by
  rw [parsed, smarticParseResponse_line hcode.1 hcode.2.1]
  exact ⟨_, _, rfl⟩

/-- **XFER** reads the line of data if and only if there is one. -/
theorem smartiClientXfer_spec (hl : Synced l) :
    Triple (smartiClientXfer W fuel) l
      (fun _ l' => l'.trouble = true ∨
        Exchanged W fuel "XFER".toList l l' ∧ l'.channel.pending = [])
      (· = .overflow) := by
  have hcmd : ∀ c ∈ "XFER".toList, isEol c = false := by simp [isEol]
  apply ((smarticRequest_spec hcmd hl).mono (fun _ _ h => h) fun _ h => h.elim).bind
  rintro r l₁ (htrouble | ⟨hex, -, line, hline, hreply, rfl⟩)
  · exact (readTransfer_steady r l₁ htrouble).imp fun _ _ h => .inl h
  rcases replyLine_xfer (connRead_line hl.server hcmd).2 with hnil | hone
  · rw [replyTo, hnil] at hreply
    exact absurd hreply.symm (List.append_ne_nil_of_right_ne_nil _ (List.cons_ne_nil _ _))
  rw [← replyTo] at hone
  generalize replyTo W fuel l.server "XFER".toList = reply at hone hreply
  -- one line with the data behind it, or one line
  cases hone with
  | @status code msg hcode hmsg =>
    rw [responseLine_eq] at hreply
    obtain ⟨rfl, hpend⟩ := append_cons_inj (not_mem_responseLine hmsg code) hline hreply
    obtain ⟨rLine, msg', hparsed⟩ := parsed_status hcode msg
    rw [response, hparsed]
    dsimp only
    rw [readTransfer, if_pos hcode.2.2]
    exact .inr ⟨⟨hex.connected, hex.server, hex.produced, hex.taken⟩, hpend.symm⟩
  | @data data hne hlen =>
    rw [responseLine_append] at hreply
    obtain ⟨hdata, hpend⟩ := append_cons_inj (newline_not_mem_dataLine data) hline hreply
    rw [← hdata, readTransfer_dataLine hlen]
    have hpos := length_padTriples_pos hne
    have hroom : (padTriples data).length * 2 ≠ 0 := by omega
    obtain ⟨r, l₂, hrun, h⟩ := smarticSocketReadln_spec hroom l₁ (hex.connected.trans hl.connected)
    rw [Triple, run_bind_of_ok hrun]
    rcases h with htrouble | ⟨line', ch, events, hline', hnext, -, rfl, rfl⟩
    · exact (checkData_steady _ r l₂ htrouble).imp fun _ _ h => .inl h
    · have hch : ch.pending = [] := by
        rw [← hpend] at hnext
        exact (append_cons_inj (newline_not_mem_padTriples data) hline' hnext).2.symm
      apply (checkData_spec _ _ _).imp
      rintro _ l' ⟨code, msg, rfl⟩
      refine .inr ⟨?_, hch⟩
      exact hex.reads ((Link.reads_afterLine hnext).idle code msg)

end BenthosDc
