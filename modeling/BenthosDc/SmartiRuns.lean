/-
BenthosDc/SmartiRuns.lean

Runs of calls on one connection: every call reads its own reply, if and only if no
ENUM ends before its reply does.
-/
import BenthosDc.SmartiCalls

namespace BenthosDc

open CString Delivery Hoare Lines SmartiCmd

variable {S α : Type} {W : Irda S} {fuel : Nat} {l l' : Link S}

/-! ### Calls

A call is given with its arguments, so that a run can be a list of calls.
-/

/-- A call on an open connection. -/
inductive Call
  | enumerate (cb : List Found → Int)
  | openDevice (addr lsap : UInt32) (chunkSize : UInt8)
  | model
  | serial
  | ticks
  | setToken (token : UInt32)
  | size
  | xfer
  | close

/-- The line that a call sends. -/
def Call.command : Call → Text
  | enumerate _ => "ENUM".toList
  | openDevice addr lsap chunkSize => openCommand addr lsap chunkSize
  | model => "MODEL".toList
  | serial => "SERIAL".toList
  | ticks => "TICKS".toList
  | setToken token => tokenCommand token
  | size => "SIZE".toList
  | xfer => "XFER".toList
  | close => "CLOSE".toList

/-- A program without its result. -/
def forget (m : Client S α) : Client S Unit := do
  let _ ← m
  return ()

/-- The call of the client. -/
def Call.invoke (W : Irda S) (fuel : Nat) : Call → Client S Unit
  | enumerate cb => forget (smartiClientEnumerate W fuel cb)
  | openDevice addr lsap chunkSize => forget (smartiClientOpen W fuel addr lsap chunkSize)
  | model => forget (smartiClientModel W fuel)
  | serial => forget (smartiClientSerial W fuel)
  | ticks => forget (smartiClientTicks W fuel)
  | setToken token => forget (smartiClientSetToken W fuel token)
  | size => forget (smartiClientSize W fuel)
  | xfer => forget (smartiClientXfer W fuel)
  | close => forget (smartiClientClose W fuel)

/-- **A call has read its own reply**: the daemon has run the command of the call once,
and the client has consumed what the daemon sent back for it, and nothing else. -/
structure Corresponds (W : Irda S) (fuel : Nat) (call : Call) (l l' : Link S) : Prop where
  server : l'.server = (connRead W fuel l.server (call.command ++ ['\n'])).1
  produced : l'.produced = l.produced ++ replyTo W fuel l.server call.command
  consumed : l'.consumed = l.consumed ++ replyTo W fuel l.server call.command

/-- ENUM goes on to the end of its reply: the client accepts every line but the last, and
no poll finds nothing to read while a part of the reply is in flight.  The other calls
do not poll. -/
def Call.ReadsOut (W : Irda S) (fuel : Nat) (l l' : Link S) : Call → Prop
  | enumerate cb => Accepts cb [] (lines '\n' (replyTo W fuel l.server "ENUM".toList)) ∧
      Prompt (l'.polls.drop l.polls.length)
  | _ => True

/-- A call has read its own reply exactly if it has read all of it. -/
theorem Exchanged.corresponds_iff {call : Call} (h : Exchanged W fuel call.command l l')
    (hl : Synced l) : Corresponds W fuel call l l' ↔ l'.channel.pending = [] := by
  rw [← h.consumed_iff hl]
  constructor
  · intro hcall
    exact hcall.consumed
  · intro hconsumed
    exact ⟨h.server, h.produced, hconsumed⟩

/-- No digit ends a line. -/
theorem isEol_decimal (n : Nat) : ∀ c ∈ decimal n, isEol c = false := by
  intro c hc
  rw [isEol, decide_eq_false_iff_not]
  rintro (rfl | rfl)
  · exact not_mem_decimal (by decide) n hc
  · exact not_mem_decimal (by decide) n hc

/-- The command words have no line end in them. -/
theorem isEol_of_all {w : Text} (h : w.all fun c => !isEol c) : ∀ c ∈ w, isEol c = false := by
  intro c hc
  simpa using List.all_eq_true.mp h c hc

/-- A command is one line. -/
theorem Call.command_line (call : Call) : ∀ c ∈ call.command, isEol c = false := by
  cases call with
  | openDevice addr lsap chunkSize =>
    have hparam : ∀ n, ∀ c ∈ ' ' :: decimal n, isEol c = false := fun n =>
      List.forall_mem_cons.mpr ⟨rfl, isEol_decimal n⟩
    show ∀ c ∈ openCommand addr lsap chunkSize, isEol c = false
    unfold openCommand
    refine List.forall_mem_append.mpr ⟨List.forall_mem_append.mpr ⟨?_, hparam _⟩, hparam _⟩
    exact List.forall_mem_append.mpr ⟨isEol_of_all (by decide), isEol_decimal _⟩
  | setToken token =>
    exact List.forall_mem_append.mpr ⟨isEol_of_all (by decide), isEol_decimal _⟩
  | enumerate cb => exact isEol_of_all (w := "ENUM".toList) (by decide)
  | model => exact isEol_of_all (w := "MODEL".toList) (by decide)
  | serial => exact isEol_of_all (w := "SERIAL".toList) (by decide)
  | ticks => exact isEol_of_all (w := "TICKS".toList) (by decide)
  | size => exact isEol_of_all (w := "SIZE".toList) (by decide)
  | xfer => exact isEol_of_all (w := "XFER".toList) (by decide)
  | close => exact isEol_of_all (w := "CLOSE".toList) (by decide)

/-- The result of a call does not matter. -/
theorem forget_spec {m : Client S α} {Q : Link S → Prop} {E : Halt → Prop}
    (h : Triple m l (fun _ l' => Q l') E) : Triple (forget m) l (fun _ l' => Q l') E :=
  h.bind fun _ _ h => Triple.pure h

/-- The daemon takes the line of OPEN for OPEN. -/
theorem dispatch_openCommand (addr lsap : UInt32) (chunkSize : UInt8) :
    dispatch (openCommand addr lsap chunkSize) = some cmdOpen := by
  have hsplit : openCommand addr lsap chunkSize = "OPEN".toList ++ ' ' ::
      (decimal addr.toNat ++ ' ' :: decimal lsap.toNat ++
        ' ' :: decimal (clampChunk chunkSize).toNat) := by
    have hword : "OPEN ".toList = "OPEN".toList ++ [' '] := rfl
    unfold openCommand
    rw [hword]
    simp only [List.append_assoc, List.cons_append, List.nil_append]
  rw [hsplit, dispatch_params (by decide) (by decide)]
  rfl

/-- The daemon takes the line of TOKEN for TOKEN. -/
theorem dispatch_tokenCommand (token : UInt32) :
    dispatch (tokenCommand token) = some cmdToken := by
  rw [tokenCommand_eq, dispatch_params (by decide) (by decide)]
  rfl

/-- The calls whose reply is one line read it to its end. -/
theorem Call.one_line_spec {call : Call} {m : Client S Unit} (cmd : SmartiCmd)
    (hdispatch : dispatch call.command = some cmd) (hxfer : cmd ≠ cmdXfer) (henum : cmd ≠ cmdEnum)
    (hhelp : cmd ≠ cmdHelp) (hreads : ∀ l', call.ReadsOut W fuel l l' ↔ True)
    (hm : (∀ reply, ReplyLine call.command reply → reply = [] ∨ StatusReply reply) →
      Triple m l (fun _ l' => l'.trouble = true ∨
        Exchanged W fuel call.command l l' ∧ l'.channel.pending = []) never) :
    Triple m l (fun _ l' => l'.trouble = true ∨ Exchanged W fuel call.command l l' ∧
      (l'.channel.pending = [] ↔ call.ReadsOut W fuel l l')) (· = .overflow) := by
  refine (hm (replyLine_one hdispatch hxfer henum hhelp)).mono ?_ fun _ h => h.elim
  rintro _ l' (htrouble | ⟨hex, hpend⟩)
  · exact .inl htrouble
  · rw [hreads l', iff_true]
    exact .inr ⟨hex, hpend⟩

/-- **One call**: without trouble the daemon runs its command once, and the reply is
read to its end if and only if ENUM does not stop before. -/
theorem Call.invoke_spec (call : Call) (hl : Synced l) :
    Triple (call.invoke W fuel) l
      (fun _ l' => l'.trouble = true ∨ Exchanged W fuel call.command l l' ∧
        (l'.channel.pending = [] ↔ call.ReadsOut W fuel l l'))
      (· = .overflow) := by
  have hline := call.command_line
  cases call with
  | enumerate cb =>
    refine forget_spec ((smartiClientEnumerate_spec cb hl).mono ?_ fun _ h => h.elim)
    rintro _ l' (htrouble | ⟨hex, new, hpolls, hiff⟩)
    · exact .inl htrouble
    · refine .inr ⟨hex, ?_⟩
      rw [hiff, ReadsOut, hpolls, List.drop_left]
  | xfer =>
    refine forget_spec ((smartiClientXfer_spec hl).imp ?_)
    rintro _ l' (htrouble | ⟨hex, hpend⟩)
    · exact .inl htrouble
    · exact .inr ⟨hex, iff_of_true hpend trivial⟩
  | openDevice addr lsap chunkSize =>
    exact one_line_spec cmdOpen (dispatch_openCommand addr lsap chunkSize) (by decide) (by decide)
      (by decide) (fun _ => Iff.rfl) fun h => forget_spec (statusRequest_spec hline hl h)
  | setToken token =>
    exact one_line_spec cmdToken (dispatch_tokenCommand token) (by decide) (by decide) (by decide)
      (fun _ => Iff.rfl) fun h => forget_spec (statusRequest_spec hline hl h)
  | model =>
    exact one_line_spec cmdModel rfl (by decide) (by decide) (by decide) (fun _ => Iff.rfl)
      fun h => forget_spec (infoRequest_spec hline 8 hl h)
  | serial =>
    exact one_line_spec cmdSerial rfl (by decide) (by decide) (by decide) (fun _ => Iff.rfl)
      fun h => forget_spec (infoRequest_spec hline 32 hl h)
  | ticks =>
    exact one_line_spec cmdTicks rfl (by decide) (by decide) (by decide) (fun _ => Iff.rfl)
      fun h => forget_spec (infoRequest_spec hline 32 hl h)
  | size =>
    exact one_line_spec cmdSize rfl (by decide) (by decide) (by decide) (fun _ => Iff.rfl)
      fun h => forget_spec (infoRequest_spec hline 32 hl h)
  | close =>
    exact one_line_spec cmdClose rfl (by decide) (by decide) (by decide) (fun _ => Iff.rfl)
      fun h => forget_spec (statusRequest_spec hline hl h)

/-! ### Connecting

The greeting is the first line, and nothing is pending behind it.
-/

/-- The client at the moment at which the daemon has accepted its connection: the greeting
is on its way. -/
def Link.dialed (w : S) (schedule : List NetEvent) (junk : Text) : Link S where
  connected := false
  server := Server.start w
  channel := ⟨[], greeting⟩
  schedule := schedule
  trouble := false
  produced := greeting
  consumed := []
  polls := []
  junk := junk
  errcode := 0
  errmsg := .text []
  serverId := []

/-- The greeting of the daemon is one. -/
theorem parse_greeting :
    smarticParseResponse ("220 Smart-I Daemon 1.0.5 Ready".toList.take 1023) =
        some (smartiStatusReady, "Smart-I Daemon 1.0.5 Ready".toList) ∧
      smarticParseGreeting "Smart-I Daemon 1.0.5 Ready".toList =
        some ("Smart-I Daemon".toList, "1.0.5".toList, "Ready".toList) := by
  decide

theorem checkGreeting_steady (gLine : Text) (r : LineResult) :
    Steady (S := S) never (checkGreeting gLine r) := by
  intro l hl
  rw [checkGreeting]
  split
  · exact hl
  split
  · exact hl
  split
  · exact hl
  split
  · exact hl
  split
  · exact hl
  · exact hl

/-- **Connecting** reads the greeting, and nothing else. -/
theorem smartiClientConnect_spec (w : S) (schedule : List NetEvent) (junk : Text) :
    Triple smartiClientConnect (Link.dialed w schedule junk)
      (fun rc l' => l'.trouble = true ∨ rc = 0 ∧ Synced l' ∧ l'.produced = greeting ∧
        l'.server = Server.start w ∧ l'.polls = []) never := by
  let l₀ : Link S := { Link.dialed w schedule junk with connected := true }
  apply (Triple.modify (Q := fun _ l => l = l₀) rfl).bind
  rintro _ _ rfl
  apply (Triple.of_run (Q := fun _ l => l = l₀) (a := junk) rfl rfl).bind
  rintro gLine _ rfl
  obtain ⟨r, l₁, hrun, h⟩ := smarticSocketReadln_spec (show 1024 ≠ 0 by decide) l₀ rfl
  rw [Triple, run_bind_of_ok hrun]
  rcases h with htrouble | ⟨line, ch, events, hline, hpend, -, rfl, rfl⟩
  · exact (checkGreeting_steady gLine r l₁ htrouble).imp fun _ _ h => .inl h
  -- the greeting is one line
  have hgreeting : greeting = "220 Smart-I Daemon 1.0.5 Ready".toList ++ '\n' :: [] := by decide
  have hnext : "220 Smart-I Daemon 1.0.5 Ready".toList ++ '\n' :: [] =
      line ++ '\n' :: ch.pending := by
    rw [← hgreeting]
    exact hpend
  obtain ⟨rfl, hch⟩ := append_cons_inj (by decide) hline hnext
  have hret : ¬(lineResult 1024 "220 Smart-I Daemon 1.0.5 Ready".toList).ret = -1 := by decide
  have htext : (lineResult 1024 "220 Smart-I Daemon 1.0.5 Ready".toList).text.getD gLine =
      "220 Smart-I Daemon 1.0.5 Ready".toList.take 1023 := rfl
  rw [checkGreeting, if_neg hret, if_neg (by decide), htext, parse_greeting.1]
  dsimp only
  rw [if_neg (fun h => h rfl), parse_greeting.2]
  refine .inr ⟨rfl, ⟨rfl, Server.start_waiting w, hch.symm, ?_⟩, rfl, rfl, rfl⟩
  exact hgreeting.symm

/-! ### Runs

A run is a connect and then call after call, without trouble on the way.
-/

/-- A call that returns without trouble. -/
structure Step (W : Irda S) (fuel : Nat) (l : Link S) (call : Call) (l' : Link S) : Prop where
  run : (call.invoke W fuel).run l = .ok ((), l')
  calm : l'.trouble = false

/-- Calls one after the other, each with the states before and behind it. -/
inductive Run (W : Irda S) (fuel : Nat) (l₀ : Link S) :
    List (Link S × Call × Link S) → Link S → Prop
  | start : Run W fuel l₀ [] l₀
  | next {trace : List (Link S × Call × Link S)} {l l' : Link S} {call : Call} :
      Run W fuel l₀ trace l → Step W fuel l call l' →
      Run W fuel l₀ (trace ++ [(l, call, l')]) l'

/-- What a step comes to when the client and the daemon are in step before it. -/
theorem Step.corresponds_iff {call : Call} (h : Step W fuel l call l') (hl : Synced l) :
    (Corresponds W fuel call l l' ↔ call.ReadsOut W fuel l l') ∧
      (call.ReadsOut W fuel l l' → Synced l') := by
  rcases (call.invoke_spec hl).result h.run with htrouble | ⟨hex, hpend⟩
  · rw [h.calm] at htrouble
    cases htrouble
  · refine ⟨(hex.corresponds_iff hl).trans hpend, fun hout => ?_⟩
    exact hex.synced hl call.command_line (hpend.mpr hout)

/-- **In a run whose calls read out their replies, the client and the daemon stay in
step**, and every call reads its own reply. -/
theorem Run.synced {l₀ : Link S} {trace : List (Link S × Call × Link S)} (h : Run W fuel l₀ trace l)
    (hl : Synced l₀) (hout : ∀ s ∈ trace, s.2.1.ReadsOut W fuel s.1 s.2.2) :
    Synced l ∧ ∀ s ∈ trace, Corresponds W fuel s.2.1 s.1 s.2.2 := by
  induction h with
  | start => exact ⟨hl, fun s h => (nomatch h)⟩
  | @next trace l l' call hrun hstep ih =>
    rw [List.forall_mem_append, List.forall_mem_singleton] at hout
    obtain ⟨hsynced, hall⟩ := ih hout.1
    obtain ⟨hiff, hnext⟩ := hstep.corresponds_iff hsynced
    refine ⟨hnext hout.2, ?_⟩
    rw [List.forall_mem_append, List.forall_mem_singleton]
    exact ⟨hall, hiff.mpr hout.2⟩

/-- The calls of a run read out their replies if each of them reads its own. -/
theorem Run.readsOut {l₀ : Link S} {trace : List (Link S × Call × Link S)}
    (h : Run W fuel l₀ trace l) (hl : Synced l₀)
    (hall : ∀ s ∈ trace, Corresponds W fuel s.2.1 s.1 s.2.2) :
    ∀ s ∈ trace, s.2.1.ReadsOut W fuel s.1 s.2.2 := by
  induction h with
  | start => exact fun s h => (nomatch h)
  | @next trace l l' call hrun hstep ih =>
    rw [List.forall_mem_append, List.forall_mem_singleton] at hall ⊢
    have hout := ih hall.1
    obtain ⟨hsynced, -⟩ := hrun.synced hl hout
    exact ⟨hout, (hstep.corresponds_iff hsynced).1.mp hall.2⟩

/-- **Every call reads its own reply if and only if every ENUM reads out its reply.**
Connecting reads the greeting, and for every sequence of calls behind it and every
schedule without trouble, this condition is exact. -/
theorem run_corresponds_iff {w : S} {schedule : List NetEvent} {junk : Text} {rc : Int}
    {l₀ : Link S} {trace : List (Link S × Call × Link S)}
    (hconnect : smartiClientConnect.run (Link.dialed w schedule junk) = .ok (rc, l₀))
    (hcalm : l₀.trouble = false) (hrun : Run W fuel l₀ trace l) :
    (rc = 0 ∧ l₀.produced = greeting ∧ l₀.consumed = greeting) ∧
      ((∀ s ∈ trace, Corresponds W fuel s.2.1 s.1 s.2.2) ↔
        ∀ s ∈ trace, s.2.1.ReadsOut W fuel s.1 s.2.2) := by
  rcases (smartiClientConnect_spec w schedule junk).result hconnect with
    htrouble | ⟨hrc, hsynced, hproduced, -⟩
  · rw [hcalm] at htrouble
    cases htrouble
  · refine ⟨⟨hrc, hproduced, hsynced.consumed.trans hproduced⟩, ?_⟩
    exact ⟨hrun.readsOut hsynced, fun hout => (hrun.synced hsynced hout).2⟩

/-! ### Two devices

The network brings the first device and lets the poll find nothing before the second one has
come.
-/

/-- A socket that finds two devices. -/
def twoDevices : Irda Unit where
  discover w := (some [⟨1, "A".toList⟩, ⟨2, "B".toList⟩], w)
  connectLsap w _ _ := (.failed, w)
  write w _ := (.failed, w)
  read w _ := (.failed, w)
  time w := (0, w)
  junk _ _ := 0
  foreignFree := false

/-- The greeting and the first line of the reply arrive one character at a time; when the
client polls, the second line is in flight. -/
def hesitant : List NetEvent :=
  List.replicate 31 (.arrive 1) ++ .accept 5 :: List.replicate 16 (.arrive 1) ++ [.again]

/-- An ENUM behind the greeting. -/
def hesitantRun : Option (Int × Link Unit × Link Unit) :=
  match smartiClientConnect.run (Link.dialed () hesitant []) with
  | .error _ => none
  | .ok (rc, l₀) =>
    match ((Call.enumerate fun _ => 0).invoke twoDevices 0).run l₀ with
    | .error _ => none
    | .ok (_, l) => some (rc, l₀, l)

/-- The run, and what is left over in the end. -/
theorem hesitantRun_ends :
    hesitantRun.map (fun r => (r.1, r.2.1.trouble, r.2.2.trouble, r.2.2.channel.pending)) =
      some (0, false, false, "230 Device: 1 A\n".toList) := by
  decide +kernel

/-- The run as a run of the model. -/
theorem exists_hesitant_run : ∃ l₀ l,
    smartiClientConnect.run (Link.dialed () hesitant []) = .ok (0, l₀) ∧ l₀.trouble = false ∧
      Step twoDevices 0 l₀ (.enumerate fun _ => 0) l ∧
      l.channel.pending = "230 Device: 1 A\n".toList := by
  obtain ⟨⟨rc, l₀, l⟩, hrun, hends⟩ := Option.map_eq_some_iff.mp hesitantRun_ends
  obtain ⟨rfl, hl₀, hl, hpend⟩ : rc = 0 ∧ l₀.trouble = false ∧ l.trouble = false ∧ _ := by
    simpa only [Prod.mk.injEq] using hends
  rw [hesitantRun] at hrun
  split at hrun
  · cases hrun
  next rc' l₀' hconnect =>
  split at hrun
  · cases hrun
  next hcall =>
  cases hrun
  exact ⟨l₀, l, hconnect, hl₀, ⟨hcall, hl⟩, hpend⟩

theorem run_corresponds_iff_hesitant : ∃ l₀ l,
    smartiClientConnect.run (Link.dialed () hesitant []) = .ok (0, l₀) ∧ l₀.trouble = false ∧
      Run twoDevices 0 l₀ [(l₀, .enumerate fun _ => 0, l)] l ∧
      ((0 : Int) = 0 ∧ l₀.produced = greeting ∧ l₀.consumed = greeting) ∧
      ((∀ s ∈ [(l₀, Call.enumerate fun _ => 0, l)], Corresponds twoDevices 0 s.2.1 s.1 s.2.2) ↔
        ∀ s ∈ [(l₀, Call.enumerate fun _ => 0, l)], s.2.1.ReadsOut twoDevices 0 s.1 s.2.2) := by
  obtain ⟨l₀, l, hconnect, hcalm, hstep, -⟩ := exists_hesitant_run
  have hrun : Run twoDevices 0 l₀ [(l₀, .enumerate fun _ => 0, l)] l := Run.next Run.start hstep
  exact ⟨l₀, l, hconnect, hcalm, hrun, run_corresponds_iff hconnect hcalm hrun⟩

/-- The ENUM returns before the second line of its reply has arrived. -/
theorem not_corresponds_hesitant : ∃ l₀ l,
    smartiClientConnect.run (Link.dialed () hesitant []) = .ok (0, l₀) ∧ l₀.trouble = false ∧
      Step twoDevices 0 l₀ (.enumerate fun _ => 0) l ∧
      ¬Corresponds twoDevices 0 (.enumerate fun _ => 0) l₀ l := by
  obtain ⟨l₀, l, hconnect, hcalm, hstep, hpend⟩ := exists_hesitant_run
  refine ⟨l₀, l, hconnect, hcalm, hstep, fun hcall => ?_⟩
  rcases (smartiClientConnect_spec () hesitant []).result hconnect with
    htrouble | ⟨-, hsynced, -⟩
  · rw [hcalm] at htrouble
    cases htrouble
  rcases (Call.invoke_spec (.enumerate fun _ => 0) hsynced).result hstep.run with htrouble | ⟨hex, -⟩
  · rw [hstep.calm] at htrouble
    cases htrouble
  · rw [(hex.corresponds_iff hsynced).mp hcall] at hpend
    cases hpend

end BenthosDc
