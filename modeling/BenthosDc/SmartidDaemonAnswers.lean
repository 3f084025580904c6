/-
BenthosDc/SmartidDaemonAnswers.lean

What the clients of the daemon get, whatever the others do.

* `daemon_isolated`: an event spares the connections that it is not about, and one with input is
  served as by a daemon of its own.
* `daemon_answers`: what has been sent over a connection is the greeting, and the answers to the
  lines of its own input, one for each line, in order.
-/
import BenthosDc.SmartidDaemonRuns

namespace BenthosDc

open CString Hoare Lifetime ProcM

variable {S : Type} {W : Nat → Irda S} {fuel : Nat} {w : S} {es : List (DaemonEvent S)}
  {p p' : Process S} {a : Nat}

/-! ### Connections side by side

Two statements: an event of one connection leaves the others as they are, and its own effect
does not depend on them.
-/

/-- **The connections do not disturb each other**: an event leaves every connection that it is not
about as it is, with its device structure.  For a connection with input the daemon does what it
does behind that connection alone, with the part of the process that belongs to it: it sends the
same text, and it halts if and only if that one halts. -/
theorem daemon_isolated (h : DaemonReaches W fuel w es p) :
    (∀ (ev : DaemonEvent S) p', ev.Possible p → (ev.handle W fuel).run p = .ok ((), p') →
      ∀ b, p.server.table.Live b → ev.about ≠ some b → Spared b p p') ∧
    ∀ a bytes, p.server.table.Live a →
      (∀ p', (connReadIn W fuel a bytes).run p = .ok ((), p') →
        ServedAlone a p (connRead (W a) fuel ⟨some (p.part a), (p.clients a).input⟩ bytes) p') ∧
      ((∃ e, (connReadIn W fuel a bytes).run p = .error e) ↔
        (connRead (W a) fuel ⟨some (p.part a), (p.clients a).input⟩ bytes).1.conn = none) := by
  obtain ⟨as, horderly⟩ := h.orderly
  constructor
  · intro ev p' hev hrun b hb hne
    exact ((handle_orderly horderly hev).result hrun).2 b ((horderly.list.live b).mpr hb) hne
  · intro a bytes ha
    have hspec : Triple (connReadIn W fuel a bytes) p _ _ :=
      connReadIn_spec horderly ((horderly.list.live a).mpr ha) bytes
    refine ⟨fun p' hrun => (hspec.result hrun).2.2, ?_, ?_⟩
    · rintro ⟨e, hrun⟩
      exact (hspec.halt hrun).2
    · intro hnone
      cases hrun : (connReadIn W fuel a bytes).run p with
      | error e => exact ⟨e, rfl⟩
      | ok r =>
        obtain ⟨c, hc, -⟩ := (hspec.result hrun).2.2.conn
        rw [hnone] at hc
        cases hc

/-- Two clients, each with its device open. -/
theorem daemon_isolated_two :
    (∀ (ev : DaemonEvent Unit) p', ev.Possible twoClients →
      (ev.handle (fun _ => liveIrda) 0).run twoClients = .ok ((), p') →
        ∀ b, twoClients.server.table.Live b → ev.about ≠ some b → Spared b twoClients p') ∧
    ∀ a bytes, twoClients.server.table.Live a →
      (∀ p', (connReadIn (fun _ => liveIrda) 0 a bytes).run twoClients = .ok ((), p') →
        ServedAlone a twoClients
          (connRead liveIrda 0 ⟨some (twoClients.part a), (twoClients.clients a).input⟩ bytes) p') ∧
      ((∃ e, (connReadIn (fun _ => liveIrda) 0 a bytes).run twoClients = .error e) ↔
        (connRead liveIrda 0 ⟨some (twoClients.part a), (twoClients.clients a).input⟩
          bytes).1.conn = none) :=
  daemon_isolated twoClients_reached

/-! ### Answers to lines

The reply to a line, whatever the device says.
-/

/-- The text that is sent for a line. -/
inductive AnswerTo (line : Text) : Text → Prop
  | ready : commandName line = [] → AnswerTo line greeting
  /-- The daemon is silent about a command that it does not know. -/
  | unknown : commandName line ≠ [] → dispatch line = none → AnswerTo line []
  | command {cmd : SmartiCmd} {reply : Text} : dispatch line = some cmd → ReplyTo cmd reply →
      AnswerTo line reply

/-- **Every line gets its answer**, if the function returns. -/
theorem process_answer {W : Irda S} {c : Conn S} (hc : WellFormed c) {line : Text}
    (hline : ∀ c ∈ line, c ≠ '\n' ∧ c ≠ '\r') :
    Triple (smartidCmdProcess W fuel line) c
      (fun _ c' => WellFormed c' ∧ ∃ reply, c'.out = c.out ++ reply ∧ AnswerTo line reply)
      fun _ => True := by
  have hparams := newline_not_mem_commandParams ⟨line, hline⟩
  by_cases hname : commandName line = []
  · rw [process_ready hname]
    exact Triple.of_run (sendReady_run c)
      ⟨⟨hc.sound, hc.live, hc.heap, hc.fresh⟩, greeting, rfl, .ready hname⟩
  cases hcmd : lookupCommand ((commandName line).map Char.toLower) with
  | none =>
    have hdispatch : dispatch line = none := by rw [dispatch, if_neg hname, hcmd]
    rw [process_unknown hname hcmd]
    exact Triple.pure ⟨hc, [], (List.append_nil _).symm, .unknown hname hdispatch⟩
  | some cmd =>
    have hdispatch : dispatch line = some cmd := by rw [dispatch, if_neg hname, hcmd]
    rw [process_func hname hcmd]
    apply (func_replies hparams cmd (fun _ => ⟨trivial, trivial, trivial⟩) fuel c hc rfl).imp
    rintro _ c' ⟨hc', reply, hout, hreply⟩
    exact ⟨hc', reply, hout, .command hdispatch hreply⟩

/-! ### Lines of the input

The daemon takes one line when input arrives, and leaves the rest of it to the next arrival.
-/

/-- The input buffer and the lines that have been taken from it, when a piece arrives: at most one
line is taken. -/
def takeLine (taken : Text × List Text) (bytes : Text) : Text × List Text :=
  match evbufferReadln (taken.1 ++ bytes) with
  | none => (taken.1 ++ bytes, taken.2)
  | some (line, rest) => (rest, taken.2 ++ [line])

/-- The lines that have been taken from some pieces of input. -/
def linesTaken (pieces : List Text) : Text × List Text := pieces.foldl takeLine ([], [])

/-- The pieces that have arrived over the connection at `a`; a new connection has none. -/
def DaemonEvent.arrive (a : Nat) (pieces : List Text) : DaemonEvent S → List Text
  | connect _ _ b _ => if b = a then [] else pieces
  | read b bytes => if b = a then pieces ++ [bytes] else pieces
  | event _ _ => pieces
  | idle _ => pieces

/-- The pieces that have arrived for a connection since it was accepted. -/
def arrivals (a : Nat) (es : List (DaemonEvent S)) : List Text := es.foldl (DaemonEvent.arrive a) []

theorem arrivals_concat (a : Nat) (es : List (DaemonEvent S)) (ev : DaemonEvent S) :
    arrivals a (es ++ [ev]) = ev.arrive a (arrivals a es) := List.foldl_concat ..

theorem linesTaken_concat (pieces : List Text) (bytes : Text) :
    linesTaken (pieces ++ [bytes]) = takeLine (linesTaken pieces) bytes := List.foldl_concat ..

/-- An event about another connection brings nothing. -/
theorem arrive_of_ne {ev : DaemonEvent S} {pieces : List Text} (h : ev.about ≠ some a) :
    ev.arrive a pieces = pieces := by
  cases ev with
  | connect fd nonblocking b failure => exact if_neg fun hb => h (congrArg some hb)
  | read b bytes => exact if_neg fun hb => h (congrArg some hb)
  | event b err => rfl
  | idle w => rfl

/-- The client of a connection over which the pieces have arrived. -/
structure Answers (pieces : List Text) (c : ConnClient) : Prop where
  out : c.out = []
  input : c.input = (linesTaken pieces).1
  sent : ∃ replies, List.Forall₂ AnswerTo (linesTaken pieces).2 replies ∧
    c.sent = greeting ++ replies.flatten

/-- **One arrival**: at most one line is taken, and its answer is sent. -/
theorem Answers.arrive {pieces : List Text} (hanswers : Answers pieces (p.clients a))
    (hpart : WellFormed (p.part a)) {bytes : Text}
    (halone : ServedAlone a p (connRead (W a) fuel ⟨some (p.part a), (p.clients a).input⟩ bytes) p') :
    Answers (pieces ++ [bytes]) (p'.clients a) := by
  obtain ⟨replies, hreplies, hsent⟩ := hanswers.sent
  obtain ⟨c, hconn, -⟩ := halone.conn
  have hout : (p.part a).out = [] := hanswers.out
  rw [halone.client, hanswers.input, hsent]
  rw [hanswers.input] at hconn
  cases hline : evbufferReadln ((linesTaken pieces).1 ++ bytes) with
  | none =>
    have htake : linesTaken (pieces ++ [bytes]) =
        ((linesTaken pieces).1 ++ bytes, (linesTaken pieces).2) := by
      rw [linesTaken_concat, takeLine, hline]
    have hread : connRead (W a) fuel ⟨some (p.part a), (linesTaken pieces).1⟩ bytes =
        (⟨some { p.part a with out := [] }, (linesTaken pieces).1 ++ bytes⟩, (p.part a).out) := by
      simp only [connRead, hline]
    rw [hread, hout]
    refine ⟨rfl, ?_, replies, ?_, List.append_nil _⟩
    · rw [htake]
    · rw [htake]
      exact hreplies
  | some r =>
    obtain ⟨line, rest⟩ := r
    have htake : linesTaken (pieces ++ [bytes]) = (rest, (linesTaken pieces).2 ++ [line]) := by
      rw [linesTaken_concat, takeLine, hline]
    rw [connRead_of_readln hline] at hconn ⊢
    have hprocess : Triple (smartidCmdProcess (W a) fuel line) (p.part a) _ _ :=
      process_answer hpart (evbufferReadln_commandLine hline)
    cases hrun : (smartidCmdProcess (W a) fuel line).run (p.part a) with
    | error e =>
      rw [hrun] at hconn
      cases hconn
    | ok r =>
      obtain ⟨-, reply, hreply, hanswer⟩ := hprocess.result hrun
      rw [hout, List.nil_append] at hreply
      refine ⟨rfl, ?_, replies ++ [reply], ?_, ?_⟩
      · rw [htake]
      · rw [htake]
        exact List.rel_append hreplies (.cons hanswer .nil)
      · show greeting ++ replies.flatten ++ r.2.out = _
        rw [hreply, List.flatten_append, List.flatten_singleton, List.append_assoc]

/-- A new connection has been greeted. -/
theorem answers_greeted {fd : Int} {as : List Nat} (h : Orderly as p)
    (ha : p.server.table.cells (.conn a) = none) (hfd : 0 ≤ fd)
    (hrun : (servConnectIn fd true a none).run p = .ok ((), p')) : Answers [] (p'.clients a) := by
  obtain ⟨-, -, hclient⟩ := (servConnectIn_accepted h ha hfd).result hrun
  rw [hclient]
  exact ⟨rfl, rfl, [], .nil, (List.append_nil greeting).symm⟩

/-- **One event**, for every connection that is there behind it. -/
theorem handle_answers {as : List Nat} {ev : DaemonEvent S} (h : Orderly as p)
    (hev : ev.Possible p) (hrun : (ev.handle W fuel).run p = .ok ((), p'))
    (hanswers : ∀ a ∈ as, Answers (arrivals a es) (p.clients a)) {a : Nat}
    (ha : p'.server.table.Live a) : Answers (arrivals a (es ++ [ev])) (p'.clients a) := by
  obtain ⟨⟨as', horderly', hfrom⟩, hspared⟩ := (handle_orderly h hev).result hrun
  rw [arrivals_concat]
  rcases hfrom a ((horderly'.list.live a).mpr ha) with hmem | ⟨fd, hfd, rfl⟩
  case inr =>
    rw [DaemonEvent.arrive, if_pos rfl]
    exact answers_greeted h hev hfd hrun
  by_cases habout : ev.about = some a
  case neg =>
    rw [arrive_of_ne habout, (hspared a hmem habout).client]
    exact hanswers a hmem
  have hlive : p.server.table.Live a := (h.list.live a).mp hmem
  -- the event is about the connection, which has been there before
  cases ev with
  | connect fd nonblocking b failure =>
    obtain rfl : b = a := Option.some.inj habout
    exact absurd hev hlive
  | read b bytes =>
    obtain rfl : b = a := Option.some.inj habout
    rw [DaemonEvent.arrive, if_pos rfl]
    exact (hanswers b hmem).arrive (part_wellFormed h.devices hmem)
      ((connReadIn_spec h hmem bytes).result hrun).2.2
  | event b err =>
    obtain rfl : b = a := Option.some.inj habout
    obtain ⟨-, rfl | ⟨front, back, rfl, horderly⟩⟩ := (connEventIn_spec h hmem err).result hrun
    · exact hanswers b hmem
    · have hgone := (List.nodup_cons.mp (List.nodup_middle.mp h.list.nodup)).1
      exact absurd ((horderly.list.live b).mpr ha) hgone
  | idle w => cases habout

/-- **Every client gets the answers to its own lines**: in every run, what has been sent over a
connection is the greeting, and behind it the answers to the lines that have been taken from its
own input, one for each of them and in their order, whatever the other clients do. -/
theorem daemon_answers (h : DaemonReaches W fuel w es p) (ha : p.server.table.Live a) :
    (p.clients a).out = [] ∧ (p.clients a).input = (linesTaken (arrivals a es)).1 ∧
      ∃ replies, List.Forall₂ AnswerTo (linesTaken (arrivals a es)).2 replies ∧
        (p.clients a).sent = greeting ++ replies.flatten := by
  have hanswers : ∀ a, p.server.table.Live a → Answers (arrivals a es) (p.clients a) := by
    clear ha
    induction h with
    | start =>
      intro a ha
      cases (holds_start.live a).mpr ha
    | step h hev hrun ih =>
      intro a ha
      obtain ⟨as, horderly⟩ := h.orderly
      exact handle_answers horderly hev hrun (fun b hb => ih b ((horderly.list.live b).mp hb)) ha
  exact ⟨(hanswers a ha).out, (hanswers a ha).input, (hanswers a ha).sent⟩

/-- The second client closes the device again. -/
def closeEvent : DaemonEvent Unit := .read 2 "close\n".toList

/-- A client that has opened its device and closed it again. -/
theorem daemon_answers_two :
    ((processBehind (twoOpens ++ [closeEvent])).clients 2).out = [] ∧
      ((processBehind (twoOpens ++ [closeEvent])).clients 2).input =
        (linesTaken (arrivals 2 (twoOpens ++ [closeEvent]))).1 ∧
      ∃ replies, List.Forall₂ AnswerTo (linesTaken (arrivals 2 (twoOpens ++ [closeEvent]))).2
          replies ∧
        ((processBehind (twoOpens ++ [closeEvent])).clients 2).sent =
          greeting ++ replies.flatten := by
  have hasked : (processBehind (twoOpens ++ [closeEvent])).server.table.Live 2 := by rintro ⟨⟩
  have hrun : DaemonReaches (fun _ => liveIrda) 0 () (twoOpens ++ [closeEvent])
      (processBehind (twoOpens ++ [closeEvent])) :=
    processBehind_reached _ twoClients_reached (by rintro ⟨⟩) (by decide +kernel)
  exact daemon_answers hrun hasked

end BenthosDc
