/-
BenthosDc/SmartidServer.lean

The daemon behind one connection: it reads lines from the network and sends its
output (`conn_read`, `smartid_conn_alloc`).

A daemon that has come to a halt, whether it was aborted or is stuck in a loop,
takes nothing in and sends nothing.

The input buffer is an `evbuffer` of libevent.  Of `evbuffer_readln` with `EVBUFFER_EOL_ANY` it
is assumed that it gives the text up to the first CR or LF and drains that with all CR and LF
that follow it in the buffer, and that it gives nothing while there is none.
-/
import BenthosDc.SmartidAnswered

namespace BenthosDc

open CString Hoare SmartiCmd

variable {S : Type}

/-- A connection with its input. -/
structure Server (S : Type) where
  conn : Option (Conn S)
  /-- The input buffer. -/
  input : Text

/-- CR and LF. -/
def isEol (c : Char) : Bool := c = '\n' ∨ c = '\r'

/-- `evbuffer_readln` with `EVBUFFER_EOL_ANY`: the line, and the input behind the
whole sequence of line terminators. -/
def evbufferReadln (input : Text) : Option (Text × Text) :=
  match input.dropWhile fun c => !isEol c with
  | [] => none
  | rest => some (input.takeWhile fun c => !isEol c, rest.dropWhile isEol)

/-- `conn_read` on the arrival of new input: at most one line is taken from the
input, and all output is sent. -/
def connRead (W : Irda S) (fuel : Nat) (s : Server S) (bytes : Text) : Server S × Text :=
  match s.conn with
  | none => (s, [])
  | some c =>
    match evbufferReadln (s.input ++ bytes) with
    | none => (⟨some { c with out := [] }, s.input ++ bytes⟩, c.out)
    | some (line, rest) =>
      match (smartidCmdProcess W fuel line).run c with
      | .error _ => (⟨none, rest⟩, [])
      | .ok (_, c) => (⟨some { c with out := [] }, rest⟩, c.out)

/-- The greeting that `smartid_conn_alloc` sends. -/
def greeting : Text := responseLine smartiStatusReady "Smart-I Daemon 1.0.5 Ready".toList

/-- A new connection. -/
def Server.start (w : S) : Server S := ⟨some (Conn.fresh w), []⟩

/-! ### Input in pieces

A line may arrive in any number of pieces; it is taken when its end has come.
-/

/-- No end of line, no line. -/
theorem evbufferReadln_eq_none {input : Text} (h : ∀ c ∈ input, isEol c = false) :
    evbufferReadln input = none := by
  have hdrop : input.dropWhile (fun c => !isEol c) = [] := by
    rw [List.dropWhile_eq_nil_iff]
    intro c hc
    rw [h c hc]
    rfl
  rw [evbufferReadln, hdrop]

/-- A line and its end. -/
theorem evbufferReadln_line {line : Text} (h : ∀ c ∈ line, isEol c = false) :
    evbufferReadln (line ++ ['\n']) = some (line, []) := by
  have hline : ∀ c ∈ line, (!isEol c) = true := by
    intro c hc
    rw [h c hc]
    rfl
  have hdrop : (line ++ ['\n']).dropWhile (fun c => !isEol c) = ['\n'] := by
    rw [List.dropWhile_append_of_pos hline]
    rfl
  have htake : (line ++ ['\n']).takeWhile (fun c => !isEol c) = line := by
    rw [List.takeWhile_append_of_pos hline]
    exact List.append_nil line
  rw [evbufferReadln, hdrop, htake]
  rfl

variable {W : Irda S} {fuel : Nat} {s : Server S}

/-- A line in the input is processed, and all output is sent. -/
theorem connRead_of_readln {c : Conn S} {input bytes line rest : Text}
    (h : evbufferReadln (input ++ bytes) = some (line, rest)) :
    connRead W fuel ⟨some c, input⟩ bytes =
      match (smartidCmdProcess W fuel line).run c with
      | .error _ => (⟨none, rest⟩, [])
      | .ok (_, c) => (⟨some { c with out := [] }, rest⟩, c.out) := by
  simp only [connRead, h]

/-- A command that comes to its end. -/
theorem connRead_command {c c' : Conn S} {line : Text} (hline : ∀ c ∈ line, isEol c = false)
    {u : Unit} (hrun : (smartidCmdProcess W fuel line).run c = .ok (u, c')) :
    connRead W fuel ⟨some c, []⟩ (line ++ ['\n']) = (⟨some { c' with out := [] }, []⟩, c'.out) := by
  have hread : evbufferReadln ([] ++ (line ++ ['\n'])) = some (line, []) := evbufferReadln_line hline
  rw [connRead_of_readln hread, hrun]

/-- Nothing is left in the output buffer, as after every flush. -/
def Server.Flushed (s : Server S) : Prop := ∀ c, s.conn = some c → c.out = []

/-- A piece of a line waits in the input buffer for the rest of the line. -/
theorem connRead_append {piece : Text} (hs : s.Flushed)
    (hpiece : ∀ c ∈ s.input ++ piece, isEol c = false) (rest : Text) :
    (connRead W fuel s piece).2 = [] ∧ (connRead W fuel s piece).1.Flushed ∧
      (∀ c ∈ (connRead W fuel s piece).1.input, isEol c = false) ∧
      connRead W fuel (connRead W fuel s piece).1 rest = connRead W fuel s (piece ++ rest) := by
  obtain ⟨_ | c, input⟩ := s
  · exact ⟨rfl, hs, fun c hc => hpiece c (List.mem_append_left _ hc), rfl⟩
  · have hout : c.out = [] := hs c rfl
    have hread : connRead W fuel ⟨some c, input⟩ piece = (⟨some c, input ++ piece⟩, []) := by
      have hc : { c with out := [] } = c := by rw [← hout]
      show (match evbufferReadln (input ++ piece) with | none => _ | some (line, rest) => _) = _
      rw [evbufferReadln_eq_none hpiece]
      dsimp only
      rw [hc, hout]
    rw [hread]
    refine ⟨rfl, hs, hpiece, ?_⟩
    unfold connRead
    dsimp only
    rw [List.append_assoc]

end BenthosDc
