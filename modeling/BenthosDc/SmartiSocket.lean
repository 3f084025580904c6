/-
BenthosDc/SmartiSocket.lean

The client's end of a connection to the daemon, and how it is read, polled and
written (`smarti_client.c`).

The network is a schedule of events, one for each look the client takes at the
socket.  Bytes from the daemon arrive in order, in pieces of any size at any
moment; behind the end of the schedule everything arrives at once.  All other
events but a look that finds nothing, and a write that takes a part of the data,
are trouble: a timeout, or an error of the socket.

A read that has to be made again because of a signal is no event of its own here;
`SmartiFraming` has the loop down to the system calls.
-/
import BenthosDc.Lib.Delivery
import BenthosDc.SmartidServer

namespace BenthosDc

open CString Delivery Hoare Loop

variable {S : Type}

/-! ### The link

What the daemon sends goes through a channel: it is in flight, and arrives in order.  What the
client sends goes to the input of the daemon, which is run as soon as a line is there.
-/

/-- What happens when the client looks at its socket. -/
inductive NetEvent
  /-- The next `n` bytes arrive. -/
  | arrive (n : Nat)
  /-- `EAGAIN` or `EINTR` -/
  | again
  /-- A write takes `n` bytes. -/
  | accept (n : Nat)
  | timeout
  | selectFails
  | fails (errno : Int)
  | endOfFile
  deriving DecidableEq

/-- An error message: a text of the client's own, or `strerror`. -/
inductive ErrorText
  | text (msg : Text)
  | strerror (errno : Int)
  deriving DecidableEq

/-- A client, the daemon and the network between them. -/
structure Link (S : Type) where
  /-- Whether `s` is a socket. -/
  connected : Bool
  server : Server S
  channel : Channel Char
  schedule : List NetEvent
  /-- Whether there was a timeout or an error. -/
  trouble : Bool
  /-- All bytes that the daemon has sent. -/
  produced : Text
  /-- All bytes that the client has read. -/
  consumed : Text
  /-- For each `FIONREAD`, the number of bytes that had arrived, and the number of
  those that were still in flight. -/
  polls : List (Nat × Nat)
  /-- What a local buffer holds before it is set. -/
  junk : Text
  errcode : Int
  errmsg : ErrorText
  /-- `s_id` -/
  serverId : Text

/-- The calls of the client, which may halt. -/
abbrev Client (S : Type) := StateT (Link S) (Except Halt)

/-- The codes of errno.h. -/
def etimedout : Int := 110

def einval : Int := 22

def epipe : Int := 32

/-! ### Reading a character

The schedule is gone through up to the event that brings a character, or that says that none
will come.
-/

/-- How `select` and `read` end together. -/
inductive ReadResult
  | char (c : Char)
  | timedOut
  | selectFailed
  | endOfFile
  | failed (errno : Int)
  deriving DecidableEq

/-- Wait until there is a character, or trouble. -/
def awaitChar : List NetEvent → Channel Char → ReadResult × Channel Char × List NetEvent
  | [], ch =>
    match ch.settle.receive with
    | some (c, ch) => (.char c, ch, [])
    | none => (.timedOut, ch, [])
  | .arrive n :: events, ch =>
    match (ch.arrive n).receive with
    | some (c, ch) => (.char c, ch, events)
    | none => awaitChar events (ch.arrive n)
  | .again :: events, ch => awaitChar events ch
  | .accept _ :: events, ch => awaitChar events ch
  | .timeout :: events, ch => (.timedOut, ch, events)
  | .selectFails :: events, ch => (.selectFailed, ch, events)
  | .fails errno :: events, ch => (.failed errno, ch, events)
  | .endOfFile :: events, ch => (.endOfFile, ch, events)

/-- The next character, and the link behind it. -/
def readChar (l : Link S) : ReadResult × Link S :=
  match awaitChar l.schedule l.channel with
  | (.char c, ch, events) =>
    (.char c, { l with channel := ch, schedule := events, consumed := l.consumed ++ [c] })
  | (r, ch, events) => (r, { l with channel := ch, schedule := events, trouble := true })

/-! ### Reading a line

A byte is stored if there is room for it, and dropped otherwise, up to the line end.
-/

/-- The outcome of `smartic_socket_readln`: the return value, the timeout flag, `errno`,
and the text in the buffer, which is `none` if the buffer has not been terminated. -/
structure LineResult where
  ret : Int
  timeout : Bool
  errno : Int
  text : Option Text
  deriving DecidableEq

/-- The line ends where it is, if there is anything in it. -/
def endOfLine (buf : Text) (timeout : Bool) : LineResult :=
  if buf = [] then ⟨0, timeout, 0, none⟩ else ⟨buf.length, timeout, 0, some buf⟩

/-- The length is returned. -/
theorem endOfLine_ret (buf : Text) (timeout : Bool) : (endOfLine buf timeout).ret = buf.length := by
  rw [endOfLine]
  split
  next hnil => rw [hnil]; rfl
  next => rfl

/-- Whether time has run out. -/
theorem endOfLine_timeout (buf : Text) (timeout : Bool) :
    (endOfLine buf timeout).timeout = timeout := by
  rw [endOfLine]
  split
  · rfl
  · rfl

/-- Without a byte the buffer is not written. -/
theorem endOfLine_text (buf : Text) (timeout : Bool) :
    (endOfLine buf timeout).text = if buf = [] then none else some buf := by
  rw [endOfLine]
  split
  · rfl
  · rfl

/-- One pass of the loop: the characters so far. -/
def readlnPass (len : Nat) : Link S × Text → Iter (Link S × Text) (LineResult × Link S)
  | (l, buf) =>
    match readChar l with
    | (.char c, l) =>
      if c = '\n' then .stop (⟨buf.length, false, 0, some buf⟩, l)
      else .next (l, if buf.length < len - 1 then buf ++ [c] else buf)
    | (.timedOut, l) => .stop (endOfLine buf true, l)
    | (.selectFailed, l) => .stop (endOfLine buf false, l)
    | (.endOfFile, l) => .stop (endOfLine buf false, l)
    | (.failed errno, l) => .stop (⟨-1, false, errno, none⟩, l)

/-- The characters and the events that are left: enough fuel for the loop. -/
def Link.measure (l : Link S) : Nat := l.channel.pending.length + l.schedule.length

/-- A client without a connection and a buffer without room are refused. -/
def smarticSocketReadln (len : Nat) : Client S LineResult := fun l =>
  if !l.connected ∨ len = 0 then .ok (⟨-1, false, einval, none⟩, l)
  else
    match iterate (readlnPass len) (l.measure + 1) (l, []) with
    | .stop r => .ok r
    | .next _ => .error .pending

/-! ### Polling

FIONREAD tells how many bytes have arrived, which need not be all that are on their way.
-/

/-- What has arrived when the client polls; `none` is an error. -/
def look : List NetEvent → Channel Char → Option (Channel Char) × List NetEvent
  | [], ch => (some ch.settle, [])
  | .arrive n :: events, ch => (some (ch.arrive n), events)
  | .fails _ :: events, _ => (none, events)
  | _ :: events, ch => (some ch, events)

/-- `smartic_socket_available`: `FIONREAD`, or `none` for -1. -/
def smarticSocketAvailable : Client S (Option Nat) := fun l =>
  if !l.connected then .ok (none, l)
  else
    match look l.schedule l.channel with
    | (none, events) => .ok (none, { l with schedule := events, trouble := true })
    | (some ch, events) => .ok (some ch.arrived.length, { l with
        channel := ch
        schedule := events
        polls := l.polls ++ [(ch.arrived.length, ch.flight.length)] })

/-! ### Writing

A write hands a part of the text to the daemon, which processes the lines that are complete.
-/

section Write

variable (W : Irda S) (fuel : Nat)

/-- The daemon receives bytes, and its output is on its way. -/
def deliver (l : Link S) (bytes : Text) : Link S :=
  let r := connRead W fuel l.server bytes
  { l with server := r.1, channel := l.channel.send r.2, produced := l.produced ++ r.2 }

/-- The outcome of `smartic_socket_write`. -/
structure WriteResult where
  ret : Int
  timeout : Bool
  errno : Int

/-- The loop over what is left of the buffer. -/
def writeAll (events : List NetEvent) (l : Link S) (buf : Text) : WriteResult × Link S :=
  if buf = [] then (⟨0, false, 0⟩, { l with schedule := events })
  else
    match events with
    | [] => (⟨0, false, 0⟩, { deliver W fuel l buf with schedule := [] })
    | .accept n :: events =>
      -- a write that takes nothing ends the loop
      if n = 0 then (⟨0, false, 0⟩, { l with schedule := events, trouble := true })
      else writeAll events (deliver W fuel l (buf.take n)) (buf.drop n)
    | .arrive n :: events => writeAll events { l with channel := l.channel.arrive n } buf
    | .again :: events => writeAll events l buf
    | .timeout :: events => (⟨0, true, 0⟩, { l with schedule := events, trouble := true })
    | .selectFails :: events => (⟨0, false, 0⟩, { l with schedule := events, trouble := true })
    | .fails errno :: events => (⟨-1, false, errno⟩, { l with schedule := events, trouble := true })
    | .endOfFile :: events => (⟨-1, false, epipe⟩, { l with schedule := events, trouble := true })

/-- A client without a connection and an empty text are refused. -/
def smarticSocketWrite (buffer : Text) : Client S WriteResult := fun l =>
  if !l.connected ∨ buffer = [] then .ok (⟨-1, false, einval⟩, l)
  else .ok (writeAll W fuel l.schedule l buffer)

end Write

/-! ### What a read can come to

Either there is trouble, or a line has been taken off the front of what is pending.
-/

section Reading

variable {l l' : Link S} {len : Nat}

/-- The next character is read, or there is trouble. -/
theorem awaitChar_cases (events : List NetEvent) (ch : Channel Char) :
    (∃ c ch' events', awaitChar events ch = (.char c, ch', events') ∧
      ch.pending = c :: ch'.pending ∧ events' <:+ events) ∨
    ∀ c, (awaitChar events ch).1 ≠ .char c := by
  induction events generalizing ch with
  | nil =>
    rw [awaitChar]
    cases hrec : ch.settle.receive with
    | none => exact .inr fun c h => (nomatch h)
    | some r =>
      refine .inl ⟨r.1, r.2, [], rfl, ?_, List.nil_suffix⟩
      rw [← pending_settle]
      exact pending_of_receive hrec
  | cons e events ih =>
    -- an event that brings nothing is dropped
    have hlater : (awaitChar (e :: events) ch = awaitChar events ch) →
        (∃ c ch' events', awaitChar (e :: events) ch = (.char c, ch', events') ∧
          ch.pending = c :: ch'.pending ∧ events' <:+ e :: events) ∨
        ∀ c, (awaitChar (e :: events) ch).1 ≠ .char c := by
      intro heq
      rw [heq]
      rcases ih ch with ⟨c, ch', events', h, hpend, hsuf⟩ | h
      · exact .inl ⟨c, ch', events', h, hpend, hsuf.trans (List.suffix_cons e events)⟩
      · exact .inr h
    cases e with
    | arrive n =>
      rw [awaitChar]
      cases hrec : (ch.arrive n).receive with
      | none =>
        rcases ih (ch.arrive n) with ⟨c, ch', events', h, hpend, hsuf⟩ | h
        · rw [pending_arrive] at hpend
          exact .inl ⟨c, ch', events', h, hpend, hsuf.trans (List.suffix_cons _ events)⟩
        · exact .inr h
      | some r =>
        refine .inl ⟨r.1, r.2, events, rfl, ?_, List.suffix_cons _ events⟩
        rw [← pending_arrive ch n]
        exact pending_of_receive hrec
    | again => exact hlater rfl
    | accept n => exact hlater rfl
    | timeout => exact .inr fun c h => (nomatch h)
    | selectFails => exact .inr fun c h => (nomatch h)
    | fails errno => exact .inr fun c h => (nomatch h)
    | endOfFile => exact .inr fun c h => (nomatch h)

/-- **What a read can come to**: the next character, or trouble. -/
theorem readChar_cases (l : Link S) :
    (∃ c ch events, readChar l =
        (.char c, { l with channel := ch, schedule := events, consumed := l.consumed ++ [c] }) ∧
      l.channel.pending = c :: ch.pending ∧ events <:+ l.schedule) ∨
    ((∀ c, (readChar l).1 ≠ .char c) ∧ (readChar l).2.trouble = true) := by
  rcases awaitChar_cases l.schedule l.channel with ⟨c, ch, events, h, hpend, hsuf⟩ | h
  · refine .inl ⟨c, ch, events, ?_, hpend, hsuf⟩
    rw [readChar, h]
  · right
    rcases hawait : awaitChar l.schedule l.channel with ⟨r, ch, events⟩
    rw [hawait] at h
    rw [readChar, hawait]
    cases r with
    | char c => exact absurd rfl (h c)
    | timedOut => exact ⟨fun c hc => (nomatch hc), rfl⟩
    | selectFailed => exact ⟨fun c hc => (nomatch hc), rfl⟩
    | endOfFile => exact ⟨fun c hc => (nomatch hc), rfl⟩
    | failed errno => exact ⟨fun c hc => (nomatch hc), rfl⟩

/-- A pass goes on behind a character, stops behind a line, or meets trouble. -/
theorem readlnPass_cases (len : Nat) (l : Link S) (buf : Text) :
    (∃ c ch events,
      l.channel.pending = c :: ch.pending ∧ events <:+ l.schedule ∧
      let l' : Link S :=
        { l with channel := ch, schedule := events, consumed := l.consumed ++ [c] }
      (c ≠ '\n' ∧ readlnPass len (l, buf) =
          .next (l', if buf.length < len - 1 then buf ++ [c] else buf) ∨
        c = '\n' ∧ readlnPass len (l, buf) = .stop (⟨buf.length, false, 0, some buf⟩, l'))) ∨
    ∃ r l', readlnPass len (l, buf) = .stop (r, l') ∧ l'.trouble = true := by
  rcases readChar_cases l with ⟨c, ch, events, h, hpend, hsuf⟩ | ⟨hne, htrouble⟩
  · refine .inl ⟨c, ch, events, hpend, hsuf, ?_⟩
    rw [readlnPass, h]
    by_cases hc : c = '\n'
    · exact .inr ⟨hc, if_pos hc⟩
    · exact .inl ⟨hc, if_neg hc⟩
  · right
    rcases hread : readChar l with ⟨r, l'⟩
    rw [hread] at hne htrouble
    rw [readlnPass, hread]
    cases r with
    | char c => exact absurd rfl (hne c)
    | timedOut => exact ⟨_, _, rfl, htrouble⟩
    | selectFailed => exact ⟨_, _, rfl, htrouble⟩
    | endOfFile => exact ⟨_, _, rfl, htrouble⟩
    | failed errno => exact ⟨_, _, rfl, htrouble⟩

/-- The loop ends within its fuel. -/
theorem readln_stops (len : Nat) (l : Link S) :
    ∃ r, iterate (readlnPass len) (l.measure + 1) (l, []) = .stop r := by
  refine iterate_of_measure (fun s => s.1.measure) (I := fun _ => True) ?_ trivial (Nat.lt_succ_self _)
  rintro ⟨l, buf⟩ s' - hnext
  refine ⟨trivial, ?_⟩
  rcases readlnPass_cases len l buf with ⟨c, ch, events, hpend, hsuf, ⟨-, h⟩ | ⟨-, h⟩⟩ | ⟨r, l', h, -⟩
  · rw [h] at hnext
    rw [← Iter.next.inj hnext]
    have hlen := congrArg List.length hpend
    have hle := hsuf.length_le
    rw [List.length_cons] at hlen
    show ch.pending.length + events.length < l.channel.pending.length + l.schedule.length
    omega
  · rw [h] at hnext
    cases hnext
  · rw [h] at hnext
    cases hnext

/-- The loop comes to its end. -/
theorem smarticSocketReadln_returns {len : Nat} {l : Link S} (hguard : ¬(!l.connected ∨ len = 0)) :
    ∃ r l', Returns (readlnPass len) (l, []) (r, l') ∧
      (smarticSocketReadln len).run l = .ok (r, l') := by
  obtain ⟨⟨r, l'⟩, hiter⟩ := readln_stops len l
  refine ⟨r, l', iterate_stop_returns hiter, ?_⟩
  show smarticSocketReadln len l = _
  rw [smarticSocketReadln, if_neg hguard, hiter]

/-- A buffer keeps what fits into it. -/
theorem take_concat (line : Text) (c : Char) (n : Nat) :
    (if (line.take n).length < n then line.take n ++ [c] else line.take n) =
      (line ++ [c]).take n := by
  rw [List.length_take]
  split
  · have hlt : line.length < n := by omega
    rw [List.take_of_length_le (Nat.le_of_lt hlt), List.take_of_length_le]
    rw [List.length_append]
    exact hlt
  · have hle : n ≤ line.length := by omega
    exact (List.take_append_of_le_length hle).symm

/-- What a line leaves behind. -/
def Link.afterLine (l : Link S) (line : Text) (ch : Channel Char) (events : List NetEvent) : Link S :=
  { l with channel := ch, schedule := events, consumed := l.consumed ++ (line ++ ['\n']) }

/-- The result for a line that is read into a buffer of `len` bytes. -/
def lineResult (len : Nat) (line : Text) : LineResult :=
  ⟨(line.take (len - 1)).length, false, 0, some (line.take (len - 1))⟩

/-- **Reading a line** takes the bytes up to the next newline, and nothing else,
unless there is trouble. -/
theorem smarticSocketReadln_spec (hlen : len ≠ 0) (l : Link S) (hl : l.connected = true) :
    ∃ r l', (smarticSocketReadln len).run l = .ok (r, l') ∧
      (l'.trouble = true ∨ ∃ line ch events, '\n' ∉ line ∧
        l.channel.pending = line ++ '\n' :: ch.pending ∧ events <:+ l.schedule ∧
        r = lineResult len line ∧ l' = l.afterLine line ch events) := by
  have hguard : ¬(!l.connected ∨ len = 0) := by simp [hl, hlen]
  obtain ⟨r, l', hreturns, hrun⟩ := smarticSocketReadln_returns hguard
  refine ⟨r, l', hrun, ?_⟩
  -- the characters so far, and what is left of the buffer for them
  refine hreturns.invariant
    (I := fun s => ∃ line ch events, '\n' ∉ line ∧ l.channel.pending = line ++ ch.pending ∧
      events <:+ l.schedule ∧
      s = ({ l with channel := ch, schedule := events, consumed := l.consumed ++ line },
        line.take (len - 1)))
    (Q := fun r => r.2.trouble = true ∨ ∃ line ch events, '\n' ∉ line ∧
      l.channel.pending = line ++ '\n' :: ch.pending ∧ events <:+ l.schedule ∧
      r.1 = lineResult len line ∧ r.2 = l.afterLine line ch events) ?_ ?_
    ⟨[], l.channel, l.schedule, List.not_mem_nil, rfl, List.suffix_rfl, by simp⟩
  · rintro _ s' ⟨line, ch, events, hline, hpend, hsuf, rfl⟩ hnext
    rcases readlnPass_cases len _ (line.take (len - 1)) with
      ⟨c, ch', events', hpend', hsuf', ⟨hc, h⟩ | ⟨-, h⟩⟩ | ⟨_, _, h, -⟩
    · rw [h] at hnext
      refine ⟨line ++ [c], ch', events', ?_, ?_, hsuf'.trans hsuf, ?_⟩
      · rw [List.mem_append, List.mem_singleton, not_or]
        exact ⟨hline, Ne.symm hc⟩
      · rw [hpend, hpend', List.append_assoc]
        rfl
      · rw [← Iter.next.inj hnext, take_concat, List.append_assoc]
    · rw [h] at hnext
      cases hnext
    · rw [h] at hnext
      cases hnext
  · rintro _ ⟨r, l'⟩ ⟨line, ch, events, hline, hpend, hsuf, rfl⟩ hstop
    rcases readlnPass_cases len _ (line.take (len - 1)) with
      ⟨c, ch', events', hpend', hsuf', ⟨-, h⟩ | ⟨rfl, h⟩⟩ | ⟨_, _, h, htrouble⟩
    · rw [h] at hstop
      cases hstop
    · rw [h] at hstop
      cases Iter.stop.inj hstop
      refine .inr ⟨line, ch', events', hline, ?_, hsuf'.trans hsuf, rfl, ?_⟩
      · rw [hpend, hpend']
      · rw [Link.afterLine, List.append_assoc]
    · rw [h] at hstop
      cases Iter.stop.inj hstop
      exact .inl htrouble

/-- Where a pass goes on or stops, the link is that behind the character. -/
theorem readlnPass_link (len : Nat) (l : Link S) (buf : Text) :
    (∃ buf', readlnPass len (l, buf) = .next ((readChar l).2, buf')) ∨
      ∃ r, readlnPass len (l, buf) = .stop (r, (readChar l).2) := by
  rcases hread : readChar l with ⟨r, l'⟩
  rw [readlnPass, hread]
  cases r with
  | char c =>
    by_cases hc : c = '\n'
    · exact .inr ⟨_, if_pos hc⟩
    · exact .inl ⟨_, if_neg hc⟩
  | timedOut => exact .inr ⟨_, rfl⟩
  | selectFailed => exact .inr ⟨_, rfl⟩
  | endOfFile => exact .inr ⟨_, rfl⟩
  | failed errno => exact .inr ⟨_, rfl⟩

/-- What every look for a character keeps, a line keeps. -/
theorem smarticSocketReadln_keeps {I : Link S → Prop} {E : Halt → Prop}
    (hread : ∀ l, I l → I (readChar l).2) (len : Nat) (hl : I l) :
    Triple (smarticSocketReadln len) l (fun _ l' => I l') E := by
  by_cases hguard : !l.connected ∨ len = 0
  · exact Triple.of_run (if_pos hguard) hl
  obtain ⟨r, l', hreturns, hrun⟩ := smarticSocketReadln_returns hguard
  apply Triple.of_run hrun
  refine hreturns.invariant (I := fun s => I s.1) (Q := fun r => I r.2)
    ?_ ?_ hl
  · rintro ⟨l₁, buf⟩ s' h hnext
    rcases readlnPass_link len l₁ buf with ⟨buf', hpass⟩ | ⟨r, hpass⟩
    · rw [hpass] at hnext
      rw [← Iter.next.inj hnext]
      exact hread l₁ h
    · rw [hpass] at hnext
      cases hnext
  · rintro ⟨l₁, buf⟩ r h hstop
    rcases readlnPass_link len l₁ buf with ⟨buf', hpass⟩ | ⟨r', hpass⟩
    · rw [hpass] at hstop
      cases hstop
    · rw [hpass] at hstop
      rw [← Iter.stop.inj hstop]
      exact hread l₁ h

end Reading

/-! ### What a write can come to

Either there is trouble, or the daemon has the whole line.
-/

section Writing

variable {W : Irda S} {fuel : Nat}

/-- What a complete write leaves behind: the daemon has answered the whole line. -/
def Link.afterWrite (W : Irda S) (fuel : Nat) (l : Link S) (line : Text) (ch : Channel Char)
    (events : List NetEvent) : Link S :=
  { l with
    server := (connRead W fuel l.server line).1
    channel := ch
    schedule := events
    produced := l.produced ++ (connRead W fuel l.server line).2 }

/-- A piece of a line is answered by nothing: it waits in the input buffer of the daemon. -/
theorem deliver_piece (l : Link S) (hflush : l.server.Flushed) {piece rest : Text}
    (hpiece : ∀ c ∈ l.server.input ++ piece, isEol c = false) :
    deliver W fuel l piece = { l with server := (connRead W fuel l.server piece).1 } ∧
      (connRead W fuel l.server piece).1.Flushed ∧
      (∀ c ∈ (connRead W fuel l.server piece).1.input, isEol c = false) ∧
      connRead W fuel (connRead W fuel l.server piece).1 rest =
        connRead W fuel l.server (piece ++ rest) := by
  obtain ⟨hout, hflush', hinput, hrest⟩ := connRead_append hflush hpiece rest
  refine ⟨?_, hflush', hinput, hrest⟩
  have hsend : l.channel.send [] = l.channel := by
    rw [Channel.send, List.append_nil]
  rw [deliver, hout, hsend, List.append_nil]

/-- The loop, over a line that has been sent in part. -/
theorem writeAll_spec {body : Text} (events : List NetEvent) (l : Link S)
    (hflush : l.server.Flushed) (hbody : ∀ c ∈ l.server.input ++ body, isEol c = false) :
    (writeAll W fuel events l (body ++ ['\n'])).2.trouble = true ∨
      ∃ ch events', events' <:+ events ∧
        ch.pending = l.channel.pending ++ (connRead W fuel l.server (body ++ ['\n'])).2 ∧
        writeAll W fuel events l (body ++ ['\n']) =
          (⟨0, false, 0⟩, l.afterWrite W fuel (body ++ ['\n']) ch events') := by
  have hne : ∀ b : Text, b ++ ['\n'] ≠ [] := fun b => List.append_ne_nil_of_right_ne_nil b (by simp)
  induction events generalizing l body with
  | nil =>
    refine .inr ⟨_, [], List.nil_suffix, pending_send _ _, ?_⟩
    rw [writeAll, if_neg (hne body)]
    rfl
  | cons e events ih =>
    cases e with
    | arrive n =>
      rcases ih { l with channel := l.channel.arrive n } hflush hbody with
        h | ⟨ch, events', hsuf, hpend, h⟩
      · left
        rwa [writeAll, if_neg (hne body)]
      · refine .inr ⟨ch, events', hsuf.trans (List.suffix_cons _ _), ?_, ?_⟩
        · rw [hpend, pending_arrive]
        · rw [writeAll, if_neg (hne body)]
          exact h
    | again =>
      rcases ih l hflush hbody with h | ⟨ch, events', hsuf, hpend, h⟩
      · left
        rwa [writeAll, if_neg (hne body)]
      · refine .inr ⟨ch, events', hsuf.trans (List.suffix_cons _ _), hpend, ?_⟩
        rw [writeAll, if_neg (hne body)]
        exact h
    | accept n =>
      rw [writeAll, if_neg (hne body)]
      by_cases hn : n = 0
      · exact .inl (by rw [if_pos hn])
      rw [if_neg hn]
      by_cases hall : body.length < n
      · -- the whole line is taken
        have hlen : (body ++ ['\n']).length ≤ n := by
          rw [List.length_append]
          exact hall
        rw [List.take_of_length_le hlen, List.drop_of_length_le hlen]
        refine .inr ⟨_, events, List.suffix_cons _ _, pending_send _ _, ?_⟩
        rw [writeAll.eq_def, if_pos rfl]
        rfl
      · -- a part of the line is taken, and waits in the input buffer of the daemon
        have hle : n ≤ body.length := Nat.le_of_not_lt hall
        obtain ⟨hl, hflush', hinput, hrest⟩ := @deliver_piece S W fuel l hflush (body.take n)
          (body.drop n ++ ['\n']) fun c hc =>
            hbody c (List.mem_append.mpr ((List.mem_append.mp hc).imp_right List.mem_of_mem_take))
        have hbody' : ∀ c ∈ (connRead W fuel l.server (body.take n)).1.input ++ body.drop n,
            isEol c = false := by
          intro c hc
          rcases List.mem_append.mp hc with hc | hc
          · exact hinput c hc
          · exact hbody c (List.mem_append_right _ (List.mem_of_mem_drop hc))
        rw [List.take_append_of_le_length hle, List.drop_append_of_le_length hle, hl]
        have hwhole : body.take n ++ (body.drop n ++ ['\n']) = body ++ ['\n'] := by
          rw [← List.append_assoc, List.take_append_drop]
        rw [hwhole] at hrest
        rcases ih { l with server := (connRead W fuel l.server (body.take n)).1 } hflush' hbody'
          with h | ⟨ch, events', hsuf, hpend, h⟩
        · exact .inl h
        · refine .inr ⟨ch, events', hsuf.trans (List.suffix_cons _ _), ?_, ?_⟩
          · rw [hpend, hrest]
          · rw [h, Link.afterWrite, Link.afterWrite, hrest]
    | timeout => exact .inl (by rw [writeAll, if_neg (hne body)])
    | selectFails => exact .inl (by rw [writeAll, if_neg (hne body)])
    | fails errno => exact .inl (by rw [writeAll, if_neg (hne body)])
    | endOfFile => exact .inl (by rw [writeAll, if_neg (hne body)])

/-- **Writing a line** makes the daemon run it once, in however many pieces the line
is taken, unless there is trouble. -/
theorem smarticSocketWrite_spec {body : Text} (l : Link S) (hl : l.connected = true)
    (hflush : l.server.Flushed) (hbody : ∀ c ∈ l.server.input ++ body, isEol c = false) :
    ∃ r l', (smarticSocketWrite W fuel (body ++ ['\n'])).run l = .ok (r, l') ∧
      (l'.trouble = true ∨ ∃ ch events, events <:+ l.schedule ∧
        ch.pending = l.channel.pending ++ (connRead W fuel l.server (body ++ ['\n'])).2 ∧
        r = ⟨0, false, 0⟩ ∧ l' = l.afterWrite W fuel (body ++ ['\n']) ch events) := by
  have hguard : ¬(!l.connected ∨ body ++ ['\n'] = []) := by simp [hl]
  refine ⟨_, _, if_neg hguard, ?_⟩
  rcases writeAll_spec l.schedule l hflush hbody with h | ⟨ch, events, hsuf, hpend, h⟩
  · exact .inl h
  · rw [h]
    exact .inr ⟨ch, events, hsuf, hpend, rfl, rfl⟩

/-- A look moves bytes, or fails. -/
theorem look_cases (events : List NetEvent) (ch : Channel Char) :
    (∃ events', look events ch = (none, events') ∧ events' <:+ events) ∨
      ∃ ch' events', look events ch = (some ch', events') ∧ ch'.pending = ch.pending ∧
        events' <:+ events := by
  cases events with
  | nil => exact .inr ⟨_, _, rfl, pending_settle ch, List.nil_suffix⟩
  | cons e events =>
    have hsuf : events <:+ e :: events := List.suffix_cons e events
    cases e with
    | arrive n => exact .inr ⟨_, _, rfl, pending_arrive ch n, hsuf⟩
    | fails errno => exact .inl ⟨_, rfl, hsuf⟩
    | again => exact .inr ⟨_, _, rfl, rfl, hsuf⟩
    | accept n => exact .inr ⟨_, _, rfl, rfl, hsuf⟩
    | timeout => exact .inr ⟨_, _, rfl, rfl, hsuf⟩
    | selectFails => exact .inr ⟨_, _, rfl, rfl, hsuf⟩
    | endOfFile => exact .inr ⟨_, _, rfl, rfl, hsuf⟩

/-- What a poll leaves behind. -/
def Link.afterPoll (l : Link S) (ch : Channel Char) (events : List NetEvent) : Link S :=
  { l with
    channel := ch
    schedule := events
    polls := l.polls ++ [(ch.arrived.length, ch.flight.length)] }

/-- **Polling** moves bytes, but reads none; its outcome is on record. -/
theorem smarticSocketAvailable_spec (l : Link S) (hl : l.connected = true) :
    ∃ r l', smarticSocketAvailable.run l = .ok (r, l') ∧
      (l'.trouble = true ∨ ∃ ch events, events <:+ l.schedule ∧
        ch.pending = l.channel.pending ∧ r = some ch.arrived.length ∧
        l' = l.afterPoll ch events) := by
  have hguard : ¬(!l.connected) = true := by simp [hl]
  rcases look_cases l.schedule l.channel with ⟨events, h, -⟩ | ⟨ch, events, h, hpend, hsuf⟩
  · refine ⟨none, { l with schedule := events, trouble := true }, ?_, .inl rfl⟩
    show smarticSocketAvailable l = _
    rw [smarticSocketAvailable, if_neg hguard, h]
  · refine ⟨_, l.afterPoll ch events, ?_, .inr ⟨ch, events, hsuf, hpend, rfl, rfl⟩⟩
    show smarticSocketAvailable l = _
    rw [smarticSocketAvailable, if_neg hguard, h]
    rfl

/-- What an arrival, a piece of the line and a look at the schedule keep, and what trouble keeps,
a write keeps. -/
theorem writeAll_keeps {I : Link S → Prop}
    (harrive : ∀ l n, I l → I { l with channel := l.channel.arrive n })
    (hdeliver : ∀ l piece, I l → I (deliver W fuel l piece))
    (hschedule : ∀ l events, I l → I { l with schedule := events })
    (htrouble : ∀ l, I l → I { l with trouble := true }) (events : List NetEvent) {l : Link S}
    (h : I l) (text : Text) : I (writeAll W fuel events l text).2 := by
  induction events generalizing l text with
  | nil =>
    rw [writeAll]
    split
    · exact hschedule l _ h
    · exact hschedule _ _ (hdeliver l text h)
  | cons e events ih =>
    have hends : I { l with schedule := events, trouble := true } :=
      hschedule _ _ (htrouble l h)
    rw [writeAll.eq_def]
    split
    · exact hschedule l _ h
    cases e with
    | arrive n => exact ih (harrive l n h) text
    | again => exact ih h text
    | accept n =>
      dsimp only
      split
      · exact hends
      · exact ih (hdeliver l _ h) _
    | timeout => exact hends
    | selectFails => exact hends
    | fails errno => exact hends
    | endOfFile => exact hends

end Writing

/-! ### Trouble stays

Trouble is remembered by a flag that nothing clears.  So a run without trouble at its end had
none on its way.
-/

/-- A program that forgets no trouble, and halts only for a reason in `E`. -/
def Steady {α : Type} (E : Halt → Prop) (m : Client S α) : Prop :=
  ∀ l, l.trouble = true → Triple m l (fun _ l' => l'.trouble = true) E

section Steady

variable {α β : Type} {E : Halt → Prop} {m : Client S α} {f : α → Client S β}

theorem Steady.pure (a : α) : Steady E (pure a : Client S α) := fun _ h => h

theorem Steady.bind (hm : Steady E m) (hf : ∀ a, Steady E (f a)) : Steady E (m >>= f) :=
  fun l h => (hm l h).bind fun a l' h' => hf a l' h'

/-- No trouble afterwards, no trouble before. -/
theorem Steady.calm {l l' : Link S} {a : α} (hm : Steady E m) (hrun : m.run l = .ok (a, l'))
    (h : l'.trouble = false) : l.trouble = false := by
  by_contra hl
  have htrouble := (hm l (Bool.of_not_eq_false hl)).result hrun
  rw [h] at htrouble
  cases htrouble

theorem readChar_trouble {l : Link S} (h : l.trouble = true) : (readChar l).2.trouble = true := by
  rcases hawait : awaitChar l.schedule l.channel with ⟨r, ch, events⟩
  rw [readChar, hawait]
  cases r with
  | char c => exact h
  | timedOut => rfl
  | selectFailed => rfl
  | endOfFile => rfl
  | failed errno => rfl

theorem smarticSocketReadln_steady (len : Nat) : Steady (S := S) E (smarticSocketReadln len) :=
  fun _ h => smarticSocketReadln_keeps (fun _ h => readChar_trouble h) len h

theorem writeAll_trouble (W : Irda S) (fuel : Nat) (events : List NetEvent) {l : Link S}
    (h : l.trouble = true) (text : Text) : (writeAll W fuel events l text).2.trouble = true :=
  writeAll_keeps (I := fun l => l.trouble = true) (fun _ _ h => h) (fun _ _ h => h)
    (fun _ _ h => h) (fun _ _ => rfl) events h text

theorem smarticSocketWrite_steady (W : Irda S) (fuel : Nat) (text : Text) :
    Steady E (smarticSocketWrite W fuel text) := by
  intro l h
  by_cases hguard : !l.connected ∨ text = []
  · exact Triple.of_run (if_pos hguard) h
  · exact Triple.of_run (if_neg hguard) (writeAll_trouble W fuel l.schedule h text)

/-- The socket is polled. -/
theorem smarticSocketAvailable_steady : Steady (S := S) E smarticSocketAvailable := by
  intro l h
  by_cases hguard : (!l.connected) = true
  · exact Triple.of_run (if_pos hguard) h
  rcases hlook : look l.schedule l.channel with ⟨_ | ch, events⟩
  · have hrun : smarticSocketAvailable.run l =
        .ok (none, { l with schedule := events, trouble := true }) := by
      show smarticSocketAvailable l = _
      rw [smarticSocketAvailable, if_neg hguard, hlook]
    exact Triple.of_run hrun rfl
  · have hrun : smarticSocketAvailable.run l =
        .ok (some ch.arrived.length, l.afterPoll ch events) := by
      show smarticSocketAvailable l = _
      rw [smarticSocketAvailable, if_neg hguard, hlook]
      rfl
    exact Triple.of_run hrun h

end Steady

/-! ### Progress

Events and bytes in flight are counted.  Each read uses one of them, unless time runs out.
-/

/-- A look for a character uses up a character or an event, or times out. -/
theorem awaitChar_measure (events : List NetEvent) (ch : Channel Char) :
    (awaitChar events ch).1 = .timedOut ∨
      (awaitChar events ch).2.1.pending.length + (awaitChar events ch).2.2.length <
        ch.pending.length + events.length := by
  induction events generalizing ch with
  | nil =>
    rw [awaitChar]
    cases hrec : ch.settle.receive with
    | none => exact .inl rfl
    | some r =>
      have hpend := pending_of_receive hrec
      rw [pending_settle] at hpend
      right
      rw [hpend]
      exact Nat.lt_succ_self _
  | cons e events ih =>
    -- an event that is dropped is used up
    have hlater : awaitChar (e :: events) ch = awaitChar events ch →
        (awaitChar (e :: events) ch).1 = .timedOut ∨
          (awaitChar (e :: events) ch).2.1.pending.length +
            (awaitChar (e :: events) ch).2.2.length < ch.pending.length + (e :: events).length := by
      intro heq
      rw [heq]
      exact (ih ch).imp_right fun h => Nat.lt_succ_of_lt h
    cases e with
    | arrive n =>
      rw [awaitChar]
      cases hrec : (ch.arrive n).receive with
      | none =>
        have h := ih (ch.arrive n)
        rw [pending_arrive] at h
        exact h.imp_right fun h => Nat.lt_succ_of_lt h
      | some r =>
        have hpend := pending_of_receive hrec
        rw [pending_arrive] at hpend
        right
        rw [hpend]
        show r.2.pending.length + events.length <
          (r.2.pending.length + 1) + (events.length + 1)
        omega
    | again => exact hlater rfl
    | accept n => exact hlater rfl
    | timeout => exact .inl rfl
    | selectFails => exact .inr (Nat.lt_succ_self _)
    | fails errno => exact .inr (Nat.lt_succ_self _)
    | endOfFile => exact .inr (Nat.lt_succ_self _)

/-- A character that is read is gone. -/
theorem readChar_measure (l : Link S) :
    (readChar l).1 = .timedOut ∨ (readChar l).2.measure < l.measure := by
  have h := awaitChar_measure l.schedule l.channel
  rcases hawait : awaitChar l.schedule l.channel with ⟨r, ch, events⟩
  rw [hawait] at h
  rw [readChar, hawait]
  cases r with
  | char c => exact h.imp_left fun h => (nomatch h)
  | timedOut => exact .inl rfl
  | selectFailed => exact h.imp_left fun h => (nomatch h)
  | endOfFile => exact h.imp_left fun h => (nomatch h)
  | failed errno => exact h.imp_left fun h => (nomatch h)

/-- A line uses up a character or an event, or it times out or fails. -/
theorem smarticSocketReadln_measure (len : Nat) (l : Link S) :
    Triple (smarticSocketReadln len) l
      (fun r l' => r.timeout = true ∨ r.ret = -1 ∨ l'.measure < l.measure) never := by
  by_cases hguard : !l.connected ∨ len = 0
  · exact Triple.of_run (if_pos hguard) (.inr (.inl rfl))
  obtain ⟨r, l', hreturns, hrun⟩ := smarticSocketReadln_returns hguard
  apply Triple.of_run hrun
  refine hreturns.invariant (I := fun s => s.1.measure ≤ l.measure)
    (Q := fun r => r.1.timeout = true ∨ r.1.ret = -1 ∨ r.2.measure < l.measure) ?_ ?_ le_rfl
  · rintro ⟨l₁, buf⟩ s' hle hnext
    rcases readlnPass_cases len l₁ buf with ⟨c, ch, events, hpend, hsuf, hpass⟩ | ⟨r, l', hpass, -⟩
    · have hlen := congrArg List.length hpend
      have hlt : ch.pending.length + events.length ≤ l₁.measure := by
        rw [List.length_cons] at hlen
        have hsuf := hsuf.length_le
        show _ ≤ l₁.channel.pending.length + l₁.schedule.length
        omega
      rcases hpass with ⟨-, hpass⟩ | ⟨-, hpass⟩
      · rw [hpass] at hnext
        rw [← Iter.next.inj hnext]
        exact hlt.trans hle
      · rw [hpass] at hnext
        cases hnext
    · rw [hpass] at hnext
      cases hnext
  · rintro ⟨l₁, buf⟩ ⟨r, l₂⟩ hle hstop
    have hmeasure := readChar_measure l₁
    rcases hread : readChar l₁ with ⟨res, l'⟩
    rw [hread] at hmeasure
    rw [readlnPass, hread] at hstop
    -- the last character or event has been used up by this look
    have hless : res ≠ .timedOut → l' = l₂ → l₂.measure < l.measure := by
      rintro hres rfl
      exact (hmeasure.resolve_left hres).trans_le hle
    cases res with
    | char c =>
      dsimp only at hstop
      split at hstop
      · cases hstop
        exact .inr (.inr (hless (fun h => (nomatch h)) rfl))
      · cases hstop
    | timedOut =>
      left
      cases hstop
      exact endOfLine_timeout buf true
    | selectFailed =>
      cases hstop
      exact .inr (.inr (hless (fun h => (nomatch h)) rfl))
    | endOfFile =>
      cases hstop
      exact .inr (.inr (hless (fun h => (nomatch h)) rfl))
    | failed errno =>
      cases hstop
      exact .inr (.inl rfl)

/-- A poll takes nothing away. -/
theorem smarticSocketAvailable_measure (l : Link S) :
    Triple smarticSocketAvailable l (fun _ l' => l'.measure ≤ l.measure) never := by
  by_cases hguard : (!l.connected) = true
  · exact Triple.of_run (if_pos hguard) le_rfl
  rcases look_cases l.schedule l.channel with ⟨events, h, hsuf⟩ | ⟨ch, events, h, hpend, hsuf⟩
  · have hrun : smarticSocketAvailable.run l =
        .ok (none, { l with schedule := events, trouble := true }) := by
      show smarticSocketAvailable l = _
      rw [smarticSocketAvailable, if_neg hguard, h]
    exact Triple.of_run hrun (Nat.add_le_add_left hsuf.length_le _)
  · have hrun : smarticSocketAvailable.run l =
        .ok (some ch.arrived.length, l.afterPoll ch events) := by
      show smarticSocketAvailable l = _
      rw [smarticSocketAvailable, if_neg hguard, h]
      rfl
    apply Triple.of_run hrun
    show ch.pending.length + events.length ≤ _
    rw [hpend]
    exact Nat.add_le_add_left hsuf.length_le _

end BenthosDc
