/-
BenthosDc/SmartiFraming.lean

Reading lines from the network socket, down to the system calls (`smarti_client.c`).

`smartic_socket_readln` reads one byte after the other.  For each of them it waits in the
loop that the macros `BEGIN_SELECT_LOOP` and `END_SELECT_LOOP` open and close, and makes a
`read` that would block again as long as the client has a timeout; a `read` that is
interrupted starts this loop afresh.

* `readln_framing`: calls one after the other give the lines one after the other, whatever
  the kernel does in between.

`SmartiSocket` has the same function over a schedule of events, in which a `read` that has to
be made again leaves no trace.
-/
import BenthosDc.IrdaKernel
import BenthosDc.Lib.Lines
import BenthosDc.SmartiSocket

namespace BenthosDc

open CString Loop

variable {S : Type}

/-! ### System calls

The kernel answers `select`, `read` and the clock in an order of its own, from a state that
each call moves on.
-/

/-- How a `read` of one byte ends. -/
inductive NetRead
  | char (c : Char)
  | endOfFile
  /-- EAGAIN or EWOULDBLOCK -/
  | again
  /-- EINTR -/
  | interrupted
  | failed (errno : Int)
  deriving DecidableEq

/-- The kernel behind the network socket. -/
structure NetKernel (S : Type) where
  /-- `clock() * 1000 / CLOCKS_PER_SEC` -/
  clock : S → Int
  /-- `smartic_socket_select` for reading, with the interval -/
  select : S → Int → SelectResult × S
  read : S → NetRead × S

/-- `struct smarti_client_t_`, as far as the socket needs it.  The timeout is set to a positive
number when the client is allocated and whenever it is changed. -/
structure NetSocket where
  s : Int
  timeout : Int
  timeout_pos : 0 < timeout

/-- `IS_SELECTABLE` -/
def NetSocket.isSelectable (c : NetSocket) : Bool := 0 ≤ c.s && c.s < fdSetsize

/-- `EAGAIN` of errno.h. -/
def eagain : Int := 11

/-! ### The select loop

Each round waits in `select` and asks for the socket.  The time that is left is computed again
from the clock before the next one.
-/

/-- One pass of the select loop: the state and the interval. -/
def selectRound (K : NetKernel S) (c : NetSocket) (deadline : Int) :
    S × Int → Iter (S × Int) (SelectResult × Option NetRead × S)
  | (w, interval) =>
    match K.select w interval with
    | (.ready, w) =>
      match K.read w with
      | (.again, w) =>
        if 0 < c.timeout then .next (w, deadline - K.clock w)
        else .stop (.ready, some .again, w)
      | (r, w) => .stop (.ready, some r, w)
    | (timeout, w) => .stop (timeout, none, w)

/-- The whole loop, for at most `fuel` passes. -/
def awaitByte (K : NetKernel S) (c : NetSocket) (fuel : Nat) (w : S) :
    Iter (S × Int) (SelectResult × Option NetRead × S) :=
  iterate (selectRound K c (K.clock w + c.timeout)) fuel (w, c.timeout)

/-! ### Reading a line

One byte is read at a time, until a line end, the size of the buffer, a timeout or an error.
-/

/-- What becomes of the line behind the select loop. -/
def readlnByte (len : Nat) (buf : Text) :
    SelectResult × Option NetRead × S → Iter (S × Text) (LineResult × S)
  | (_, some (.char ch), w) =>
    if ch = '\n' then .stop (⟨buf.length, false, 0, some buf⟩, w)
    else .next (w, if buf.length < len - 1 then buf ++ [ch] else buf)
  | (_, some .interrupted, w) => .next (w, buf)
  | (_, some .endOfFile, w) => .stop (endOfLine buf false, w)
  | (_, some .again, w) => .stop (⟨-1, false, eagain, none⟩, w)
  | (_, some (.failed errno), w) => .stop (⟨-1, false, errno, none⟩, w)
  | (timeout, none, w) => .stop (endOfLine buf (timeout = .timedOut), w)

/-- One pass of the loop of `smartic_socket_readln`; `none` is a select loop that takes more
than `fuel` passes. -/
def readlnRound (K : NetKernel S) (c : NetSocket) (len fuel : Nat) :
    S × Text → Iter (S × Text) (Option (LineResult × S))
  | (w, buf) =>
    match awaitByte K c fuel w with
    | .next _ => .stop none
    | .stop r =>
      match readlnByte len buf r with
      | .next st => .next st
      | .stop r => .stop (some r)

/-- `smartic_socket_readln`, with both loops for at most `fuel` passes. -/
def NetKernel.readln (K : NetKernel S) (c : NetSocket) (fuel len : Nat) (w : S) :
    Option (LineResult × S) :=
  if !c.isSelectable ∨ len = 0 then some (⟨-1, false, einval, none⟩, w)
  else
    match iterate (readlnRound K c len fuel) fuel (w, []) with
    | .stop r => r
    | .next _ => none

/-- Calls of `smartic_socket_readln` one after the other, with buffers of the lengths `lens`. -/
def NetKernel.readlns (K : NetKernel S) (c : NetSocket) (fuel : Nat) :
    List Nat → S → Option (List LineResult × S)
  | [], w => some ([], w)
  | len :: lens, w =>
    match K.readln c fuel len w with
    | none => none
    | some (r, w) =>
      match K.readlns c fuel lens w with
      | none => none
      | some (rs, w) => some (r :: rs, w)

/-! ### Streams

The reads that a kernel makes of a stream are followed from state to state.  A byte that has
been delivered is gone from the rest of the stream.
-/

/-- What a `read` leaves of the stream. -/
def NetRead.remaining (stream : Text) : NetRead → Text
  | .char _ => stream.tail
  | _ => stream

/-- The socket hands out the stream: it is ready whenever it is waited for, and a `read` gives
the next byte of the stream, if it is not one that has to be made again.  What comes behind
the stream is left open. -/
inductive Delivers (K : NetKernel S) : Text → S → Prop
  | nil {w : S} : Delivers K [] w
  | wait {stream : Text} {w : S} :
      (∀ interval, (K.select w interval).1 = .ready) →
      (∀ interval, (K.read (K.select w interval).2).1 = .again ∨
        (K.read (K.select w interval).2).1 = .interrupted ∨
        ∃ ch, (K.read (K.select w interval).2).1 = .char ch ∧ ch ∈ stream.head?) →
      (∀ interval, Delivers K ((K.read (K.select w interval).2).1.remaining stream)
        (K.read (K.select w interval).2).2) →
      Delivers K stream w

section Line

variable {K : NetKernel S} {c : NetSocket} {len fuel : Nat} {w w' : S} {stream : Text}

/-- The loop of `smartic_socket_readln` from within its select loop on: `f` passes are left for
the select loop, and `k` for the loop itself. -/
def resume (K : NetKernel S) (c : NetSocket) (len fuel f k : Nat) (deadline interval : Int)
    (buf : Text) (w : S) : Iter (S × Text) (Option (LineResult × S)) :=
  match iterate (selectRound K c deadline) f (w, interval) with
  | .next _ => .stop none
  | .stop r =>
    match readlnByte len buf r with
    | .next st => iterate (readlnRound K c len fuel) k st
    | .stop r => .stop (some r)

/-- The select loop is started. -/
theorem iterate_readlnRound (k : Nat) (buf : Text) :
    iterate (readlnRound K c len fuel) (k + 1) (w, buf) =
      resume K c len fuel fuel k (K.clock w + c.timeout) c.timeout buf w := by
  rw [iterate, readlnRound, resume, awaitByte]
  cases iterate (selectRound K c (K.clock w + c.timeout)) fuel (w, c.timeout) with
  | next st => rfl
  | stop r =>
    dsimp only
    cases readlnByte len buf r with
    | next st => rfl
    | stop r => rfl

/-- The calls of one pass of the select loop. -/
def polled (K : NetKernel S) (w : S) (interval : Int) : NetRead × S :=
  K.read (K.select w interval).2

/-- A `read` that would block is made again. -/
theorem resume_again {f k : Nat} {deadline interval : Int} {buf : Text}
    (hready : (K.select w interval).1 = .ready) (hread : polled K w interval = (.again, w')) :
    resume K c len fuel (f + 1) k deadline interval buf w =
      resume K c len fuel f k deadline (deadline - K.clock w') buf w' := by
  have hround : selectRound K c deadline (w, interval) = .next (w', deadline - K.clock w') := by
    rcases hselect : K.select w interval with ⟨r, w₁⟩
    rw [polled, hselect] at hread
    rw [hselect] at hready
    cases hready
    rw [selectRound, hselect]
    dsimp only
    rw [hread]
    exact if_pos c.timeout_pos
  rw [resume, iterate_succ_next hround, resume]

/-- Any other `read` ends the select loop. -/
theorem resume_read {f k : Nat} {deadline interval : Int} {buf : Text} {r : NetRead}
    (hready : (K.select w interval).1 = .ready) (hread : polled K w interval = (r, w'))
    (hr : r ≠ .again) :
    resume K c len fuel (f + 1) k deadline interval buf w =
      match readlnByte len buf (.ready, some r, w') with
      | .next st => iterate (readlnRound K c len fuel) k st
      | .stop r => .stop (some r) := by
  have hround : selectRound K c deadline (w, interval) = .stop (.ready, some r, w') := by
    rcases hselect : K.select w interval with ⟨r', w₁⟩
    rw [polled, hselect] at hread
    rw [hselect] at hready
    cases hready
    rw [selectRound, hselect]
    dsimp only
    rw [hread]
    cases r with
    | again => exact absurd rfl hr
    | _ => rfl
  rw [resume, iterate_succ_stop hround]

/-- **One line**, whatever has been read of it: both loops together end within some number of
passes. -/
theorem resume_line (len : Nat) (h : Delivers K stream w) {line rest : Text}
    (hstream : stream = line ++ '\n' :: rest) (hline : '\n' ∉ line) (front : Text)
    (deadline interval : Int) :
    ∃ n w', Delivers K rest w' ∧ ∀ fuel f k, n ≤ fuel → n ≤ f → n ≤ k →
      resume K c len fuel f k deadline interval (front.take (len - 1)) w =
        .stop (some (lineResult len (front ++ line), w')) := by
  induction h generalizing line front deadline interval with
  | nil =>
    have hlen := congrArg List.length hstream
    simp at hlen
  | @wait stream w hready hread hrest ih =>
    rcases hpoll : polled K w interval with ⟨r, w₁⟩
    have hread := hread interval
    have hrest := hrest interval
    have ih := @ih interval
    rw [show K.read (K.select w interval).2 = (r, w₁) from hpoll] at hread hrest ih
    dsimp only at hread hrest ih
    rcases hread with rfl | rfl | ⟨ch, rfl, hch⟩
    · -- the read would block
      obtain ⟨n, w', hw', hrun⟩ := ih hstream hline front deadline (deadline - K.clock w₁)
      refine ⟨n + 1, w', hw', fun fuel f k hfuel hf hk => ?_⟩
      obtain ⟨f, rfl⟩ : ∃ m, f = m + 1 := ⟨f - 1, by omega⟩
      rw [resume_again (hready interval) hpoll]
      exact hrun fuel f k (by omega) (by omega) (by omega)
    · -- the read is interrupted
      obtain ⟨n, w', hw', hrun⟩ := ih hstream hline front (K.clock w₁ + c.timeout) c.timeout
      refine ⟨n + 1, w', hw', fun fuel f k hfuel hf hk => ?_⟩
      obtain ⟨f, rfl⟩ : ∃ m, f = m + 1 := ⟨f - 1, by omega⟩
      obtain ⟨k, rfl⟩ : ∃ m, k = m + 1 := ⟨k - 1, by omega⟩
      rw [resume_read (hready interval) hpoll (by decide)]
      show iterate (readlnRound K c len fuel) (k + 1) (w₁, front.take (len - 1)) = _
      rw [iterate_readlnRound]
      exact hrun fuel fuel k (by omega) (by omega) (by omega)
    · cases line with
      | nil =>
        -- the line ends here
        subst hstream
        cases hch
        refine ⟨1, w₁, hrest, fun fuel f k hfuel hf hk => ?_⟩
        obtain ⟨f, rfl⟩ : ∃ m, f = m + 1 := ⟨f - 1, by omega⟩
        rw [resume_read (hready interval) hpoll (by decide), List.append_nil]
        rfl
      | cons d line =>
        subst hstream
        cases hch
        rw [List.mem_cons, not_or] at hline
        obtain ⟨n, w', hw', hrun⟩ :=
          ih rfl hline.2 (front ++ [ch]) (K.clock w₁ + c.timeout) c.timeout
        refine ⟨n + 1, w', hw', fun fuel f k hfuel hf hk => ?_⟩
        obtain ⟨f, rfl⟩ : ∃ m, f = m + 1 := ⟨f - 1, by omega⟩
        obtain ⟨k, rfl⟩ : ∃ m, k = m + 1 := ⟨k - 1, by omega⟩
        have hbyte : readlnByte len (front.take (len - 1)) (.ready, some (.char ch), w₁) =
            .next (w₁, (front ++ [ch]).take (len - 1)) := by
          rw [readlnByte, if_neg (Ne.symm hline.1), take_concat]
        rw [resume_read (hready interval) hpoll (fun h => nomatch h), hbyte]
        dsimp only
        rw [iterate_readlnRound, hrun fuel fuel k (by omega) (by omega) (by omega),
          List.append_assoc]
        rfl

/-- **One call** takes one line from the stream, and nothing of what comes behind it. -/
theorem readln_line (hc : c.isSelectable = true) (hlen : len ≠ 0) {line rest : Text}
    (h : Delivers K (line ++ '\n' :: rest) w) (hline : '\n' ∉ line) :
    ∃ n w', Delivers K rest w' ∧
      ∀ fuel, n ≤ fuel → K.readln c fuel len w = some (lineResult len line, w') := by
  obtain ⟨n, w', hw', hrun⟩ :=
    resume_line len h rfl hline [] (K.clock w + c.timeout) c.timeout
  refine ⟨n + 1, w', hw', fun fuel hfuel => ?_⟩
  obtain ⟨fuel, rfl⟩ : ∃ m, fuel = m + 1 := ⟨fuel - 1, by omega⟩
  have hrun := hrun (fuel + 1) (fuel + 1) fuel (by omega) (by omega) (by omega)
  rw [List.take_nil, List.nil_append, ← iterate_readlnRound] at hrun
  rw [NetKernel.readln, if_neg, hrun]
  rw [hc]
  rintro (h | h)
  · cases h
  · exact hlen h

end Line

/-! ### Lines one after the other

A line that does not fit is cut, and the rest of it is dropped.
-/

/-- What stands behind the first line of a stream. -/
def dropLine (stream : Text) : Text := (stream.dropWhile (· ≠ '\n')).tail

/-- What stands behind the first `n` lines. -/
def dropLines : Nat → Text → Text
  | 0, stream => stream
  | n + 1, stream => dropLines n (dropLine stream)

/-- Behind the first line. -/
theorem dropLine_line {line : Text} (hline : '\n' ∉ line) (rest : Text) :
    dropLine (line ++ '\n' :: rest) = rest := by
  have hpass : ∀ c ∈ line, (decide (c ≠ '\n')) = true := by
    intro c hc
    exact decide_eq_true fun heq => hline (heq ▸ hc)
  rw [dropLine, List.dropWhile_append_of_pos hpass]
  rfl

/-- A stream with a line in it starts with one. -/
theorem exists_line {stream : Text} (h : Lines.lines '\n' stream ≠ []) :
    ∃ line rest, stream = line ++ '\n' :: rest ∧ '\n' ∉ line := by
  have hmem : '\n' ∈ stream := by
    by_contra hnot
    apply h
    rw [Lines.lines, List.splitOn_eq_singleton hnot]
    rfl
  obtain ⟨line, rest, rfl, hline⟩ := List.eq_append_cons_of_mem hmem
  exact ⟨line, rest, rfl, hline⟩

/-- **Calls one after the other give the lines one after the other**, each cut to what fits
into its buffer, for any stream and whatever happens between its bytes. -/
theorem readln_framing {K : NetKernel S} {c : NetSocket} (hc : c.isSelectable = true) {w : S}
    {stream : Text} (h : Delivers K stream w) (lens : List Nat) (hlens : ∀ len ∈ lens, 2 ≤ len)
    (hcount : lens.length ≤ (Lines.lines '\n' stream).length) :
    ∃ n w', Delivers K (dropLines lens.length stream) w' ∧ ∀ fuel, n ≤ fuel →
      K.readlns c fuel lens w =
        some (List.zipWith lineResult lens (Lines.lines '\n' stream), w') := by
  induction lens generalizing stream w with
  | nil => exact ⟨0, w, h, fun fuel _ => rfl⟩
  | cons len lens ih =>
    -- there is a line for each of the buffers
    have hlines : Lines.lines '\n' stream ≠ [] := by
      intro hnil
      rw [hnil] at hcount
      cases hcount
    obtain ⟨line, rest, rfl, hline⟩ := exists_line hlines
    rw [Lines.lines_append_cons hline] at hcount ⊢
    have hlen : len ≠ 0 := by
      have := hlens len List.mem_cons_self
      omega
    obtain ⟨n₁, w₁, hw₁, hrun₁⟩ := readln_line hc hlen h hline
    obtain ⟨n₂, w₂, hw₂, hrun₂⟩ := ih hw₁ (fun m hm => hlens m (List.mem_cons_of_mem len hm))
      (Nat.le_of_succ_le_succ hcount)
    refine ⟨max n₁ n₂, w₂, ?_, fun fuel hfuel => ?_⟩
    · rw [List.length_cons, dropLines, dropLine_line hline]
      exact hw₂
    · rw [NetKernel.readlns, hrun₁ fuel (by omega)]
      dsimp only
      rw [hrun₂ fuel (by omega)]
      rfl

/-! ### Scripted reads

A kernel that follows a script of reads serves as an example, with every pattern of
interruptions.
-/

/-- A socket that is always ready, with the results of the reads. -/
def scriptedNet : NetKernel (List NetRead) where
  clock w := w.length
  select w _ := (.ready, w)
  read
    | [] => (.endOfFile, [])
    | r :: w => (r, w)

/-- The bytes among the results of the reads. -/
def bytesRead (w : List NetRead) : Text :=
  w.filterMap fun
    | .char ch => some ch
    | _ => none

/-- **Every stream can be handed out with any reads in between** that have to be made again. -/
theorem scriptedNet_delivers (w : List NetRead)
    (hw : ∀ r ∈ w, r = .again ∨ r = .interrupted ∨ ∃ ch, r = .char ch) :
    Delivers scriptedNet (bytesRead w) w := by
  induction w with
  | nil => exact .nil
  | cons r w ih =>
    have ih := ih fun r' hr' => hw r' (List.mem_cons_of_mem r hr')
    rcases hw r List.mem_cons_self with rfl | rfl | ⟨ch, rfl⟩
    · exact .wait (fun _ => rfl) (fun _ => .inl rfl) fun _ => ih
    · exact .wait (fun _ => rfl) (fun _ => .inr (.inl rfl)) fun _ => ih
    · exact .wait (fun _ => rfl) (fun _ => .inr (.inr ⟨ch, rfl, rfl⟩)) fun _ => ih

/-- Two lines, the first of them too long, with reads that have to be made again. -/
theorem readln_framing_cut :
    ∃ n w', Delivers scriptedNet (dropLines 2 ['a', 'b', 'c', '\n', '\n', 'd']) w' ∧
      ∀ fuel, n ≤ fuel →
        scriptedNet.readlns ⟨3, 2000, by decide⟩ fuel [3, 2]
            [.char 'a', .again, .char 'b', .interrupted, .char 'c', .char '\n', .again, .char '\n',
              .char 'd'] =
          some ([⟨2, false, 0, some ['a', 'b']⟩, ⟨0, false, 0, some []⟩], w') := by
  have hreads : ∀ r ∈ [NetRead.char 'a', .again, .char 'b', .interrupted, .char 'c', .char '\n',
      .again, .char '\n', .char 'd'], r = .again ∨ r = .interrupted ∨ ∃ ch, r = .char ch := by
    simp
  have h := scriptedNet_delivers _ hreads
  exact readln_framing rfl h [3, 2] (by decide) (by decide)

end BenthosDc
