/-
BenthosDc/SmartiOutcomes.lean

Reading a line from the network socket and writing one, for any sequence of outcomes of
`select`, `read` and `write`.

What the kernel does is a sequence of outcomes, one for each wait of the client.  `ReadsLine`
says what a sequence holds from a position on: the bytes of a line, and what comes behind
them.  `smartic_socket_readln` returns exactly what `ReadsLine` describes:

* `readln_of_reading`: with enough passes for its loops it comes to the end of the reading.
* `reading_of_readln`: where it returns, there is a reading.

`Sending` is the same for `smartic_socket_write`, with `sendWaits_of_sending` and
`sending_of_rounds`.
-/
import BenthosDc.SmartiFraming

namespace BenthosDc

open CString Loop

/-! ### Outcomes

A wait of the client ends in one way, which is named for what the client makes of it.
-/

/-- `EINTR` of errno.h. -/
def eintr : Int := 4

/-- An error number of `select`, which never fails with EAGAIN. -/
abbrev SelectErrno := { e : Int // e ≠ 0 ∧ e ≠ eagain }

/-- An error number of `read` or `write` at which neither is tried again. -/
abbrev Errno := { e : Int // e ≠ 0 ∧ e ≠ eagain ∧ e ≠ eintr }

/-- How a wait for a byte ends, together with the `read` behind it. -/
inductive NetOutcome
  | char (c : Char)
  | endOfFile
  | again
  | interrupted
  | failed (e : Errno)
  | timedOut
  | selectFailed (e : SelectErrno)
  deriving DecidableEq

/-- The outcome is the last one of a line. -/
def NetOutcome.ends : NetOutcome → Bool
  | .char c => c = '\n'
  | .again => false
  | .interrupted => false
  | _ => true

/-- A kernel that follows a sequence of outcomes.  Its state is the place in the sequence. -/
def outcomeNet (o : Nat → NetOutcome) (clock : Nat → Int) : NetKernel Nat where
  clock := clock
  select p _ :=
    match o p with
    | .timedOut => (.timedOut, p + 1)
    | .selectFailed _ => (.failed, p + 1)
    | _ => (.ready, p)
  read p :=
    match o p with
    | .char c => (.char c, p + 1)
    | .again => (.again, p + 1)
    | .interrupted => (.interrupted, p + 1)
    | .failed e => (.failed e.1, p + 1)
    | _ => (.endOfFile, p + 1)

/-- What `select` says of an outcome. -/
theorem select_outcomeNet (o : Nat → NetOutcome) (clock : Nat → Int) (p : Nat) (interval : Int) :
    (outcomeNet o clock).select p interval =
      match o p with
      | .timedOut => (.timedOut, p + 1)
      | .selectFailed _ => (.failed, p + 1)
      | _ => (.ready, p) := rfl

/-- What `read` says of an outcome. -/
theorem read_outcomeNet (o : Nat → NetOutcome) (clock : Nat → Int) (p : Nat) :
    (outcomeNet o clock).read p =
      match o p with
      | .char c => (.char c, p + 1)
      | .again => (.again, p + 1)
      | .interrupted => (.interrupted, p + 1)
      | .failed e => (.failed e.1, p + 1)
      | _ => (.endOfFile, p + 1) := rfl

/-! ### Readings

A reading is a derivation over the sequence, with one rule for each outcome.  From a position
there is one reading at most.
-/

/-- From the position `p` on there is a line `line`, with `fin` behind it; `q` is the position
behind `fin`. -/
inductive ReadsLine (o : Nat → NetOutcome) : Nat → Text → NetOutcome → Nat → Prop
  | ends {p : Nat} : (o p).ends = true → ReadsLine o p [] (o p) (p + 1)
  | char {p q : Nat} {c : Char} {line : Text} {fin : NetOutcome} :
      o p = .char c → c ≠ '\n' → ReadsLine o (p + 1) line fin q → ReadsLine o p (c :: line) fin q
  | retry {p q : Nat} {line : Text} {fin : NetOutcome} :
      o p = .again ∨ o p = .interrupted → ReadsLine o (p + 1) line fin q → ReadsLine o p line fin q

/-- What `smartic_socket_readln` makes of what it has stored, behind the last outcome. -/
def lineEnd (buf : Text) : NetOutcome → LineResult
  | .timedOut => endOfLine buf true
  | .selectFailed _ => endOfLine buf false
  | .endOfFile => endOfLine buf false
  | .failed e => ⟨-1, false, e.1, none⟩
  | _ => ⟨buf.length, false, 0, some buf⟩

section Readings

variable {o : Nat → NetOutcome} {clock : Nat → Int} {c : NetSocket} {len fuel p q q' : Nat}
  {line line' : Text} {fin fin' : NetOutcome}

/-- The last outcome is the one in front of the end. -/
theorem ReadsLine.fin_eq (h : ReadsLine o p line fin q) : fin = o (q - 1) := by
  induction h with
  | ends _ => rfl
  | char _ _ _ ih => exact ih
  | retry _ _ ih => exact ih

/-- **There is one reading at most.** -/
theorem ReadsLine.unique (h : ReadsLine o p line fin q) (h' : ReadsLine o p line' fin' q') :
    line = line' ∧ fin = fin' ∧ q = q' := by
  -- the outcome at `p` decides between the rules
  induction h generalizing line' with
  | ends hends =>
    cases h' with
    | ends _ => exact ⟨rfl, rfl, rfl⟩
    | char ho hc _ =>
      rw [ho] at hends
      exact absurd (of_decide_eq_true hends) hc
    | retry ho _ =>
      rcases ho with ho | ho <;> rw [ho] at hends <;> cases hends
  | char ho hc _ ih =>
    cases h' with
    | ends hends =>
      rw [ho] at hends
      exact absurd (of_decide_eq_true hends) hc
    | char ho' _ h' =>
      obtain ⟨rfl, rfl, rfl⟩ := ih h'
      rw [ho] at ho'
      cases ho'
      exact ⟨rfl, rfl, rfl⟩
    | retry ho' _ =>
      rw [ho] at ho'
      rcases ho' with ho' | ho' <;> cases ho'
  | retry ho _ ih =>
    cases h' with
    | ends hends =>
      rcases ho with ho | ho <;> rw [ho] at hends <;> cases hends
    | char ho' _ _ =>
      rw [ho'] at ho
      rcases ho with ho | ho <;> cases ho
    | retry _ h' => exact ih h'

/-! ### What is made of a line

The end of the reading is the result: the bytes, the length, and whether time ran out.
-/

/-- The read fails exactly if the kernel does. -/
theorem lineEnd_ret_eq_iff (buf : Text) (fin : NetOutcome) :
    (lineEnd buf fin).ret = -1 ↔ ∃ e, fin = .failed e := by
  have hne : ∀ n : Nat, (n : Int) ≠ -1 := fun n h => by omega
  cases fin with
  | failed e => exact iff_of_true rfl ⟨e, rfl⟩
  | timedOut => exact iff_of_false (endOfLine_ret buf true ▸ hne _) fun ⟨_, h⟩ => (nomatch h)
  | endOfFile => exact iff_of_false (endOfLine_ret buf false ▸ hne _) fun ⟨_, h⟩ => (nomatch h)
  | selectFailed e => exact iff_of_false (endOfLine_ret buf false ▸ hne _) fun ⟨_, h⟩ => (nomatch h)
  | _ => exact iff_of_false (hne _) fun ⟨_, h⟩ => (nomatch h)

/-- Otherwise the length is returned. -/
theorem lineEnd_ret {buf : Text} (h : ¬(lineEnd buf fin).ret = -1) :
    (lineEnd buf fin).ret = buf.length := by
  cases fin with
  | failed e => exact absurd rfl h
  | timedOut => exact endOfLine_ret buf true
  | endOfFile => exact endOfLine_ret buf false
  | selectFailed e => exact endOfLine_ret buf false
  | _ => rfl

/-- Time has run out exactly if a wait did. -/
theorem lineEnd_timeout_iff (buf : Text) (fin : NetOutcome) :
    (lineEnd buf fin).timeout = true ↔ fin = .timedOut := by
  cases fin with
  | timedOut => exact iff_of_true (endOfLine_timeout buf true) rfl
  | endOfFile =>
    exact iff_of_false (by rw [lineEnd, endOfLine_timeout]; decide) fun h => (nomatch h)
  | selectFailed e =>
    exact iff_of_false (by rw [lineEnd, endOfLine_timeout]; decide) fun h => (nomatch h)
  | _ => exact iff_of_false (fun h => (nomatch h)) fun h => (nomatch h)

/-! ### One outcome

One lemma for each outcome: what the loop does with it, and where it goes on.
-/

/-- A wait that ends without a `read`. -/
theorem resume_wait {f k : Nat} {deadline interval : Int} {buf : Text}
    (ho : o p = .timedOut ∨ ∃ e, o p = .selectFailed e) :
    resume (outcomeNet o clock) c len fuel (f + 1) k deadline interval buf p =
      .stop (some (lineEnd buf (o p), p + 1)) := by
  have hround : selectRound (outcomeNet o clock) c deadline (p, interval) =
      .stop ((if o p = .timedOut then .timedOut else .failed), none, p + 1) := by
    rcases ho with ho | ⟨e, ho⟩ <;> simp only [selectRound, select_outcomeNet, ho]
    · rfl
    · rfl
  rw [resume, iterate_succ_stop hround]
  rcases ho with ho | ⟨e, ho⟩ <;> rw [ho] <;> rfl

/-- An outcome that ends the line ends the loops. -/
theorem resume_ends {f k : Nat} {deadline interval : Int} {buf : Text}
    (h : (o p).ends = true) :
    resume (outcomeNet o clock) c len fuel (f + 1) k deadline interval buf p =
      .stop (some (lineEnd buf (o p), p + 1)) := by
  cases ho : o p with
  | timedOut => rw [← ho]; exact resume_wait (.inl ho)
  | selectFailed e => rw [← ho]; exact resume_wait (.inr ⟨e, ho⟩)
  | again => rw [ho] at h; cases h
  | interrupted => rw [ho] at h; cases h
  | char ch =>
    rw [ho] at h
    obtain rfl : ch = '\n' := of_decide_eq_true h
    have hpoll : polled (outcomeNet o clock) p interval = (.char '\n', p + 1) := by
      simp only [polled, select_outcomeNet, read_outcomeNet, ho]
    rw [resume_read (by simp only [select_outcomeNet, ho]) hpoll (by rintro ⟨⟩)]
    rfl
  | endOfFile =>
    have hpoll : polled (outcomeNet o clock) p interval = (.endOfFile, p + 1) := by
      simp only [polled, select_outcomeNet, read_outcomeNet, ho]
    rw [resume_read (by simp only [select_outcomeNet, ho]) hpoll (by rintro ⟨⟩)]
    rfl
  | failed e =>
    have hpoll : polled (outcomeNet o clock) p interval = (.failed e.1, p + 1) := by
      simp only [polled, select_outcomeNet, read_outcomeNet, ho]
    rw [resume_read (by simp only [select_outcomeNet, ho]) hpoll (by rintro ⟨⟩)]
    rfl

/-- A byte is stored, as far as there is room. -/
theorem resume_char {f k : Nat} {deadline interval : Int} {ch : Char} (ho : o p = .char ch)
    (hch : ch ≠ '\n') (front : Text) :
    resume (outcomeNet o clock) c len fuel (f + 1) k deadline interval (front.take (len - 1)) p =
      iterate (readlnRound (outcomeNet o clock) c len fuel) k
        (p + 1, (front ++ [ch]).take (len - 1)) := by
  have hpoll : polled (outcomeNet o clock) p interval = (.char ch, p + 1) := by
    simp only [polled, select_outcomeNet, read_outcomeNet, ho]
  have hbyte : readlnByte len (front.take (len - 1)) (.ready, some (.char ch), p + 1) =
      .next (p + 1, (front ++ [ch]).take (len - 1)) := by
    rw [readlnByte, if_neg hch, take_concat]
  rw [resume_read (by simp only [select_outcomeNet, ho]) hpoll (by rintro ⟨⟩), hbyte]

/-- An interruption starts the wait afresh. -/
theorem resume_interrupted {f k : Nat} {deadline interval : Int} {buf : Text}
    (ho : o p = .interrupted) :
    resume (outcomeNet o clock) c len fuel (f + 1) k deadline interval buf p =
      iterate (readlnRound (outcomeNet o clock) c len fuel) k (p + 1, buf) := by
  have hpoll : polled (outcomeNet o clock) p interval = (.interrupted, p + 1) := by
    simp only [polled, select_outcomeNet, read_outcomeNet, ho]
  rw [resume_read (by simp only [select_outcomeNet, ho]) hpoll (by rintro ⟨⟩)]
  rfl

/-- A read that would block goes on with the time that is left. -/
theorem resume_wouldBlock {f k : Nat} {deadline interval : Int} {buf : Text} (ho : o p = .again) :
    resume (outcomeNet o clock) c len fuel (f + 1) k deadline interval buf p =
      resume (outcomeNet o clock) c len fuel f k deadline (deadline - clock (p + 1)) buf (p + 1) := by
  have hpoll : polled (outcomeNet o clock) p interval = (.again, p + 1) := by
    simp only [polled, select_outcomeNet, read_outcomeNet, ho]
  exact resume_again (by simp only [select_outcomeNet, ho]) hpoll

/-! ### Whole lines

Both directions: a reading makes the loop return, and a loop that returns has gone through a
reading.
-/

/-- **A reading is what the loop does**, with enough fuel. -/
theorem resume_of_reading (len : Nat) (h : ReadsLine o p line fin q) (front : Text)
    (deadline interval : Int) :
    ∃ n, ∀ fuel f k, n ≤ fuel → n ≤ f → n ≤ k →
      resume (outcomeNet o clock) c len fuel f k deadline interval (front.take (len - 1)) p =
        .stop (some (lineEnd ((front ++ line).take (len - 1)) fin, q)) := by
  -- each outcome takes one more pass, of the select loop or of the one around it
  induction h generalizing front deadline interval with
  | @ends p hends =>
    refine ⟨1, fun fuel f k _ hf _ => ?_⟩
    obtain ⟨f, rfl⟩ : ∃ m, f = m + 1 := ⟨f - 1, by omega⟩
    rw [resume_ends hends, List.append_nil]
  | @char p q ch line fin ho hch _ ih =>
    obtain ⟨n, hrun⟩ := ih (front ++ [ch]) (clock (p + 1) + c.timeout) c.timeout
    refine ⟨n + 1, fun fuel f k hfuel hf hk => ?_⟩
    obtain ⟨f, rfl⟩ : ∃ m, f = m + 1 := ⟨f - 1, by omega⟩
    obtain ⟨k, rfl⟩ : ∃ m, k = m + 1 := ⟨k - 1, by omega⟩
    rw [resume_char ho hch, iterate_readlnRound,
      show (outcomeNet o clock).clock (p + 1) = clock (p + 1) from rfl,
      hrun fuel fuel k (by omega) (by omega) (by omega), List.append_assoc]
    rfl
  | @retry p q line fin ho _ ih =>
    rcases ho with ho | ho
    · obtain ⟨n, hrun⟩ := ih front deadline (deadline - clock (p + 1))
      refine ⟨n + 1, fun fuel f k hfuel hf hk => ?_⟩
      obtain ⟨f, rfl⟩ : ∃ m, f = m + 1 := ⟨f - 1, by omega⟩
      rw [resume_wouldBlock ho, hrun fuel f k (by omega) (by omega) (by omega)]
    · obtain ⟨n, hrun⟩ := ih front (clock (p + 1) + c.timeout) c.timeout
      refine ⟨n + 1, fun fuel f k hfuel hf hk => ?_⟩
      obtain ⟨f, rfl⟩ : ∃ m, f = m + 1 := ⟨f - 1, by omega⟩
      obtain ⟨k, rfl⟩ : ∃ m, k = m + 1 := ⟨k - 1, by omega⟩
      rw [resume_interrupted ho, iterate_readlnRound,
        show (outcomeNet o clock).clock (p + 1) = clock (p + 1) from rfl,
        hrun fuel fuel k (by omega) (by omega) (by omega)]

/-- One line from within the select loop on, where `k` passes of the outer loop are right. -/
theorem reading_of_resume {f k : Nat} {deadline interval : Int} {front : Text} {r : LineResult}
    (hk : ∀ p front, iterate (readlnRound (outcomeNet o clock) c len fuel) k
        (p, front.take (len - 1)) = .stop (some (r, q)) →
      ∃ line fin, ReadsLine o p line fin q ∧ r = lineEnd ((front ++ line).take (len - 1)) fin)
    (h : resume (outcomeNet o clock) c len fuel f k deadline interval (front.take (len - 1)) p =
      .stop (some (r, q))) :
    ∃ line fin, ReadsLine o p line fin q ∧ r = lineEnd ((front ++ line).take (len - 1)) fin := by
  -- on the passes of the select loop: only EAGAIN stays within it
  induction f generalizing interval p with
  | zero => cases h
  | succ f ihf =>
    by_cases hends : (o p).ends = true
    · rw [resume_ends hends] at h
      cases h
      exact ⟨[], o p, .ends hends, by rw [List.append_nil]⟩
    cases ho : o p with
    | again =>
      rw [resume_wouldBlock ho] at h
      obtain ⟨line, fin, hline, hr⟩ := ihf h
      exact ⟨line, fin, .retry (.inl ho) hline, hr⟩
    | interrupted =>
      rw [resume_interrupted ho] at h
      obtain ⟨line, fin, hline, hr⟩ := hk (p + 1) front h
      exact ⟨line, fin, .retry (.inr ho) hline, hr⟩
    | char ch =>
      rw [ho] at hends
      have hch : ch ≠ '\n' := fun hch => hends (decide_eq_true hch)
      rw [resume_char ho hch] at h
      obtain ⟨line, fin, hline, hr⟩ := hk (p + 1) (front ++ [ch]) h
      refine ⟨ch :: line, fin, .char ho hch hline, ?_⟩
      rw [hr, List.append_assoc]
      rfl
    | _ => rw [ho] at hends; exact absurd rfl hends

/-- Passes of the loop that stop are a reading. -/
theorem reading_of_rounds {k : Nat} {front : Text} {r : LineResult}
    (h : iterate (readlnRound (outcomeNet o clock) c len fuel) k (p, front.take (len - 1)) =
      .stop (some (r, q))) :
    ∃ line fin, ReadsLine o p line fin q ∧ r = lineEnd ((front ++ line).take (len - 1)) fin := by
  induction k generalizing p front with
  | zero => cases h
  | succ k ih =>
    rw [iterate_readlnRound] at h
    exact reading_of_resume (fun p front hrest => ih hrest) h

/-- **A reading is returned**, if the loops are granted enough passes. -/
theorem readln_of_reading (hc : c.isSelectable = true) (hlen : len ≠ 0)
    (h : ReadsLine o p line fin q) :
    ∃ n, ∀ fuel, n ≤ fuel → (outcomeNet o clock).readln c fuel len p =
      some (lineEnd (line.take (len - 1)) fin, q) := by
  obtain ⟨n, hrun⟩ := resume_of_reading len h [] (clock p + c.timeout) c.timeout
  refine ⟨n + 1, fun fuel hfuel => ?_⟩
  obtain ⟨fuel, rfl⟩ : ∃ m, fuel = m + 1 := ⟨fuel - 1, by omega⟩
  have hrun := hrun (fuel + 1) (fuel + 1) fuel (by omega) (by omega) (by omega)
  rw [List.take_nil, List.nil_append] at hrun
  have hguard : ¬((!c.isSelectable) = true ∨ len = 0) := by simp [hc, hlen]
  rw [NetKernel.readln, if_neg hguard, iterate_readlnRound,
    show (outcomeNet o clock).clock p = clock p from rfl, hrun]

/-- **What is returned is a reading.** -/
theorem reading_of_readln {r : LineResult} (hc : c.isSelectable = true) (hlen : len ≠ 0)
    (h : (outcomeNet o clock).readln c fuel len p = some (r, q)) :
    ∃ line fin, ReadsLine o p line fin q ∧ r = lineEnd (line.take (len - 1)) fin := by
  have hguard : ¬((!c.isSelectable) = true ∨ len = 0) := by simp [hc, hlen]
  rw [NetKernel.readln, if_neg hguard] at h
  split at h
  next r' hiter =>
    subst h
    have hrounds := @reading_of_rounds o clock c len fuel p q fuel [] r
    rw [List.take_nil] at hrounds
    simpa only [List.nil_append] using hrounds hiter
  next => cases h

end Readings

/-! ### Writing

The same for the loop that writes, whose outcomes are the lengths that have been taken.
-/

/-- How a wait for writing ends, together with the `write` behind it. -/
inductive SendOutcome
  | wrote (n : Nat)
  | again
  | interrupted
  | failed (e : Errno)
  | timedOut
  | selectFailed (e : SelectErrno)
  deriving DecidableEq

/-- One pass of the select loop. -/
def sendPoll (o : Nat → SendOutcome) (p : Nat) : Iter Nat (SendOutcome × Nat) :=
  match o p with
  -- the timeout of a client is positive
  | .again => .next (p + 1)
  | r => .stop (r, p + 1)

/-- What becomes of the buffer of `len` bytes behind the select loop. -/
def sendPiece (len nbytes : Nat) :
    SendOutcome × Nat → Iter (Nat × Nat) (WriteResult × Nat × Nat)
  | (.wrote n, p) =>
    if n = 0 then .stop (⟨0, false, 0⟩, nbytes, p)
    else .next (p, nbytes + min n (len - nbytes))
  | (.interrupted, p) => .next (p, nbytes)
  | (.again, p) => .stop (⟨-1, false, eagain⟩, nbytes, p)
  | (.failed e, p) => .stop (⟨-1, false, e.1⟩, nbytes, p)
  | (.timedOut, p) => .stop (⟨0, true, 0⟩, nbytes, p)
  | (.selectFailed e, p) => .stop (⟨0, false, e.1⟩, nbytes, p)

/-- One pass of the loop of `smartic_socket_write`; `none` is a select loop that takes more than
`fuel` passes. -/
def sendRound (o : Nat → SendOutcome) (len fuel : Nat) :
    Nat × Nat → Iter (Nat × Nat) (Option (WriteResult × Nat × Nat))
  | (p, nbytes) =>
    if nbytes < len then
      match iterate (sendPoll o) fuel p with
      | .next _ => .stop none
      | .stop r =>
        match sendPiece len nbytes r with
        | .next st => .next st
        | .stop r => .stop (some r)
    else .stop (some (⟨0, false, 0⟩, nbytes, p))

/-- A buffer of which `m` bytes are left is written from the position `p` on; `r` is what the
write returns, and `q` the position behind it. -/
inductive Sending (o : Nat → SendOutcome) : Nat → Nat → WriteResult → Nat → Prop
  | done {p : Nat} : Sending o 0 p ⟨0, false, 0⟩ p
  | nothing {m p : Nat} : o p = .wrote 0 → Sending o (m + 1) p ⟨0, false, 0⟩ (p + 1)
  | wrote {m n p q : Nat} {r : WriteResult} :
      o p = .wrote (n + 1) → Sending o (m - n) (p + 1) r q → Sending o (m + 1) p r q
  | retry {m p q : Nat} {r : WriteResult} : o p = .again ∨ o p = .interrupted →
      Sending o (m + 1) (p + 1) r q → Sending o (m + 1) p r q
  | failed {m p : Nat} {e : Errno} :
      o p = .failed e → Sending o (m + 1) p ⟨-1, false, e.1⟩ (p + 1)
  | timedOut {m p : Nat} : o p = .timedOut → Sending o (m + 1) p ⟨0, true, 0⟩ (p + 1)
  | selectFailed {m p : Nat} {e : SelectErrno} :
      o p = .selectFailed e → Sending o (m + 1) p ⟨0, false, e.1⟩ (p + 1)

section Sending

variable {o : Nat → SendOutcome} {len fuel m p q q' nbytes : Nat} {r r' : WriteResult}

/-- The loop of `smartic_socket_write` from within its select loop on: `f` passes are left for
the select loop, and `k` for the loop itself. -/
def sendResume (o : Nat → SendOutcome) (len fuel f k nbytes p : Nat) :
    Iter (Nat × Nat) (Option (WriteResult × Nat × Nat)) :=
  match iterate (sendPoll o) f p with
  | .next _ => .stop none
  | .stop r =>
    match sendPiece len nbytes r with
    | .next st => iterate (sendRound o len fuel) k st
    | .stop r => .stop (some r)

/-- The loop goes on with what is left. -/
theorem iterate_sendRound (hlt : nbytes < len) (k : Nat) :
    iterate (sendRound o len fuel) (k + 1) (p, nbytes) =
      sendResume o len fuel fuel k nbytes p := by
  rw [iterate, sendRound, if_pos hlt, sendResume]
  cases iterate (sendPoll o) fuel p with
  | next st => rfl
  | stop r =>
    dsimp only
    cases sendPiece len nbytes r with
    | next st => rfl
    | stop r => rfl

/-- The loop ends when all has been taken. -/
theorem iterate_sendRound_done (k : Nat) :
    iterate (sendRound o len fuel) (k + 1) (p, len) = .stop (some (⟨0, false, 0⟩, len, p)) := by
  rw [iterate, sendRound, if_neg (lt_irrefl len)]

/-- A wait that says nothing. -/
theorem sendResume_again {f k : Nat} (ho : o p = .again) :
    sendResume o len fuel (f + 1) k nbytes p = sendResume o len fuel f k nbytes (p + 1) := by
  have hpoll : sendPoll o p = .next (p + 1) := by rw [sendPoll, ho]
  rw [sendResume, iterate_succ_next hpoll, sendResume]

/-- A piece is taken, or the loop ends. -/
theorem sendResume_piece {f k : Nat} (ho : o p ≠ .again) :
    sendResume o len fuel (f + 1) k nbytes p =
      match sendPiece len nbytes (o p, p + 1) with
      | .next st => iterate (sendRound o len fuel) k st
      | .stop r => .stop (some r) := by
  have hpoll : sendPoll o p = .stop (o p, p + 1) := by
    rw [sendPoll]
    cases h : o p with
    | again => exact absurd h ho
    | _ => rfl
  rw [sendResume, iterate_succ_stop hpoll]

/-- The loop is granted enough passes to come to `r` behind `m` bytes. -/
def SendRounds (o : Nat → SendOutcome) (m p : Nat) (r : WriteResult) (q : Nat) : Prop :=
  ∃ n, ∀ fuel k, n ≤ fuel → n ≤ k → ∀ nbytes, ∃ sent,
    iterate (sendRound o (nbytes + m) fuel) k (p, nbytes) = .stop (some (r, sent, q))

/-- The select loop is granted enough passes as well. -/
def SendWaits (o : Nat → SendOutcome) (m p : Nat) (r : WriteResult) (q : Nat) : Prop :=
  ∃ n, ∀ fuel f k, n ≤ fuel → n ≤ f → n ≤ k → ∀ nbytes, ∃ sent,
    sendResume o (nbytes + m) fuel f k nbytes p = .stop (some (r, sent, q))

/-- A wait in front of the next piece. -/
theorem SendWaits.rounds (hm : 0 < m) (h : SendWaits o m p r q) : SendRounds o m p r q := by
  obtain ⟨n, hrun⟩ := h
  refine ⟨n + 1, fun fuel k hfuel hk nbytes => ?_⟩
  obtain ⟨k, rfl⟩ : ∃ j, k = j + 1 := ⟨k - 1, by omega⟩
  rw [iterate_sendRound (by omega)]
  exact hrun fuel fuel k (by omega) (by omega) (by omega) nbytes

/-- An outcome that ends the write. -/
theorem sendWaits_stop (ho : o p ≠ .again)
    (hpiece : ∀ nbytes, sendPiece (nbytes + m) nbytes (o p, p + 1) = .stop (r, nbytes, p + 1)) :
    SendWaits o m p r (p + 1) := by
  refine ⟨1, fun fuel f k _ hf _ nbytes => ⟨nbytes, ?_⟩⟩
  obtain ⟨f, rfl⟩ : ∃ j, f = j + 1 := ⟨f - 1, by omega⟩
  rw [sendResume_piece ho, hpiece]

/-- From the outcomes to the passes. -/
theorem sendWaits_of_sending (h : Sending o m p r q) (hm : 0 < m) : SendWaits o m p r q := by
  induction h with
  | done => exact absurd hm (lt_irrefl 0)
  | @nothing m p ho =>
    exact sendWaits_stop (by rw [ho]; exact fun h => nomatch h) fun _ => by rw [ho]; rfl
  | @wrote m n p q r ho hrest ih =>
    -- the piece may have been the last one
    have hrounds : SendRounds o (m - n) (p + 1) r q := by
      by_cases hzero : m - n = 0
      · rw [hzero] at hrest ⊢
        cases hrest
        refine ⟨1, fun fuel k _ hk nbytes => ⟨nbytes, ?_⟩⟩
        obtain ⟨k, rfl⟩ : ∃ j, k = j + 1 := ⟨k - 1, by omega⟩
        rw [Nat.add_zero, iterate_sendRound_done]
      · exact (ih (by omega)).rounds (by omega)
    obtain ⟨i, hrun⟩ := hrounds
    refine ⟨i + 1, fun fuel f k hfuel hf hk nbytes => ?_⟩
    obtain ⟨f, rfl⟩ : ∃ j, f = j + 1 := ⟨f - 1, by omega⟩
    have hpiece : sendPiece (nbytes + (m + 1)) nbytes (o p, p + 1) =
        .next (p + 1, nbytes + min (n + 1) (m + 1)) := by
      rw [ho, sendPiece, if_neg (Nat.succ_ne_zero n), Nat.add_sub_cancel_left]
    have hlen : nbytes + (m + 1) = nbytes + min (n + 1) (m + 1) + (m - n) := by omega
    rw [sendResume_piece (by rw [ho]; exact fun h => nomatch h), hpiece, hlen]
    exact hrun fuel k (by omega) (by omega) _
  | @retry m p q r ho _ ih =>
    obtain ⟨i, hrun⟩ := ih (Nat.succ_pos m)
    refine ⟨i + 1, fun fuel f k hfuel hf hk nbytes => ?_⟩
    obtain ⟨f, rfl⟩ : ∃ j, f = j + 1 := ⟨f - 1, by omega⟩
    rcases ho with ho | ho
    · rw [sendResume_again ho]
      exact hrun fuel f k (by omega) (by omega) (by omega) nbytes
    · obtain ⟨k, rfl⟩ : ∃ j, k = j + 1 := ⟨k - 1, by omega⟩
      have hpiece : sendPiece (nbytes + (m + 1)) nbytes (o p, p + 1) = .next (p + 1, nbytes) := by
        rw [ho]
        rfl
      rw [sendResume_piece (by rw [ho]; exact fun h => nomatch h), hpiece]
      dsimp only
      rw [iterate_sendRound (by omega)]
      exact hrun fuel fuel k (by omega) (by omega) (by omega) nbytes
  | failed ho => exact sendWaits_stop (by rw [ho]; exact fun h => nomatch h) fun _ => by rw [ho]; rfl
  | timedOut ho =>
    exact sendWaits_stop (by rw [ho]; exact fun h => nomatch h) fun _ => by rw [ho]; rfl
  | selectFailed ho =>
    exact sendWaits_stop (by rw [ho]; exact fun h => nomatch h) fun _ => by rw [ho]; rfl

/-- One wait, where `k` passes of the outer loop are right. -/
theorem sending_of_resume {f k sent : Nat} (hlt : nbytes < len)
    (hk : ∀ p nbytes, nbytes ≤ len →
      iterate (sendRound o len fuel) k (p, nbytes) = .stop (some (r, sent, q)) →
      Sending o (len - nbytes) p r q)
    (h : sendResume o len fuel f k nbytes p = .stop (some (r, sent, q))) :
    Sending o (len - nbytes) p r q := by
  obtain ⟨m, hm⟩ : ∃ m, len - nbytes = m + 1 := ⟨len - nbytes - 1, by omega⟩
  rw [hm]
  -- on the passes of the select loop, as for a line
  induction f generalizing p with
  | zero => cases h
  | succ f ihf =>
    by_cases hagain : o p = .again
    · rw [sendResume_again hagain] at h
      exact .retry (.inl hagain) (ihf h)
    rw [sendResume_piece hagain] at h
    cases ho : o p with
    | again => exact absurd ho hagain
    | wrote n =>
      rw [ho] at h
      cases n with
      | zero =>
        cases h
        exact .nothing ho
      | succ n =>
        have hrest := hk _ _ (by omega) h
        rw [show len - (nbytes + min (n + 1) (len - nbytes)) = m - n by omega] at hrest
        exact .wrote ho hrest
    | interrupted =>
      rw [ho] at h
      have hrest := hk _ _ (Nat.le_of_lt hlt) h
      rw [hm] at hrest
      exact .retry (.inr ho) hrest
    | failed e =>
      rw [ho] at h
      cases h
      exact .failed ho
    | timedOut =>
      rw [ho] at h
      cases h
      exact .timedOut ho
    | selectFailed e =>
      rw [ho] at h
      cases h
      exact .selectFailed ho

/-- From the passes to the outcomes. -/
theorem sending_of_rounds {k sent : Nat} (hle : nbytes ≤ len)
    (h : iterate (sendRound o len fuel) k (p, nbytes) = .stop (some (r, sent, q))) :
    Sending o (len - nbytes) p r q := by
  induction k generalizing p nbytes with
  | zero => cases h
  | succ k ih =>
    rcases hle.lt_or_eq with hlt | rfl
    · rw [iterate_sendRound hlt] at h
      exact sending_of_resume hlt (fun p nbytes hle hrest => ih hle hrest) h
    · rw [iterate_sendRound_done] at h
      cases h
      rw [Nat.sub_self]
      exact .done

end Sending

end BenthosDc
