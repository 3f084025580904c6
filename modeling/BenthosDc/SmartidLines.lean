/-
BenthosDc/SmartidLines.lean

The lines that the daemon takes from a stream (`conn_read` of `smartid_conn.c`).

The stream of a client arrives in pieces, and `conn_read` is called for each of them.  It
hands at most one line to `smartid_cmd_process`, and no more is made of a piece that ends two
lines until the next one arrives.  `EVBUFFER_EOL_ANY` makes one terminator of any sequence of
CR and LF, as far as it has arrived.

* `connRead_upToDate_iff`: the arrivals for which nothing is left waiting.

The condition is on the pieces alone: no piece holds two lines, and none begins with a CR or an
LF where the piece in front ends in one.
-/
import BenthosDc.Lib.LineScan
import BenthosDc.SmartidServer

namespace BenthosDc

open CString Hoare LineScan

variable {S : Type}

/-! ### Runs

A run takes the pieces one by one, with what has been received and which lines have been passed
on.
-/

/-- The daemon behind a connection, with what it has received, and the lines that have been
passed to `smartid_cmd_process`. -/
structure ReadRun (S : Type) where
  server : Server S
  received : Text
  passed : List Text

/-- Nothing has arrived. -/
def ReadRun.start (w : S) : ReadRun S := ⟨Server.start w, [], []⟩

/-- The line that `conn_read` passes on when `bytes` arrive. -/
def linePassed (s : Server S) (bytes : Text) : List Text :=
  match s.conn, evbufferReadln (s.input ++ bytes) with
  | some _, some (line, _) => [line]
  | _, _ => []

/-- `conn_read` on an arrival. -/
def ReadRun.arrive (W : Irda S) (fuel : Nat) (r : ReadRun S) (bytes : Text) : ReadRun S where
  server := (connRead W fuel r.server bytes).1
  received := r.received ++ bytes
  passed := r.passed ++ linePassed r.server bytes

/-- All the pieces have arrived. -/
def ReadRun.after (W : Irda S) (fuel : Nat) (w : S) (arrivals : List Text) : ReadRun S :=
  arrivals.foldl (ReadRun.arrive W fuel) (ReadRun.start w)

/-- The last call of `conn_read` has returned. -/
def ReadRun.Returned (r : ReadRun S) : Prop := r.server.conn ≠ none

/-- No complete line remains in the input buffer. -/
def ReadRun.NoneLeft (r : ReadRun S) : Prop := ∀ c ∈ r.server.input, isEol c = false

/-- Every complete line of the stream has been passed on once, in order. -/
def ReadRun.UpToDate (r : ReadRun S) : Prop :=
  r.passed = linesOf isEol r.received ∧ r.NoneLeft

/-- A piece begins inside the terminator with which the stream has stopped. -/
def SplitsTerminator (received bytes : Text) : Prop :=
  (∃ c ∈ received.getLast?, isEol c = true) ∧ ∃ c ∈ bytes.head?, isEol c = true

/-- The function of libevent is the scan for a line. -/
theorem evbufferReadln_eq_readLine (input : Text) :
    evbufferReadln input = readLine isEol input := by
  rw [evbufferReadln, readLine]
  cases input.dropWhile fun c => !isEol c with
  | nil => rfl
  | cons c rest => rfl

/-! ### One arrival

A piece ends no line, or one line, or more than one.
-/

section Arrival

variable {W : Irda S} {fuel : Nat} {r : ReadRun S} {bytes : Text}

/-- A connection that has not come to its end yet. -/
theorem returned_of_arrive (h : (r.arrive W fuel bytes).Returned) : r.Returned := by
  intro hnone
  apply h
  show (connRead W fuel r.server bytes).1.conn = none
  rw [connRead, hnone]
  exact hnone

/-- An arrival without a terminator waits in the input buffer. -/
theorem arrive_waits (hr : r.Returned) (hline : ∀ c ∈ r.server.input ++ bytes, isEol c = false) :
    (r.arrive W fuel bytes).server.input = r.server.input ++ bytes ∧
      (r.arrive W fuel bytes).passed = r.passed := by
  obtain ⟨c, hc⟩ := Option.ne_none_iff_exists'.mp hr
  have hread := evbufferReadln_eq_none hline
  constructor
  · show (connRead W fuel r.server bytes).1.input = _
    rw [connRead, hc, hread]
  · show r.passed ++ linePassed r.server bytes = _
    rw [linePassed, hc, hread, List.append_nil]

/-- The first line of the input is passed on, and the rest waits. -/
theorem arrive_passes (hr : r.Returned) {line rest : Text}
    (hread : evbufferReadln (r.server.input ++ bytes) = some (line, rest)) :
    (r.arrive W fuel bytes).server.input = rest ∧
      (r.arrive W fuel bytes).passed = r.passed ++ [line] := by
  obtain ⟨c, hc⟩ := Option.ne_none_iff_exists'.mp hr
  constructor
  · show (connRead W fuel r.server bytes).1.input = _
    rw [connRead, hc, hread]
    dsimp only
    split <;> rfl
  · show r.passed ++ linePassed r.server bytes = _
    rw [linePassed, hc, hread]

/-- **What an arrival comes to** where nothing has been left: it waits, or its first line is
passed on. -/
theorem arrive_cases (W : Irda S) (fuel : Nat) (bytes : Text) (hnone : r.NoneLeft)
    (hr : r.Returned) :
    ((∀ c ∈ bytes, isEol c = false) ∧
      (r.arrive W fuel bytes).server.input = r.server.input ++ bytes ∧
      (r.arrive W fuel bytes).passed = r.passed) ∨
    ∃ line eols rest, FirstLine isEol bytes line eols rest ∧
      (r.arrive W fuel bytes).server.input = rest ∧
      (r.arrive W fuel bytes).passed = r.passed ++ [r.server.input ++ line] := by
  rcases readLine_cases isEol bytes with ⟨-, hbytes⟩ | ⟨line, eols, rest, hread, hfirst⟩
  · refine .inl ⟨hbytes, arrive_waits hr fun c hc => ?_⟩
    exact (List.mem_append.mp hc).elim (hnone c) (hbytes c)
  · refine .inr ⟨line, eols, rest, hfirst, arrive_passes hr ?_⟩
    rw [evbufferReadln_eq_readLine]
    exact readLine_append hnone hread

/-- Nothing is left of an arrival in which at most one line ends. -/
theorem arrive_noneLeft_iff (hnone : r.NoneLeft) (hr : r.Returned) :
    (r.arrive W fuel bytes).NoneLeft ↔ (linesOf isEol bytes).length ≤ 1 := by
  rcases arrive_cases W fuel bytes hnone hr with
    ⟨hbytes, hinput, -⟩ | ⟨line, eols, rest, hfirst, hinput, -⟩
  · rw [ReadRun.NoneLeft, hinput, linesOf_of_none hbytes]
    refine ⟨fun _ => Nat.zero_le 1, fun _ c hc => ?_⟩
    exact (List.mem_append.mp hc).elim (hnone c) (hbytes c)
  · rw [ReadRun.NoneLeft, hinput, length_linesOf_le_one_iff hfirst]

/-- The daemon has taken from the stream what there is to take: the lines have been passed on,
and the part of a line behind them waits. -/
structure ReadRun.Synced (r : ReadRun S) : Prop where
  passed : r.passed = (Scan.run isEol Scan.start r.received).lines
  input : r.server.input = (Scan.run isEol Scan.start r.received).part

/-- No complete line waits. -/
theorem ReadRun.Synced.noneLeft (h : r.Synced) : r.NoneLeft := by
  rw [ReadRun.NoneLeft, h.input]
  exact part_run (fun c hc => absurd hc List.not_mem_nil) r.received

/-- All lines have been passed on. -/
theorem ReadRun.Synced.upToDate (h : r.Synced) : r.UpToDate := ⟨h.passed, h.noneLeft⟩

/-- When a terminator goes on with the next piece. -/
theorem splitsTerminator_iff {received line eols rest : Text}
    (h : FirstLine isEol bytes line eols rest) :
    SplitsTerminator received bytes ↔
      (Scan.run isEol Scan.start received).ended = true ∧ line = [] := by
  rw [SplitsTerminator, ended_run_iff]
  refine and_congr_right fun _ => ?_
  rw [h.split]
  cases line with
  | nil =>
    obtain ⟨c, eols', rfl⟩ := List.exists_cons_of_ne_nil h.eols_ne_nil
    refine ⟨fun _ => rfl, fun _ => ⟨c, rfl, h.of_eols c List.mem_cons_self⟩⟩
  | cons d line =>
    refine ⟨?_, fun hnil => nomatch hnil⟩
    rintro ⟨c, hc, heol⟩
    cases hc
    rw [h.of_line d List.mem_cons_self] at heol
    cases heol

/-- **One arrival**: the daemon stays up to date exactly if at most one line ends in the
arrival, and it does not begin inside a terminator. -/
theorem arrive_upToDate (hsync : r.Synced) (hr : r.Returned) :
    ((r.arrive W fuel bytes).UpToDate ↔
      (linesOf isEol bytes).length ≤ 1 ∧ ¬SplitsTerminator r.received bytes) ∧
    ((r.arrive W fuel bytes).UpToDate → (r.arrive W fuel bytes).Synced) := by
  set s := Scan.run isEol Scan.start r.received with hs
  have hscan : Scan.run isEol Scan.start (r.arrive W fuel bytes).received = s.run isEol bytes :=
    run_append r.received bytes
  rcases arrive_cases W fuel bytes hsync.noneLeft hr with
    ⟨hbytes, hinput, hpassed⟩ | ⟨line, eols, rest, hfirst, hinput, hpassed⟩
  · -- nothing ends in the arrival
    have hsynced : (r.arrive W fuel bytes).Synced := by
      refine ⟨?_, ?_⟩
      · rw [hpassed, hsync.passed, hscan, run_of_none hbytes]
      · rw [hinput, hsync.input, hscan, run_of_none hbytes]
    refine ⟨iff_of_true hsynced.upToDate ⟨?_, ?_⟩, fun _ => hsynced⟩
    · rw [linesOf_of_none hbytes]
      exact Nat.zero_le 1
    · rintro ⟨-, c, hc, heol⟩
      rw [hbytes c (List.mem_of_mem_head? hc)] at heol
      cases heol
  rw [splitsTerminator_iff hfirst, length_linesOf_le_one_iff hfirst, ← hs]
  rw [hsync.passed, hsync.input, ← hs] at hpassed
  have hrest : (∀ c ∈ rest, isEol c = false) ↔ (r.arrive W fuel bytes).NoneLeft := by
    rw [ReadRun.NoneLeft, hinput]
  by_cases hsplit : s.ended = true ∧ line = []
  · -- an empty line is passed on that is none
    obtain ⟨hended, rfl⟩ := hsplit
    have hnot : ¬(r.arrive W fuel bytes).UpToDate := by
      rintro ⟨hlines, hnone⟩
      rw [hpassed, linesOf, hscan, hfirst.split, List.nil_append, run_append,
        run_of_all hfirst.of_eols hfirst.eols_ne_nil, if_pos hended,
        run_of_none (hrest.mpr hnone)] at hlines
      exact List.cons_ne_nil _ _ (List.append_right_eq_self.mp hlines)
    exact ⟨iff_of_false hnot fun h => h.2 ⟨hended, rfl⟩, fun h => absurd h hnot⟩
  · have hline : s.ended = true → line ≠ [] := fun hended hnil => hsplit ⟨hended, hnil⟩
    have hrun := run_firstLine (s := s) hfirst hline
    have hsynced : (∀ c ∈ rest, isEol c = false) → (r.arrive W fuel bytes).Synced := by
      intro hnone
      rw [run_of_none hnone] at hrun
      refine ⟨?_, ?_⟩
      · rw [hpassed, hscan, hrun]
      · rw [hinput, hscan, hrun]
        rfl
    refine ⟨⟨fun h => ⟨hrest.mpr h.2, hsplit⟩, fun h => (hsynced h.1).upToDate⟩, fun h => ?_⟩
    exact hsynced (hrest.mpr h.2)

end Arrival

/-! ### Whole streams

The pieces of a stream are taken from the left, with an invariant that ties what has been
passed on to what has arrived.
-/

section Runs

variable {W : Irda S} {fuel : Nat} {w : S}

theorem after_concat (W : Irda S) (fuel : Nat) (w : S) (arrivals : List Text) (bytes : Text) :
    ReadRun.after W fuel w (arrivals ++ [bytes]) =
      (ReadRun.after W fuel w arrivals).arrive W fuel bytes :=
  List.foldl_append

/-- The pieces make up the stream. -/
theorem received_after (W : Irda S) (fuel : Nat) (w : S) (arrivals : List Text) :
    (ReadRun.after W fuel w arrivals).received = arrivals.flatten := by
  induction arrivals using List.reverseRecOn with
  | nil => rfl
  | append_singleton arrivals bytes ih =>
    rw [after_concat, List.flatten_append, List.flatten_singleton, ← ih]
    rfl

/-- Nothing waits at the start. -/
theorem synced_start (w : S) : (ReadRun.start w).Synced := ⟨rfl, rfl⟩

/-- What holds of every part of a run behind which `conn_read` has returned. -/
def AtReturns (W : Irda S) (fuel : Nat) (w : S) (arrivals : List Text) (P : ReadRun S → Prop) :
    Prop :=
  ∀ pre, pre <+: arrivals → (ReadRun.after W fuel w pre).Returned → P (ReadRun.after W fuel w pre)

/-- What holds of every arrival at which `conn_read` returns, and of the stream before it. -/
def AtArrivals (W : Irda S) (fuel : Nat) (w : S) (arrivals : List Text) (P : Text → Text → Prop) :
    Prop :=
  ∀ pre bytes, pre ++ [bytes] <+: arrivals →
    (ReadRun.after W fuel w (pre ++ [bytes])).Returned → P pre.flatten bytes

/-- The run rule: `J` is what each arrival finds, and `P` holds behind an arrival exactly if the
arrival is as `G` wants it. -/
theorem atReturns_iff {P J : ReadRun S → Prop} {G : Text → Text → Prop}
    (hstart : J (ReadRun.start w)) (hJ : ∀ r, J r → P r)
    (hstep : ∀ r bytes, J r → r.Returned →
      (P (r.arrive W fuel bytes) ↔ G r.received bytes) ∧
        (P (r.arrive W fuel bytes) → J (r.arrive W fuel bytes))) (arrivals : List Text) :
    AtReturns W fuel w arrivals P ↔ AtArrivals W fuel w arrivals G := by
  -- what holds so far holds on the other side of the equivalence as well
  have hreach : (∀ pre bytes, pre ++ [bytes] <+: arrivals →
      (ReadRun.after W fuel w (pre ++ [bytes])).Returned → J (ReadRun.after W fuel w pre) →
        P (ReadRun.after W fuel w (pre ++ [bytes]))) →
      ∀ pre, pre <+: arrivals → (ReadRun.after W fuel w pre).Returned →
        J (ReadRun.after W fuel w pre) := by
    intro hP pre
    induction pre using List.reverseRecOn with
    | nil => exact fun _ _ => hstart
    | append_singleton pre bytes ih =>
      intro hpre hr
      have hr' : (ReadRun.after W fuel w pre).Returned := by
        rw [after_concat] at hr
        exact returned_of_arrive hr
      have hJpre := ih ((List.prefix_append pre [bytes]).trans hpre) hr'
      have hPpre := hP pre bytes hpre hr hJpre
      rw [after_concat] at hPpre ⊢
      exact (hstep _ bytes hJpre hr').2 hPpre
  have hbefore : ∀ {pre bytes}, (ReadRun.after W fuel w (pre ++ [bytes])).Returned →
      (ReadRun.after W fuel w pre).Returned := by
    intro pre bytes hr
    rw [after_concat] at hr
    exact returned_of_arrive hr
  constructor
  · intro hP pre bytes hpre hr
    have hJpre := hreach (fun pre bytes hpre hr _ => hP _ hpre hr) pre
      ((List.prefix_append pre [bytes]).trans hpre) (hbefore hr)
    have hPpre := hP _ hpre hr
    rw [after_concat] at hPpre
    rw [← received_after W fuel w pre]
    exact (hstep _ bytes hJpre (hbefore hr)).1.mp hPpre
  · intro hG pre hpre hr
    apply hJ
    refine hreach ?_ pre hpre hr
    intro pre bytes hpre hr hJpre
    have hgood := hG pre bytes hpre hr
    rw [← received_after W fuel w pre] at hgood
    rw [after_concat]
    exact (hstep _ bytes hJpre (hbefore hr)).1.mpr hgood

/-- **When no complete line is left waiting**, and when every complete line has been passed on
once and in order as well. -/
theorem connRead_upToDate_iff (W : Irda S) (fuel : Nat) (w : S) (arrivals : List Text) :
    (AtReturns W fuel w arrivals ReadRun.UpToDate ↔
      AtArrivals W fuel w arrivals fun received bytes =>
        (linesOf isEol bytes).length ≤ 1 ∧ ¬SplitsTerminator received bytes) ∧
    (AtReturns W fuel w arrivals ReadRun.NoneLeft ↔
      AtArrivals W fuel w arrivals fun _ bytes => (linesOf isEol bytes).length ≤ 1) := by
  constructor
  · apply atReturns_iff (synced_start w)
    · exact fun r hr => hr.upToDate
    · exact fun r bytes hsync hr => arrive_upToDate hsync hr
  · apply atReturns_iff (synced_start w).noneLeft
    · exact fun r hr => hr
    · exact fun r bytes hnone hr => ⟨arrive_noneLeft_iff hnone hr, id⟩

end Runs

/-! ### Two commands in one arrival

The second of two commands waits for the next piece.
-/

/-- A daemon without a device in reach. -/
def lonelyIrda : Irda Unit where
  discover w := (some [], w)
  connectLsap w _ _ := (.failed, w)
  write w _ := (.failed, w)
  read w _ := (.failed, w)
  time w := (0, w)
  junk _ _ := 0
  foreignFree := false

/-- The first command is processed, and the second one waits. -/
theorem not_upToDate_twoCommands :
    ¬AtReturns lonelyIrda 0 () ["size\nsize\n".toList] ReadRun.UpToDate ∧
      ¬AtReturns lonelyIrda 0 () ["size\nsize\n".toList] ReadRun.NoneLeft := by
  have hwaits : ¬AtReturns lonelyIrda 0 () ["size\nsize\n".toList] ReadRun.NoneLeft := by
    intro hnone
    have hreturned : (ReadRun.after lonelyIrda 0 () ["size\nsize\n".toList]).Returned := nofun
    have hinput : (ReadRun.after lonelyIrda 0 () ["size\nsize\n".toList]).server.input =
        "size\n".toList := rfl
    have heol := hnone _ (List.prefix_refl _) hreturned '\n' (by rw [hinput]; decide)
    cases heol
  refine ⟨fun hdate => hwaits ?_, hwaits⟩
  intro pre hpre hr
  exact (hdate pre hpre hr).2

end BenthosDc
