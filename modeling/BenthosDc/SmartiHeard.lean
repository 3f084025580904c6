/-
BenthosDc/SmartiHeard.lean

The tokens in the commands that the network driver has the daemon put to the device.

A write of the client may end early and still be reported as a success: a select that fails and
a write that takes nothing end the loop (`CutShort`).  What has been sent stays in the input of
the daemon, in front of the next line.

* `smartiDriverOpen_hears`: opening a device puts no token to it, however its lines are cut.
* `smartiDriverTransfer_hears`: a transfer puts its own token to the device, if the line of
  TOKEN reaches the daemon as a whole.
-/
import BenthosDc.SmartTransfers
import BenthosDc.SmartidHeard
import BenthosDc.SmartiKeeps

namespace BenthosDc

open CString Hoare Lifetime SmartiCmd

variable {S α : Type}

/-! ### Listening to the daemon -/

/-- The daemon's device with a log of the commands that it gets. -/
def SmartiHost.listening (G : SmartiHost S) (limit : Option Nat) : SmartiHost (Logged S) where
  irda := G.irda.listening limit
  fuel := G.fuel
  dial := G.dial
  clock := G.clock
  bsize := G.bsize

/-! ### What is left of lines

A line that was cut short and the next one make one line for the daemon.  What such a line can
be is told by the texts that its front can come from.
-/

/-- The name of the command stands at the beginning of a text that does not begin with a
blank. -/
theorem commandName_front {g : Text} (h : ∀ c ∈ g.head?, isBlank c = false ∧ c ≠ '\x00') :
    commandName g <+: g := by
  cases g with
  | nil => exact List.nil_prefix
  | cons c g =>
    obtain ⟨hblank, hnul⟩ := h c rfl
    have hcstr : cstr (c :: g) = c :: cstr g := List.takeWhile_cons_of_pos (by simpa using hnul)
    have hskip : skipBlanks (c :: g) = c :: cstr g := by
      rw [skipBlanks, hcstr, List.dropWhile_cons_of_neg]
      rw [hblank]
      decide
    have hfront : c :: cstr g <+: c :: g := by
      rw [← hcstr]
      exact List.takeWhile_prefix _
    rw [commandName, hskip]
    exact (List.takeWhile_prefix _).trans hfront

/-- The name is a prefix of that of the command, without regard to case. -/
theorem name_of_dispatch {line : Text} {cmd : SmartiCmd} (h : dispatch line = some cmd) :
    commandName line ≠ [] ∧ (commandName line).map Char.toLower <+: cmd.name ∧
      lookupCommand ((commandName line).map Char.toLower) = some cmd := by
  rw [dispatch] at h
  split at h
  · cases h
  next hname =>
    refine ⟨hname, ?_, h⟩
    have hfind := List.find?_some h
    exact (strncaseEq_name _ _).mp hfind

/-- What lines of opening a device leave behind, one after the other: a text that begins with a
letter of theirs, and not as SIZE does. -/
structure OpeningText (g : Text) : Prop where
  line : ∀ c ∈ g, isEol c = false
  head : ∀ c ∈ g.head?, c ∈ "EMOST".toList
  second : g.head? = some 'S' → ∀ c ∈ g.tail.head?, c.toLower ≠ 'i'

/-- What lines of a transfer leave behind. -/
structure TransferText (g : Text) : Prop where
  line : ∀ c ∈ g, isEol c = false
  head : ∀ c ∈ g.head?, c = 'S' ∨ c = 'X'

theorem openingText_nil : OpeningText [] where
  line _ hc := nomatch hc
  head _ hc := nomatch hc
  second h := nomatch h

theorem transferText_nil : TransferText [] where
  line _ hc := nomatch hc
  head _ hc := nomatch hc

/-- The front of a piece is a piece. -/
theorem OpeningText.front {g g' : Text} (h : OpeningText g) (hg : g' <+: g) : OpeningText g' := by
  obtain ⟨rest, rfl⟩ := hg
  refine ⟨fun c hc => h.line c (List.mem_append_left _ hc), ?_, ?_⟩
  · cases g' with
    | nil => exact openingText_nil.head
    | cons c g => exact h.head
  · cases g' with
    | nil => exact openingText_nil.second
    | cons c g =>
      intro hc
      cases g with
      | nil => exact fun d hd => nomatch hd
      | cons d g => exact h.second hc

/-- Pieces one behind the other are a piece. -/
theorem OpeningText.append {g g' : Text} (h : OpeningText g) (h' : OpeningText g') :
    OpeningText (g ++ g') := by
  refine ⟨fun c hc => (List.mem_append.mp hc).elim (h.line c) (h'.line c), ?_, ?_⟩
  · cases g with
    | nil => exact h'.head
    | cons c g => exact h.head
  · cases g with
    | nil => exact h'.second
    | cons c g =>
      intro hc
      cases g with
      | nil =>
        -- no line begins with the second letter of SIZE
        intro d hd
        have hletter := h'.head d hd
        revert hletter
        simp only [show "EMOST".toList = ['E', 'M', 'O', 'S', 'T'] from rfl, List.mem_cons,
          List.not_mem_nil, or_false]
        rintro (rfl | rfl | rfl | rfl | rfl) <;> decide
      | cons d g => exact h.second hc

/-- The front of a piece is a piece. -/
theorem TransferText.front {g g' : Text} (h : TransferText g) (hg : g' <+: g) :
    TransferText g' := by
  obtain ⟨rest, rfl⟩ := hg
  refine ⟨fun c hc => h.line c (List.mem_append_left _ hc), ?_⟩
  cases g' with
  | nil => exact transferText_nil.head
  | cons c g => exact h.head

/-- Pieces one behind the other are a piece. -/
theorem TransferText.append {g g' : Text} (h : TransferText g) (h' : TransferText g') :
    TransferText (g ++ g') := by
  refine ⟨fun c hc => (List.mem_append.mp hc).elim (h.line c) (h'.line c), ?_⟩
  cases g with
  | nil => exact h'.head
  | cons c g => exact h.head

/-- **Lines of opening run neither SIZE nor XFER**, whatever is left in front of them. -/
theorem OpeningText.dispatch {g : Text} (h : OpeningText g) :
    BenthosDc.dispatch g ≠ some cmdSize ∧ BenthosDc.dispatch g ≠ some cmdXfer := by
  have hletters : ∀ c ∈ "EMOST".toList, isBlank c = false ∧ c ≠ '\x00' ∧ c.toLower ≠ 'x' ∧
      (c.toLower = 's' → c = 'S') := by
    have hall : ("EMOST".toList.all fun c => isBlank c = false ∧ c ≠ '\x00' ∧ c.toLower ≠ 'x' ∧
        (c.toLower = 's' → c = 'S')) = true := by decide
    exact fun c hc => of_decide_eq_true (List.all_eq_true.mp hall c hc)
  have hfront : commandName g <+: g := commandName_front fun c hc =>
    ⟨(hletters c (h.head c hc)).1, (hletters c (h.head c hc)).2.1⟩
  constructor
  · intro hcmd
    obtain ⟨hne, hname, hlookup⟩ := name_of_dispatch hcmd
    obtain ⟨rest, hg⟩ := hfront
    rcases hn : commandName g with _ | ⟨a, _ | ⟨b, name⟩⟩
    · exact hne hn
    · -- the one letter is that of SERIAL
      rw [hn] at hname hlookup
      have ha : a.toLower = 's' := (List.cons_prefix_cons.mp hname).1
      rw [List.map_cons, ha] at hlookup
      exact absurd hlookup (by decide)
    · rw [hn] at hname hg
      obtain ⟨ha, hname⟩ := List.cons_prefix_cons.mp hname
      have hb : b.toLower = 'i' := (List.cons_prefix_cons.mp hname).1
      subst hg
      have hS : a = 'S' := (hletters a (h.head a rfl)).2.2.2 ha
      exact h.second (congrArg some hS) b rfl hb
  · intro hcmd
    obtain ⟨hne, hname, -⟩ := name_of_dispatch hcmd
    obtain ⟨rest, hg⟩ := hfront
    rcases hn : commandName g with _ | ⟨a, name⟩
    · exact hne hn
    · rw [hn] at hname hg
      subst hg
      exact (hletters a (h.head a rfl)).2.2.1 (List.cons_prefix_cons.mp hname).1

/-- **Lines of a transfer run SERIAL, SIZE, XFER or nothing.** -/
theorem TransferText.dispatch {g : Text} (h : TransferText g) (cmd : SmartiCmd)
    (hcmd : BenthosDc.dispatch g = some cmd) :
    cmd = cmdSerial ∨ cmd = cmdSize ∨ cmd = cmdXfer := by
  have hletters : ∀ c, c = 'S' ∨ c = 'X' → isBlank c = false ∧ c ≠ '\x00' ∧
      (c.toLower = 's' ∨ c.toLower = 'x') := by
    rintro c (rfl | rfl)
    · decide
    · decide
  have hfront : commandName g <+: g := commandName_front fun c hc =>
    ⟨(hletters c (h.head c hc)).1, (hletters c (h.head c hc)).2.1⟩
  obtain ⟨hne, hname, -⟩ := name_of_dispatch hcmd
  obtain ⟨rest, hg⟩ := hfront
  rcases hn : commandName g with _ | ⟨a, name⟩
  · exact absurd hn hne
  rw [hn] at hname hg
  subst hg
  have ha := (hletters a (h.head a rfl)).2.2
  have hhead : cmd.name.head? = some a.toLower := by
    obtain ⟨rest', hrest⟩ := hname
    rw [← hrest]
    rfl
  rcases ha with ha | ha
  · rw [ha] at hhead
    cases cmd <;> first | exact .inl rfl | exact .inr (.inl rfl) | exact absurd hhead (by decide)
  · rw [ha] at hhead
    cases cmd <;> first | exact .inr (.inr rfl) | exact absurd hhead (by decide)

/-! ### Writes

A write sends the whole line or a part of it.  In both cases the daemon has what was pending
and what has been sent.
-/

/-- The loop that writes `len` bytes ends early and reports a success: a select fails, or a
write takes nothing. -/
def CutShort : List NetEvent → Nat → Prop
  | _, 0 => False
  | [], _ => False
  | .accept n :: events, len => n = 0 ∨ CutShort events (len - n)
  | .arrive _ :: events, len => CutShort events len
  | .again :: events, len => CutShort events len
  | .selectFails :: _, _ => True
  | _ :: _, _ => False

/-- What is said of the daemon, unless it has halted: the state `A` of its connection, and the
text `G` in its input. -/
def Speaks (A : Conn S → Prop) (G : Text → Prop) (l : Link S) : Prop :=
  ∀ c, l.server.conn = some c → A c ∧ G l.server.input

/-- The daemon's side only. -/
theorem speaks_daemonic {A : Conn S → Prop} {G : Text → Prop} : Daemonic (Speaks A G) := by
  intro l l' hserver _ hl
  rw [Speaks, hserver]
  exact hl

section Writes

variable {W : Irda S} {fuel : Nat} {A B : Conn S → Prop} {line : Text}

/-- The rest of a line arrives, and the line is processed. -/
theorem connRead_whole (hline : ∀ c : Conn S, A c → ∀ ch ∈ line, isEol ch = false)
    (hprocess : ∀ c, A c → Triple (smartidCmdProcess W fuel line) c
      (fun _ c' => B { c' with out := [] }) anyHalt)
    {s : Server S} {buf : Text}
    (hs : ∀ c, s.conn = some c → A c ∧ s.input ++ buf = line ++ ['\n']) :
    ∀ c, (connRead W fuel s buf).1.conn = some c → B c ∧ (connRead W fuel s buf).1.input = [] := by
  obtain ⟨conn, input⟩ := s
  cases conn with
  | none => exact fun c hc => nomatch hc
  | some c =>
    obtain ⟨hA, hbuf⟩ := hs c rfl
    have hread : evbufferReadln (input ++ buf) = some (line, []) := by
      rw [show input ++ buf = line ++ ['\n'] from hbuf]
      exact evbufferReadln_line (hline c hA)
    rw [connRead_of_readln hread]
    cases hrun : (smartidCmdProcess W fuel line).run c with
    | error e => exact fun c hc => nomatch hc
    | ok r =>
      intro c' hc'
      cases hc'
      exact ⟨(hprocess c hA).result hrun, rfl⟩

/-- A piece of a line arrives, and waits in the input. -/
theorem connRead_piece (hflush : ∀ c, A c → A { c with out := [] }) {s : Server S} {piece : Text}
    (hs : ∀ c, s.conn = some c → A c ∧ ∀ ch ∈ s.input ++ piece, isEol ch = false) :
    ∀ c, (connRead W fuel s piece).1.conn = some c →
      A c ∧ (connRead W fuel s piece).1.input = s.input ++ piece ∧ ∃ c₀, s.conn = some c₀ := by
  obtain ⟨conn, input⟩ := s
  cases conn with
  | none => exact fun c hc => nomatch hc
  | some c =>
    obtain ⟨hA, heol⟩ := hs c rfl
    have hread : evbufferReadln (input ++ piece) = none := evbufferReadln_eq_none heol
    intro c' hc'
    simp only [connRead, hread] at hc' ⊢
    cases hc'
    exact ⟨hflush c hA, trivial, c, rfl⟩

/-- What stands in front of the end of a line is a beginning of the line. -/
theorem front_of_append_newline {g buf : Text} (h : g ++ buf = line ++ ['\n']) (hbuf : buf ≠ []) :
    g <+: line := by
  obtain ⟨front, last, rfl⟩ := (List.eq_nil_or_concat' buf).resolve_left hbuf
  rw [← List.append_assoc] at h
  exact ⟨front, (List.append_inj' h rfl).1⟩

/-- What a write of the rest of a line can come to: the line is processed, or a part of it waits
in the input; then the write tells of an error, or it has been `cut` short. -/
def Written (A B : Conn S → Prop) (line : Text) (cut : Prop) (r : WriteResult × Link S) : Prop :=
  ∀ c, r.2.server.conn = some c → (B c ∧ r.2.server.input = []) ∨
    (A c ∧ r.2.server.input <+: line ∧ (r.1.ret ≠ 0 ∨ r.1.timeout = true ∨ cut))

/-- The loop of the write. -/
theorem writeAll_written (hline : ∀ c : Conn S, A c → ∀ ch ∈ line, isEol ch = false)
    (hflush : ∀ c, A c → A { c with out := [] })
    (hprocess : ∀ c, A c → Triple (smartidCmdProcess W fuel line) c
      (fun _ c' => B { c' with out := [] }) anyHalt)
    (events : List NetEvent) {l : Link S} {buf : Text} (hbuf : buf ≠ [])
    (hl : ∀ c, l.server.conn = some c → A c ∧ l.server.input ++ buf = line ++ ['\n']) :
    Written A B line (CutShort events buf.length) (writeAll W fuel events l buf) := by
  induction events generalizing l buf with
  | nil =>
    rw [writeAll, if_neg hbuf]
    exact fun c hc => .inl (connRead_whole hline hprocess hl c hc)
  | cons e events ih =>
    obtain ⟨k, hk⟩ : ∃ k, buf.length = k + 1 :=
      Nat.exists_eq_succ_of_ne_zero fun h => hbuf (List.length_eq_zero_iff.mp h)
    -- nothing of the rest arrives
    have hstop : ∀ {cut : Prop} (w : WriteResult), (w.ret ≠ 0 ∨ w.timeout = true ∨ cut) →
        Written A B line cut (w, { l with schedule := events, trouble := true }) := by
      intro cut w hwhy c hc
      obtain ⟨hA, hinput⟩ := hl c hc
      exact .inr ⟨hA, front_of_append_newline hinput hbuf, hwhy⟩
    rw [writeAll.eq_def, if_neg hbuf, hk]
    cases e with
    | arrive n =>
      have hrest := @ih { l with channel := l.channel.arrive n } buf hbuf hl
      rw [hk] at hrest
      exact hrest
    | again =>
      have hrest := @ih l buf hbuf hl
      rw [hk] at hrest
      exact hrest
    | timeout => exact hstop _ (.inr (.inl rfl))
    | selectFails => exact hstop _ (.inr (.inr trivial))
    | fails errno => exact hstop _ (.inl (show (-1 : Int) ≠ 0 by decide))
    | endOfFile => exact hstop _ (.inl (show (-1 : Int) ≠ 0 by decide))
    | accept n =>
      dsimp only
      split
      next hn => exact hstop _ (.inr (.inr (.inl hn)))
      by_cases hall : buf.length ≤ n
      · rw [List.take_of_length_le hall, List.drop_of_length_le hall, writeAll.eq_def, if_pos rfl]
        exact fun c hc => .inl (connRead_whole hline hprocess hl c hc)
      -- a part of the line is taken
      have hdrop : buf.drop n ≠ [] := by
        rw [Ne, List.drop_eq_nil_iff]
        exact hall
      have hpiece : ∀ c, l.server.conn = some c →
          A c ∧ ∀ ch ∈ l.server.input ++ buf.take n, isEol ch = false := by
        intro c hc
        obtain ⟨hA, hinput⟩ := hl c hc
        have hwhole : l.server.input ++ buf.take n ++ buf.drop n = line ++ ['\n'] := by
          rw [List.append_assoc, List.take_append_drop, hinput]
        exact ⟨hA, fun ch hch => hline c hA ch ((front_of_append_newline hwhole hdrop).subset hch)⟩
      have hl' : ∀ c, (deliver W fuel l (buf.take n)).server.conn = some c →
          A c ∧ (deliver W fuel l (buf.take n)).server.input ++ buf.drop n = line ++ ['\n'] := by
        intro c hc
        obtain ⟨hA, hinput, c₀, hc₀⟩ := connRead_piece hflush hpiece c hc
        refine ⟨hA, ?_⟩
        show (connRead W fuel l.server (buf.take n)).1.input ++ _ = _
        rw [hinput, List.append_assoc, List.take_append_drop]
        exact (hl c₀ hc₀).2
      intro c hc
      rcases ih hdrop hl' c hc with h | ⟨hA, hinput, hwhy⟩
      · exact .inl h
      · refine .inr ⟨hA, hinput, hwhy.imp id (Or.imp id fun hcut => ?_)⟩
        rw [List.length_drop, hk] at hcut
        exact .inr hcut

/-- A request is written behind what is left of others. -/
theorem smarticSocketWrite_written {cmd g : Text}
    (hline : ∀ c : Conn S, A c → ∀ ch ∈ g ++ cmd, isEol ch = false)
    (hflush : ∀ c, A c → A { c with out := [] })
    (hprocess : ∀ c, A c → Triple (smartidCmdProcess W fuel (g ++ cmd)) c
      (fun _ c' => B { c' with out := [] }) anyHalt)
    {l : Link S} (hl : ∀ c, l.server.conn = some c → A c ∧ l.server.input = g) :
    Triple (smarticSocketWrite W fuel (cmd ++ ['\n'])) l
      (fun w l' => Written A B (g ++ cmd) (CutShort l.schedule (cmd.length + 1)) (w, l'))
      anyHalt := by
  have hne : cmd ++ ['\n'] ≠ [] := List.append_ne_nil_of_right_ne_nil _ (List.cons_ne_nil _ _)
  have hlen : (cmd ++ ['\n']).length = cmd.length + 1 := List.length_append
  by_cases hguard : !l.connected ∨ cmd ++ ['\n'] = []
  · refine Triple.of_run (if_pos hguard) fun c hc => ?_
    obtain ⟨hA, hinput⟩ := hl c hc
    refine .inr ⟨hA, ?_, .inl (show (-1 : Int) ≠ 0 by decide)⟩
    show l.server.input <+: g ++ cmd
    rw [hinput]
    exact List.prefix_append g cmd
  · refine Triple.of_run (if_neg hguard) ?_
    rw [← hlen]
    refine writeAll_written hline hflush hprocess l.schedule hne fun c hc => ?_
    obtain ⟨hA, hinput⟩ := hl c hc
    rw [hinput, List.append_assoc]
    exact ⟨hA, rfl⟩

/-- A kind of lines: what is left of such lines is `G`, and they keep `A`. -/
structure LineKind (W : Irda S) (fuel : Nat) (A : Conn S → Prop) (G : Text → Prop) : Prop where
  nil : G []
  front : ∀ g g', G g → g' <+: g → G g'
  line : ∀ g, G g → ∀ c ∈ g, isEol c = false
  flush : ∀ c, A c → A { c with out := [] }
  process : ∀ g, G g → Maintains A (fun _ => True) anyHalt (smartidCmdProcess W fuel g)

/-- **Lines of one kind may be cut as they like.** -/
theorem LineKind.keeps {G : Text → Prop} (h : LineKind W fuel A G) {cmd : Text}
    (hcmd : ∀ g, G g → G (g ++ cmd)) : WriteKeeps W fuel (Speaks A G) cmd := by
  intro l hl
  -- what is left in the input is of the kind
  refine (smarticSocketWrite_written (A := fun c => A c ∧ G l.server.input) (B := A)
    ?_ ?_ ?_ fun c hc => ⟨hl c hc, rfl⟩).imp ?_
  · exact fun c hc => h.line _ (hcmd _ hc.2)
  · exact fun c hc => ⟨h.flush c hc.1, hc.2⟩
  · exact fun c hc => (h.process _ (hcmd _ hc.2) c hc.1).imp fun _ c' hc' => h.flush c' hc'.2
  · intro w l' hwritten
    refine ⟨trivial, fun c hc => ?_⟩
    rcases hwritten c hc with ⟨hA, hinput⟩ | ⟨hA, hinput, -⟩
    · have hempty : l'.server.input = [] := hinput
      rw [hempty]
      exact ⟨hA, h.nil⟩
    · exact ⟨hA.1, h.front _ _ (hcmd _ hA.2) hinput⟩

end Writes

/-! ### Opening a device

Opening sends OPEN and asks for three values.  None of these lines has the device hear a token.
-/

/-- No command has put a token to the device. -/
def Untold (c : Conn (Logged S)) : Prop := Hears (fun cmd => commandToken cmd = none) c.world

section Requests

variable {W : Irda S} {limit : Option Nat} {fuel n : Nat}

/-- The lines of an opening. -/
theorem openingKind : LineKind (W.listening limit) fuel Untold OpeningText where
  nil := openingText_nil
  front _ _ h hfront := h.front hfront
  line _ h := h.line
  flush _ h := h
  process _ h := process_tells (fun _ h => h) h.dispatch.1 h.dispatch.2

/-- The lines of a transfer behind TOKEN. -/
theorem transferKind (hn : n < 2 ^ 32) :
    LineKind (W.listening limit) fuel (Serves n) TransferText where
  nil := transferText_nil
  front _ _ h hfront := h.front hfront
  line _ h := h.line
  flush _ h := ⟨h.hears, h.token⟩
  process _ h := process_keepsToken hn h.dispatch

/-- A line that has a letter of opening in front, and not the one of SIZE behind it. -/
theorem openingText_of_cons {c : Char} {text : Text} (hline : ∀ ch ∈ c :: text, isEol ch = false)
    (hhead : c ∈ "EMOST".toList) (hsecond : c = 'S' → ∀ d ∈ text.head?, d.toLower ≠ 'i') :
    OpeningText (c :: text) where
  line := hline
  head d hd := by
    cases hd
    exact hhead
  second h := hsecond (Option.some.inj h)

/-- A line of the transfer starts with its letter. -/
theorem transferText_of_cons {c : Char} {text : Text} (hline : ∀ ch ∈ c :: text, isEol ch = false)
    (hhead : c = 'S' ∨ c = 'X') : TransferText (c :: text) where
  line := hline
  head d hd := by
    cases hd
    exact hhead

/-- **The lines of opening a device** put no token to it. -/
theorem openingLines_untold {G : SmartiHost S} (chunkSize : Nat) :
    OpeningLines (G.listening limit) (Speaks Untold OpeningText) chunkSize where
  enum := openingKind.keeps fun g hg => hg.append
    (openingText_of_cons (isEol_of_all (by decide)) (by decide) fun h => absurd h (by decide))
  openDevice addr lsap := openingKind.keeps fun g hg => hg.append
    (openingText_of_cons (Call.openDevice addr lsap _).command_line (by decide)
      fun h => absurd h (by decide))
  model := openingKind.keeps fun g hg => hg.append
    (openingText_of_cons (isEol_of_all (by decide)) (by decide) fun h => absurd h (by decide))
  serial := openingKind.keeps fun g hg => hg.append
    (openingText_of_cons (isEol_of_all (by decide)) (by decide) fun _ d hd => by
      cases hd
      decide)
  ticks := openingKind.keeps fun g hg => hg.append
    (openingText_of_cons (isEol_of_all (by decide)) (by decide) fun h => absurd h (by decide))

/-! ### The line of TOKEN

If the line has gone out whole, the daemon has the token.  If it has not, the client may go on,
and the device is asked with the token that was there before.
-/

/-- The line of TOKEN reaches the daemon as a whole, unless the write tells of an error. -/
def TokenSent (token : UInt32) (l : Link S) : Prop :=
  l.server.input = [] ∧ ¬CutShort l.schedule ((tokenCommand token).length + 1)

/-- The response to a request that has not been written is an error. -/
theorem firstResponse_fails {w : WriteResult} (hw : w.ret ≠ 0 ∨ w.timeout = true) :
    Gives (fun r => ∃ rv, r = .error rv ∧ rv ≠ 0) (firstResponse (S := S) w) := by
  rw [firstResponse]
  by_cases hret : w.ret = 0
  · rw [if_neg (not_not.mpr hret)]
    have htimeout : w.timeout = true := hw.resolve_left (not_not.mpr hret)
    have hnone : ∀ rLine, Gives (· = none) (readResponse (S := S) w.timeout rLine) := by
      intro rLine
      refine (gives_true _).bind fun r _ => ?_
      rw [checkResponse]
      split
      · exact (gives_true _).bind fun _ _ => Maintains.pure rfl
      · rw [htimeout, Bool.true_or, if_pos rfl]
        exact (gives_true _).bind fun _ _ => Maintains.pure rfl
    refine (gives_true _).bind fun rLine _ => (hnone rLine).bind ?_
    rintro _ rfl
    exact Maintains.pure ⟨-1, rfl, by decide⟩
  · rw [if_pos hret]
    exact Maintains.pure ⟨w.ret, rfl, hret⟩

/-- What the device has heard, whatever has become of the daemon. -/
def ToldOnly (n : Nat) (l : Link (Logged S)) : Prop :=
  ∀ c, l.server.conn = some c → Hears (Carries n) c.world

/-- The daemon's side only. -/
theorem toldOnly_daemonic : Daemonic (ToldOnly (S := S) n) := by
  intro l l' hserver _ hl
  rw [ToldOnly, hserver]
  exact hl

/-- A daemon that serves a token tells the device no other. -/
theorem Speaks.toldOnly {G : Text → Prop} {l : Link (Logged S)} (h : Speaks (Serves n) G l) :
    ToldOnly n l := fun c hc => (h c hc).1.hears

/-- **A success of TOKEN means that the daemon has the token.** -/
theorem setToken_hears (token : UInt32) {l : Link (Logged S)} (hl : Speaks Untold OpeningText l)
    (hsent : TokenSent token l) :
    Triple (smartiClientSetToken (W.listening limit) fuel token) l (fun rc l' =>
      ToldOnly token.toNat l' ∧ (rc = 0 → Speaks (Serves token.toNat) TransferText l'))
      anyHalt := by
  obtain ⟨hinput, hcut⟩ := hsent
  have hwrite : Triple
      (smarticSocketWrite (W.listening limit) fuel (tokenCommand token ++ ['\n'])) l
      (fun w l' => Written (fun c => Hears (Carries token.toNat) c.world) (Serves token.toNat)
        (tokenCommand token) (CutShort l.schedule ((tokenCommand token).length + 1)) (w, l'))
      anyHalt := by
    refine smarticSocketWrite_written (g := []) (fun _ _ => (Call.setToken token).command_line)
      (fun _ h => h) ?_ fun c hc => ⟨(hl c hc).1.imp fun _ => carries_of_none, hinput⟩
    exact fun c hc => (tokenCommand_serves token hc).imp fun _ _ h => ⟨h.hears, h.token⟩
  -- what the request comes to, by what the write has come to
  have hrequest : Triple (smarticRequest (W.listening limit) fuel (tokenCommand token)) l
      (fun r l' => ToldOnly token.toNat l' ∧
        ((∃ rv, r = .error rv ∧ rv ≠ 0) ∨ Speaks (Serves token.toNat) TransferText l'))
      anyHalt := by
    refine hwrite.bind fun w l₁ hwritten => ?_
    by_cases hw : w.ret ≠ 0 ∨ w.timeout = true
    · have htold : ToldOnly token.toNat l₁ := by
        intro c hc
        rcases hwritten c hc with ⟨hB, -⟩ | ⟨hA, -⟩
        · exact hB.hears
        · exact hA
      refine (((toldOnly_daemonic.firstResponse w) l₁ htold).and
        (firstResponse_fails hw l₁ trivial)).mono ?_ fun _ h => trivial
      exact fun r l' h => ⟨h.1.2, .inl h.2.1⟩
    · have hspeaks : Speaks (Serves token.toNat) TransferText l₁ := by
        intro c hc
        rcases hwritten c hc with ⟨hB, hempty⟩ | ⟨-, -, hwhy⟩
        · have hempty : l₁.server.input = [] := hempty
          rw [hempty]
          exact ⟨hB, transferText_nil⟩
        · exact absurd (hwhy.elim (fun h => .inl h) fun h => .inr (h.resolve_right hcut)) hw
      apply ((speaks_daemonic.firstResponse w) l₁ hspeaks).imp
      exact fun r l' h => ⟨h.2.toldOnly, .inr h.2⟩
  apply hrequest.bind
  rintro (rv | ⟨rLine, code, msg⟩) l₁ ⟨htold, hr⟩
  · refine Triple.pure ⟨htold, fun hrv => ?_⟩
    rcases hr with ⟨rv', h, hne⟩ | hspeaks
    · cases h
      exact absurd hrv hne
    · exact hspeaks
  · have hspeaks : Speaks (Serves token.toNat) TransferText l₁ := by
      rcases hr with ⟨rv, h, -⟩ | hspeaks
      · cases h
      · exact hspeaks
    dsimp only
    split
    · exact ⟨htold, fun _ => hspeaks⟩
    · exact ⟨htold, fun _ => hspeaks⟩

end Requests

/-! ### The network driver -/

section Network

variable {G : SmartiHost S} {limit : Option Nat}

/-- **Opening a device puts no token to it.** -/
theorem smartiDriverOpen_hears (dev : Nat) (devpath args : Text) :
    DriverKeeps (Speaks Untold OpeningText)
      (smartiDriverOpen (G.listening limit) dev devpath args) :=
  smartiDriverOpen_keeps speaks_daemonic dev devpath args fun _ _ => openingLines_untold _

/-- **A transfer puts the token of the callback to the device**, and no other, if the line of
TOKEN is sent as a whole. -/
theorem smartiDriverTransfer_hears {d : Desk (SmartiProc (Logged S))} {dcb : Option DeviceCallback}
    {base : SmartBase} {token : Nat} (hbase : d.state.dev.base = base)
    (hd : Speaks Untold OpeningText d.state.link) (htoken : (transferToken dcb base).2 = .ok token)
    (hsent : TokenSent (UInt32.ofNat token) d.state.link) (dev : Nat) :
    Triple (smartiDriverTransfer (G.listening limit) dev dcb) d
      (fun _ d' => ToldOnly token d'.state.link) anyHalt := by
  have hlt : token < 2 ^ 32 := transferToken_lt htoken
  have hnat : (UInt32.ofNat token).toNat = token := UInt32.toNat_ofNat_of_lt' hlt
  have huse : Triple (useHandle dev) d (fun _ d' => d'.state = d.state) anyHalt :=
    (useHandle_within (R := fun d d' => d'.state = d.state) (fun _ _ => rfl) dev d).imp
      fun _ _ h => h.2
  refine huse.bind fun _ d₁ hd₁ => ?_
  have hget : Triple (Smarti.getDev (S := Logged S)) d₁
      (fun a d' => a.base = base ∧ d'.state.link = d.state.link) anyHalt := by
    apply Triple.of_run rfl
    rw [hd₁]
    exact ⟨hbase, rfl⟩
  apply hget.bind
  rintro a d₂ ⟨ha, hd₂⟩
  dsimp only
  rw [ha, htoken]
  have hset : Triple (Smarti.setDev (S := Logged S) fun dev =>
      { dev with base := (transferToken dcb base).1 }) d₂
      (fun _ d' => d'.state.link = d.state.link) anyHalt := Triple.of_run rfl hd₂
  refine hset.bind fun _ d₃ hd₃ => ?_
  have hrequest : Triple (Smarti.call (smartiClientSetToken (G.listening limit).irda
      (G.listening limit).fuel (UInt32.ofNat token))) d₃ (fun rc d' =>
        ToldOnly token d'.state.link ∧ (rc = 0 → Speaks (Serves token) TransferText d'.state.link)) anyHalt := by
    rw [← hd₃] at hd hsent
    have hclient : Triple (smartiClientSetToken (G.irda.listening limit) G.fuel
        (UInt32.ofNat token)) d₃.state.link (fun rc l' => ToldOnly (UInt32.ofNat token).toNat l' ∧
          (rc = 0 → Speaks (Serves (UInt32.ofNat token).toNat) TransferText l')) anyHalt :=
      setToken_hears _ hd hsent
    rw [hnat] at hclient
    exact (call_spec hclient).imp fun _ _ h => h.2
  apply hrequest.bind
  rintro rc d₄ ⟨htold, hspeaks⟩
  have hfail : ∀ d, ToldOnly token d.state.link →
      Triple (smartiTransferFail (S := Logged S)) d (fun _ d' => ToldOnly token d'.state.link)
        anyHalt := fun d hd => (smartiTransferFail_keeps d hd).imp fun _ _ h => h.2
  split
  · exact hfail d₄ htold
  next hrc =>
    -- behind TOKEN there are only lines of a transfer
    have hsize : WriteKeeps (G.irda.listening limit) G.fuel (Speaks (Serves token) TransferText)
        "SIZE".toList := (transferKind hlt).keeps fun g hg => hg.append
      (transferText_of_cons (isEol_of_all (by decide)) (.inl rfl))
    have hxfer : WriteKeeps (G.irda.listening limit) G.fuel (Speaks (Serves token) TransferText)
        "XFER".toList := (transferKind hlt).keeps fun g hg => hg.append
      (transferText_of_cons (isEol_of_all (by decide)) (.inr rfl))
    have hcall := call_keeps (speaks_daemonic.info hsize 32) d₄ (hspeaks (not_not.mp hrc))
    apply hcall.bind
    rintro (rv | size) d₅ ⟨-, hd₅⟩
    · exact hfail d₅ (Speaks.toldOnly hd₅)
    dsimp only
    split
    · exact Triple.pure (Speaks.toldOnly hd₅)
    · exact (smartiDriverReadBlock_keeps (G := G.listening limit) speaks_daemonic hxfer size d₅
        hd₅).imp fun _ _ h => Speaks.toldOnly h.2

end Network

end BenthosDc
