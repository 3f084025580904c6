/-
BenthosDc/Lib/Regex.lean

Searching a text for a regular expression without repetition.

An expression may match anywhere in the text, and `$` matches at the end of every line, as
it does by default in `boost::regex_search`: in front of a separator, but not inside of
`\r\n`.  A place in the text knows the character in front of it for that.

This is a model of what is used of the library, and not of the library: an expression with
characters that stand for themselves, sequence, alternative, option and `$` in the default
(Perl) syntax with `match_default`.  Assumed is that `regex_search` returns true exactly if
some part of the text matches, and throws nothing on such expressions; which match it finds,
and in what time, is not modelled.
-/
import BenthosDc.Lib.CString

namespace CString

/-- The expressions that are used. -/
inductive Regex
  | empty
  | char (c : Char)
  | seq (r s : Regex)
  | alt (r s : Regex)
  | opt (r : Regex)
  | eol
  deriving DecidableEq

/-- A place in a text: the character in front of it, if there is one, and what follows. -/
structure Place where
  last : Option Char
  rest : Text
  deriving DecidableEq

/-- What ends a line. -/
def isSeparator (c : Char) : Bool := c = '\n' ∨ c = '\r' ∨ c = '\x0c'

/-- Where `$` matches. -/
def Place.atEol (p : Place) : Bool :=
  match p.rest with
  | [] => true
  | c :: _ => isSeparator c ∧ ¬(p.last = some '\r' ∧ c = '\n')

/-- The places where a match that begins at a place may end. -/
def Regex.run : Regex → Place → List Place
  | empty, p => [p]
  | char c, ⟨_, d :: rest⟩ => if d = c then [⟨some d, rest⟩] else []
  | char _, ⟨_, []⟩ => []
  | seq r s, p => (r.run p).flatMap s.run
  | alt r s, p => r.run p ++ s.run p
  | opt r, p => r.run p ++ [p]
  | eol, p => if p.atEol then [p] else []

/-- The places of a text. -/
def places (last : Option Char) : Text → List Place
  | [] => [⟨last, []⟩]
  | c :: t => ⟨last, c :: t⟩ :: places (some c) t

/-- `regex_search` -/
def regexSearch (r : Regex) (t : Text) : Bool := (places none t).any fun p => !(r.run p).isEmpty

/-- A text that stands for itself. -/
def Regex.literal (w : Text) : Regex := w.foldr (fun c r => .seq (.char c) r) .empty

/-- Place `u` is behind place `p`, with the text `w` between them. -/
def Place.Skips (p u : Place) (w : Text) : Prop :=
  p.rest = w ++ u.rest ∧ u.last = w.getLast?.or p.last

variable {r s : Regex} {p u : Place} {w t : Text} {c : Char} {last : Option Char}

namespace Place.Skips

/-- Nothing lies between a place and itself only. -/
theorem nil_iff : p.Skips u [] ↔ u = p := by
  obtain ⟨last, rest⟩ := p
  obtain ⟨last', rest'⟩ := u
  simp [Place.Skips, and_comm, eq_comm]

/-- Over two texts one goes by way of the place between them. -/
theorem append_iff {v : Text} : p.Skips u (v ++ w) ↔ ∃ m : Place, p.Skips m v ∧ m.Skips u w := by
  constructor
  · rintro ⟨hrest, hlast⟩
    refine ⟨⟨v.getLast?.or p.last, w ++ u.rest⟩, ⟨?_, rfl⟩, rfl, ?_⟩
    · rw [hrest, List.append_assoc]
    · rw [hlast, List.getLast?_append, Option.or_assoc]
  · rintro ⟨m, ⟨hrest, hlast⟩, hrest', hlast'⟩
    refine ⟨?_, ?_⟩
    · rw [hrest, hrest', List.append_assoc]
    · rw [hlast', hlast, List.getLast?_append, Option.or_assoc]

end Place.Skips

namespace Regex

/-- A character matches itself. -/
theorem mem_run_char : u ∈ (char c).run p ↔ p.Skips u [c] := by
  obtain ⟨last, rest⟩ := p
  obtain ⟨last', rest'⟩ := u
  cases rest with
  | nil => simp [run, Place.Skips]
  | cons d rest =>
    by_cases hd : d = c
    · simp [run, Place.Skips, hd, and_comm, eq_comm]
    · simp [run, Place.Skips, hd]

/-- A sequence matches by way of a place in between. -/
theorem mem_run_seq : u ∈ (seq r s).run p ↔ ∃ m ∈ r.run p, u ∈ s.run m := List.mem_flatMap

/-- An alternative matches as one of its sides. -/
theorem mem_run_alt : u ∈ (alt r s).run p ↔ u ∈ r.run p ∨ u ∈ s.run p := List.mem_append

/-- An option matches nothing, too. -/
theorem mem_run_opt : u ∈ (opt r).run p ↔ u ∈ r.run p ∨ u = p := by
  simp [run]

/-- The end of a line matches where it is, and takes nothing. -/
theorem mem_run_eol : u ∈ eol.run p ↔ u = p ∧ p.atEol = true := by
  by_cases hp : p.atEol = true <;> simp [run, hp]

/-- A text matches itself. -/
theorem mem_run_literal : u ∈ (literal w).run p ↔ p.Skips u w := by
  induction w generalizing p with
  | nil =>
    rw [Place.Skips.nil_iff]
    exact List.mem_singleton
  | cons c w ih =>
    have hseq : literal (c :: w) = seq (char c) (literal w) := rfl
    rw [hseq, mem_run_seq, ← List.singleton_append, Place.Skips.append_iff]
    simp only [mem_run_char, ih]

end Regex

/-- The places of a text are those that one comes to by skipping a part of it. -/
theorem mem_places : p ∈ places last t ↔ ∃ w, (Place.mk last t).Skips p w := by
  induction t generalizing last with
  | nil =>
    constructor
    · intro hp
      exact ⟨[], Place.Skips.nil_iff.mpr (List.mem_singleton.mp hp)⟩
    · rintro ⟨w, hrest, hlast⟩
      obtain ⟨rfl, hnil⟩ := List.append_eq_nil_iff.mp hrest.symm
      exact List.mem_singleton.mpr (Place.Skips.nil_iff.mp ⟨hrest, hlast⟩)
  | cons c t ih =>
    have hstep : ∀ m : Place, (Place.mk last (c :: t)).Skips m [c] ↔ m = ⟨some c, t⟩ := by
      intro m
      rw [← Regex.mem_run_char]
      simp [Regex.run]
    rw [places, List.mem_cons, ih]
    constructor
    · rintro (rfl | ⟨w, hw⟩)
      · exact ⟨[], Place.Skips.nil_iff.mpr rfl⟩
      · exact ⟨[c] ++ w, Place.Skips.append_iff.mpr ⟨_, (hstep _).mpr rfl, hw⟩⟩
    · rintro ⟨w, hw⟩
      cases w with
      | nil => exact .inl (Place.Skips.nil_iff.mp hw)
      | cons d w =>
        -- the first character is skipped
        obtain rfl : d = c := by
          have hrest := hw.1
          exact (List.cons.inj hrest).1.symm
        have hsplit : (Place.mk last (d :: t)).Skips p ([d] ++ w) := hw
        obtain ⟨m, hm, hrest⟩ := Place.Skips.append_iff.mp hsplit
        obtain rfl := (hstep m).mp hm
        exact .inr ⟨w, hrest⟩

/-- **A search looks for a match at every place.** -/
theorem regexSearch_iff : regexSearch r t = true ↔
    ∃ w p u, (Place.mk none t).Skips p w ∧ u ∈ r.run p := by
  rw [regexSearch, List.any_eq_true]
  constructor
  · rintro ⟨p, hp, hrun⟩
    obtain ⟨w, hw⟩ := mem_places.mp hp
    obtain ⟨u, hu⟩ := List.exists_mem_of_ne_nil (r.run p) (by simpa using hrun)
    exact ⟨w, p, u, hw, hu⟩
  · rintro ⟨w, p, u, hw, hu⟩
    refine ⟨p, mem_places.mpr ⟨w, hw⟩, ?_⟩
    simpa using List.ne_nil_of_mem hu

end CString
