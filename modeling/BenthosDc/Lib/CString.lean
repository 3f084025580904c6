/-
BenthosDc/Lib/CString.lean

Texts as the C library sees them: strings that end at a NUL, white space,
comparison without regard to case, and unsigned decimal numbers as they are
printed by `%u` and read by `strtoul` and `%u`.

A byte is a character below 256; an `unsigned long` has 64 bits.

A string in memory is a function from indices to characters, of which the string is what stands
in front of the first NUL.  What is behind that is unknown, so a text that is put into memory
without a NUL of its own is a string only if the memory behind it happens to hold one
(`stringAt_inMemory_iff`).
-/
import Mathlib.Algebra.Group.Int.Defs
import Mathlib.Algebra.Group.Nat.Defs
import Mathlib.Data.List.TakeWhile

namespace CString

/-- A byte is a character below 256. -/
abbrev Text := List Char

/-- The part of a text in front of the first NUL. -/
def cstr (s : Text) : Text := s.takeWhile (· ≠ '\x00')

/-- What stands in a string stands in the text that it is cut from. -/
theorem mem_cstr {s : Text} {c : Char} (h : c ∈ cstr s) : c ∈ s :=
  (List.takeWhile_prefix _).subset h

/-- Without a NUL in the first text the string goes on into the second. -/
theorem cstr_append {s : Text} (h : '\x00' ∉ s) (t : Text) : cstr (s ++ t) = s ++ cstr t := by
  apply List.takeWhile_append_of_pos
  intro c hc
  simp only [decide_eq_true_eq, ne_eq]
  rintro rfl
  exact h hc

/-- A text without a NUL is a string as a whole. -/
theorem cstr_eq {s : Text} (h : '\x00' ∉ s) : cstr s = s := by
  have happend := cstr_append h []
  rwa [List.append_nil, show cstr [] = [] from rfl, List.append_nil] at happend

/-! ### Strings in memory -/

/-- A text and what is behind it in memory. -/
def inMemory (text : Text) (behind : Nat → Char) (i : Nat) : Char :=
  (text[i]?).getD (behind (i - text.length))

/-- The string that begins at the front of a memory. -/
structure StringAt (mem : Nat → Char) (t : Text) : Prop where
  chars : ∀ i (h : i < t.length), mem i = t[i]
  noNul : '\x00' ∉ t
  nul : mem t.length = '\x00'

/-- In the text, the memory holds the text. -/
theorem inMemory_left {text : Text} {behind : Nat → Char} {i : Nat} (h : i < text.length) :
    inMemory text behind i = text[i] := by
  rw [inMemory, List.getElem?_eq_getElem h]
  rfl

/-- Behind the text it holds what it held before. -/
theorem inMemory_right (text : Text) (behind : Nat → Char) (i : Nat) :
    inMemory text behind (text.length + i) = behind i := by
  rw [inMemory, List.getElem?_eq_none (Nat.le_add_right _ _), Nat.add_sub_cancel_left]
  rfl

/-- The empty string is a NUL at once. -/
theorem stringAt_nil_iff {mem : Nat → Char} : StringAt mem [] ↔ mem 0 = '\x00' :=
  ⟨fun h => h.nul, fun h => ⟨fun _ hi => (nomatch hi), List.not_mem_nil, h⟩⟩

/-- **A text without NUL goes on with what is behind it.** -/
theorem stringAt_inMemory_iff {text t : Text} {behind : Nat → Char} (hnul : '\x00' ∉ text) :
    StringAt (inMemory text behind) t ↔ ∃ rest, t = text ++ rest ∧ StringAt behind rest := by
  constructor
  · intro h
    have hle : text.length ≤ t.length := by
      -- the string would end inside the text
      by_contra hlt
      have hlt := Nat.lt_of_not_le hlt
      have hend := h.nul
      rw [inMemory_left hlt] at hend
      exact hnul (hend ▸ List.getElem_mem hlt)
    have htake : t.take text.length = text := by
      apply List.ext_getElem
      · rw [List.length_take, Nat.min_eq_left hle]
      · intro i _ hi
        rw [List.getElem_take, ← h.chars i (Nat.lt_of_lt_of_le hi hle), inMemory_left hi]
    have hsplit : text ++ t.drop text.length = t := by
      have happ := List.take_append_drop text.length t
      rwa [htake] at happ
    refine ⟨t.drop text.length, hsplit.symm, ?_, ?_, ?_⟩
    · intro i hi
      rw [List.length_drop] at hi
      rw [List.getElem_drop, ← h.chars (text.length + i) (by omega), inMemory_right]
    · exact fun hmem => h.noNul (List.mem_of_mem_drop hmem)
    · rw [← inMemory_right text behind, List.length_drop, Nat.add_sub_cancel' hle]
      exact h.nul
  · rintro ⟨rest, rfl, h⟩
    refine ⟨?_, ?_, ?_⟩
    · intro i hi
      by_cases hleft : i < text.length
      · rw [inMemory_left hleft, List.getElem_append_left hleft]
      · obtain ⟨k, rfl⟩ := Nat.exists_eq_add_of_le (Nat.le_of_not_lt hleft)
        rw [List.length_append] at hi
        rw [inMemory_right, h.chars k (by omega), List.getElem_append_right (by omega)]
        simp
    · rw [List.mem_append, not_or]
      exact ⟨hnul, h.noNul⟩
    · rw [List.length_append, inMemory_right]
      exact h.nul

/-! ### Characters -/

/-- `isspace` -/
def isSpace (c : Char) : Bool :=
  c = ' ' ∨ c = '\t' ∨ c = '\n' ∨ c = '\x0b' ∨ c = '\x0c' ∨ c = '\r'

/-- `strncasecmp` of two texts without NUL, as a test for equality. -/
def strncaseEq : Nat → Text → Text → Bool
  | 0, _, _ => true
  | _ + 1, [], [] => true
  | n + 1, a :: s, b :: t => a.toLower = b.toLower ∧ strncaseEq n s t
  | _ + 1, _, _ => false

/-- Over the whole length of `s` the comparison tests for a prefix. -/
theorem strncaseEq_length_iff (s t : Text) :
    strncaseEq s.length s t ↔ s.map Char.toLower <+: t.map Char.toLower := by
  induction s generalizing t with
  | nil => simp [strncaseEq]
  | cons a s ih =>
    cases t with
    | nil => simp [strncaseEq]
    | cons b t => simp [strncaseEq, ih]

/-- `tolower` moves the letters A to Z by 32, and nothing else. -/
theorem toNat_toLower (c : Char) :
    c.toLower.toNat = if 65 ≤ c.toNat ∧ c.toNat ≤ 90 then c.toNat + 32 else c.toNat := by
  delta Char.toLower
  by_cases h : c.val ≥ 'A'.val ∧ c.val ≤ 'Z'.val
  · have h' : 65 ≤ c.toNat ∧ c.toNat ≤ 90 := h
    rw [dif_pos h, if_pos h']
    show (c.val.toNat + 32) % 2 ^ 32 = c.toNat + 32
    exact Nat.mod_eq_of_lt (by have := h'.2; show c.toNat + 32 < _; omega)
  · have h' : ¬(65 ≤ c.toNat ∧ c.toNat ≤ 90) := h
    rw [dif_neg h, if_neg h']

/-- A letter that has been made small stays as it is. -/
theorem toLower_toLower (c : Char) : c.toLower.toLower = c.toLower := by
  rw [← Char.toNat_inj, toNat_toLower c.toLower, if_neg]
  rw [toNat_toLower]
  split <;> omega

/-- `toupper` moves the letters a to z by 32, and nothing else. -/
theorem toNat_toUpper (c : Char) :
    c.toUpper.toNat = if 97 ≤ c.toNat ∧ c.toNat ≤ 122 then c.toNat - 32 else c.toNat := by
  unfold Char.toUpper
  by_cases h : 'a'.val ≤ c.val ∧ c.val ≤ 'z'.val
  · have h' : 97 ≤ c.toNat ∧ c.toNat ≤ 122 := h
    rw [dif_pos h, if_pos h']
    show (c.val + ('A'.val - 'a'.val)).toNat = c.toNat - 32
    rw [UInt32.toNat_add, show ('A'.val - 'a'.val).toNat = 2 ^ 32 - 32 by decide]
    show (c.toNat + (2 ^ 32 - 32)) % 2 ^ 32 = c.toNat - 32
    omega
  · have h' : ¬(97 ≤ c.toNat ∧ c.toNat ≤ 122) := h
    rw [dif_neg h, if_neg h']

/-- Both ways to ignore case agree. -/
theorem toUpper_eq_iff (a b : Char) : a.toUpper = b.toUpper ↔ a.toLower = b.toLower := by
  rw [← Char.toNat_inj, ← Char.toNat_inj]
  simp only [toNat_toUpper, toNat_toLower]
  split <;> split <;> split <;> split <;> omega

/-- `strcasecmp` of two texts without NUL, as a test for equality. -/
def strcaseEq (s t : Text) : Bool := s.map Char.toLower = t.map Char.toLower

/-- Texts are the same without regard to case if they are the same in small letters. -/
theorem strcaseEq_iff {s t : Text} :
    strcaseEq s t = true ↔ s.map Char.toLower = t.map Char.toLower :=
  decide_eq_true_iff

/-- Capital letters would tell the same. -/
theorem map_toUpper_eq_iff (s t : Text) :
    s.map Char.toUpper = t.map Char.toUpper ↔ strcaseEq s t = true := by
  rw [strcaseEq_iff]
  induction s generalizing t with
  | nil => cases t <;> simp
  | cons a s ih =>
    cases t with
    | nil => simp
    | cons b t => simp only [List.map_cons, List.cons.injEq, toUpper_eq_iff, ih]

/-! ### Decimal numbers -/

/-- `%u` and `%lu` -/
def decimal (n : Nat) : Text := Nat.toDigits 10 n

/-- `%d` -/
def decimalInt : Int → Text
  | .ofNat n => decimal n
  | .negSucc n => '-' :: decimal (n + 1)

/-- Read an `unsigned long` as `strtoul` does, with the rest of the text;
`none` if there are no digits.  Numbers too large give the greatest value. -/
def strtoul (s : Text) : Option (Nat × Text) :=
  let s := s.dropWhile isSpace
  let (neg, s) :=
    match s with
    | '-' :: s => (true, s)
    | '+' :: s => (false, s)
    | s => (false, s)
  let digits := s.takeWhile Char.isDigit
  if digits = [] then none
  else
    let n := Nat.ofDigitChars 10 digits 0
    let n := if 2 ^ 64 ≤ n then 2 ^ 64 - 1 else if neg then (2 ^ 64 - n) % 2 ^ 64 else n
    some (n, s.dropWhile Char.isDigit)

/-- Read a `long` as `strtol` does. -/
def strtol (s : Text) : Option (Int × Text) :=
  let s := s.dropWhile isSpace
  let (neg, s) :=
    match s with
    | '-' :: s => (true, s)
    | '+' :: s => (false, s)
    | s => (false, s)
  let digits := s.takeWhile Char.isDigit
  if digits = [] then none
  else
    let n := Nat.ofDigitChars 10 digits 0
    let n : Int := if neg then max (-n) (-2 ^ 63) else min n (2 ^ 63 - 1)
    some (n, s.dropWhile Char.isDigit)

/-- A number has a digit. -/
theorem decimal_ne_nil (n : Nat) : decimal n ≠ [] := Nat.toDigits_ne_nil

/-- No two numbers are printed alike. -/
theorem decimal_injective : Function.Injective decimal := by
  intro m n h
  have hvalue : ∀ k, Nat.ofDigitChars 10 (decimal k) 0 = k := fun k =>
    Nat.ofDigitChars_ten_toDigits
  rw [← hvalue m, h, hvalue n]

/-- A number without a sign is printed with digits only. -/
theorem isDigit_of_mem_decimal {n : Nat} {c : Char} (h : c ∈ decimal n) : c.isDigit :=
  Nat.isDigit_of_mem_toDigits (by decide) le_rfl h

/-- No character that is not a digit occurs in a printed number. -/
theorem not_mem_decimal {c : Char} (hc : c.isDigit = false) (n : Nat) : c ∉ decimal n := by
  intro h
  rw [isDigit_of_mem_decimal h] at hc
  cases hc

/-- What is neither a digit nor a minus sign does not stand in a printed number. -/
theorem not_mem_decimalInt {c : Char} (hc : c.isDigit = false) (hm : c ≠ '-') (i : Int) :
    c ∉ decimalInt i := by
  cases i with
  | ofNat n => exact not_mem_decimal hc n
  | negSucc n =>
    intro h
    rcases List.mem_cons.mp h with rfl | h
    · exact hm rfl
    · exact not_mem_decimal hc _ h

/-- **Numbers survive printing and reading.** -/
theorem strtoul_decimal {n : Nat} (hn : n < 2 ^ 64) {rest : Text}
    (hrest : rest.takeWhile Char.isDigit = []) :
    strtoul (decimal n ++ rest) = some (n, rest) := by
  obtain ⟨c, cs, hcs⟩ := List.exists_cons_of_ne_nil (decimal_ne_nil n)
  have hdigits : ∀ d ∈ decimal n, d.isDigit = true := fun d hd => isDigit_of_mem_decimal hd
  have hc : c.isDigit = true := hdigits c (by rw [hcs]; exact List.mem_cons_self)
  have hspace : isSpace c = false := by
    rw [isSpace, decide_eq_false_iff_not]
    rintro (rfl | rfl | rfl | rfl | rfl | rfl) <;> exact absurd hc (by decide)
  have hminus : c ≠ '-' := by
    rintro rfl
    exact absurd hc (by decide)
  have hplus : c ≠ '+' := by
    rintro rfl
    exact absurd hc (by decide)
  -- there is no space and no sign to skip
  have hskip : (decimal n ++ rest).dropWhile isSpace = c :: (cs ++ rest) := by
    rw [hcs, List.cons_append, List.dropWhile_cons, hspace]
    rfl
  have hrest' : rest.dropWhile Char.isDigit = rest := by
    have := List.takeWhile_append_dropWhile (p := Char.isDigit) (l := rest)
    rwa [hrest, List.nil_append] at this
  have htake : (decimal n ++ rest).takeWhile Char.isDigit = decimal n := by
    rw [List.takeWhile_append_of_pos hdigits, hrest, List.append_nil]
  have hdrop : (decimal n ++ rest).dropWhile Char.isDigit = rest := by
    rw [List.dropWhile_append_of_pos hdigits, hrest']
  have hvalue : Nat.ofDigitChars 10 (decimal n) 0 = n := Nat.ofDigitChars_ten_toDigits
  rw [strtoul, hskip]
  have hsign : (match c :: (cs ++ rest) with
      | '-' :: s => (true, s)
      | '+' :: s => (false, s)
      | s => (false, s)) = (false, decimal n ++ rest) := by
    rw [hcs]
    split
    · rename_i heq
      cases heq
      exact absurd rfl hminus
    · rename_i heq
      cases heq
      exact absurd rfl hplus
    · rfl
  rw [hsign]
  simp only [htake, hdrop, hvalue, decimal_ne_nil, if_false, Nat.not_le.mpr hn, Bool.false_eq_true]

/-- White space in front of a number is skipped. -/
theorem strtoul_blank (s : Text) : strtoul (' ' :: s) = strtoul s := rfl

end CString
