/-
BenthosDc/Lib/Printf.lean

The conversions of `printf` and `strftime` that a text formatter needs:
zero-padded integers, doubles with a fixed number of decimals, and dates.

A double is Lean's own `Float`.  `%.nf` prints the exact value of the double
rounded to `n` decimals, a tie going to the even neighbour, so that a value of
hundredths such as `1.15` (which no double is) comes out as `1.1`.

The sign of a double is printed on its own, and a value that is rounded to zero keeps it, as
`printf` does.  Dates are those of the proleptic Gregorian calendar, counted in seconds from
its epoch.
-/
import BenthosDc.Lib.CString

namespace CString

/-! ### Integers -/

/-- `%0nd` of a number that is not negative -/
def padded (n k : Nat) : Text := List.replicate (n - (decimal k).length) '0' ++ decimal k

/-- A padded number is printed with digits only. -/
theorem isDigit_of_mem_padded {k n : Nat} {c : Char} (h : c ∈ padded k n) : c.isDigit := by
  rcases List.mem_append.mp h with h | h
  · rw [List.eq_of_mem_replicate h]
    rfl
  · exact isDigit_of_mem_decimal h

/-! ### Doubles -/

/-- `n / d` rounded to the nearest integer, a tie to the even one -/
def roundEven (n d : Nat) : Nat :=
  let q := n / d
  let r := n % d
  if 2 * r < d then q else if d < 2 * r then q + 1 else q + q % 2

/-- The magnitude `m * 2 ^ e` in units of `10 ^ -digits` -/
def scaled (digits m : Nat) (e : Int) : Nat :=
  if 0 ≤ e then m * 2 ^ e.toNat * 10 ^ digits else roundEven (m * 10 ^ digits) (2 ^ (-e).toNat)

/-- A number of units of `10 ^ -digits`, with its decimal point. -/
def fixedPoint (digits n : Nat) : Text :=
  decimal (n / 10 ^ digits) ++ '.' :: padded digits (n % 10 ^ digits)

/-- The minus sign, or nothing. -/
def signOf : Float.Model.UnpackedFloat.Sign → Text
  | .negative => ['-']
  | .positive => []

/-- `%.nf` -/
def printFixed (digits : Nat) (x : Float) : Text :=
  match x.toModel.unpack with
  | .notANumber => "nan".toList
  | .infinity s => signOf s ++ "inf".toList
  | .zero s => signOf s ++ fixedPoint digits 0
  | .finite s m e _ => signOf s ++ fixedPoint digits (scaled digits m e)

/-- A printed double has digits, a sign, a point, or is no number. -/
theorem mem_printFixed {digits : Nat} {x : Float} {c : Char} (h : c ∈ printFixed digits x) :
    c.isDigit ∨ c ∈ "-.naif".toList := by
  have hsign : ∀ s, c ∈ signOf s → c ∈ "-.naif".toList := by
    intro s hs
    cases s with
    | negative => exact List.mem_singleton.mp hs ▸ by decide
    | positive => exact absurd hs List.not_mem_nil
  have hfixed : ∀ n, c ∈ fixedPoint digits n → c.isDigit ∨ c ∈ "-.naif".toList := by
    intro n hn
    rcases List.mem_append.mp hn with hn | hn
    · exact .inl (isDigit_of_mem_decimal hn)
    · rcases List.mem_cons.mp hn with rfl | hn
      · exact .inr (by decide)
      · exact .inl (isDigit_of_mem_padded hn)
  have hnan : "nan".toList ⊆ "-.naif".toList := by decide
  have hinf : "inf".toList ⊆ "-.naif".toList := by decide
  unfold printFixed at h
  split at h
  · exact .inr (hnan h)
  · exact .inr ((List.mem_append.mp h).elim (hsign _) fun hc => hinf hc)
  · exact (List.mem_append.mp h).elim (fun hs => .inr (hsign _ hs)) (hfixed _)
  · exact (List.mem_append.mp h).elim (fun hs => .inr (hsign _ hs)) (hfixed _)

-- the double next to 1.15 lies below it, 1.25 is one
example : [115, 125, -7, 1234].map (fun v => printFixed 1 (Float.ofInt v / 100))
    = ["1.1".toList, "1.2".toList, "-0.1".toList, "12.3".toList] := by decide +kernel

/-! ### Dates -/

/-- Year, month and day, `days` days after 1 January 1970.  Years are counted from March, in
eras of 400 years. -/
def civil (days : Int) : Int × Nat × Nat :=
  let era := (days + 719468) / 146097
  let doe := ((days + 719468) % 146097).toNat
  let yoe := (doe - doe / 1460 + doe / 36524 - doe / 146096) / 365
  let doy := doe - (365 * yoe + yoe / 4 - yoe / 100)
  let mp := (5 * doy + 2) / 153
  let month := if mp < 10 then mp + 3 else mp - 9
  (yoe + era * 400 + if month ≤ 2 then 1 else 0, month, doy - (153 * mp + 2) / 5 + 1)

/-- `strftime` of `gmtime` with `%Y-%m-%dT%H:%M:%S`, for a time whose year is not negative -/
def isoTime (st : Int) : Text :=
  let (year, month, day) := civil (st / 86400)
  let secs := (st % 86400).toNat
  decimalInt year ++ '-' :: padded 2 month ++ '-' :: padded 2 day ++ 'T' ::
    padded 2 (secs / 3600) ++ ':' :: padded 2 (secs / 60 % 60) ++ ':' :: padded 2 (secs % 60)

example : isoTime 1393632000 = "2014-03-01T00:00:00".toList ∧
    isoTime (-1) = "1969-12-31T23:59:59".toList := by decide +kernel

end CString
