/-
BenthosDc/OutputFmt.lean

Output formatters and the loop that runs them over dives (`output_fmt.h`,
`run_parser` of `main.cpp`).

A formatter is the table of functions that an initialised `output_fmt_data_t`
holds, over its own data.  The functions return 0 for data with the right magic
number, and the parser of the driver is known here by what it reports and returns.

The loop stops at the first call of the parser that does not return 0, with the formatter as it
is then; a dive that is parsed is given to the formatter token by token (`dive`).
-/
import BenthosDc.SmartHeader
import BenthosDc.Lib.Printf

namespace BenthosDc

open CString

/-- The flags of `output_fmt_data_t_` that the callbacks test. -/
structure OutputFmtData where
  outputHeader : Bool
  outputProfile : Bool
  deriving DecidableEq

/-- The functions of `output_fmt_data_t_`. -/
structure Formatter (D : Type) where
  prologFn : D → D
  headerCb : D → HeaderEntry → D
  profileCb : D → Waypoint → D
  epilogFn : D → D
  closeFn : D → D

/-- What the callbacks are called with for one dive. -/
structure DiveTokens where
  header : List HeaderEntry
  profile : List Waypoint
  deriving DecidableEq

variable {D : Type}

namespace Formatter

/-- One pass of the loop of `run_parser`. -/
def dive (F : Formatter D) (s : D) (d : DiveTokens) : D :=
  F.epilogFn (d.profile.foldl F.profileCb (d.header.foldl F.headerCb (F.prologFn s)))

/-- All dives, one after the other. -/
def dives (F : Formatter D) (s : D) (ds : List DiveTokens) : D := ds.foldl F.dive s

@[simp] theorem dives_nil (F : Formatter D) (s : D) : F.dives s [] = s := rfl

/-- The first dive, and the others. -/
@[simp] theorem dives_cons (F : Formatter D) (s : D) (d : DiveTokens) (ds : List DiveTokens) :
    F.dives s (d :: ds) = F.dives (F.dive s d) ds := rfl

end Formatter

/-! ### `run_parser` -/

/-- The calls of the driver's parser for one dive: what they return, and the tokens they
report before they return. -/
structure ParserCalls where
  reset : Int
  headerRv : Int
  header : List HeaderEntry
  profileRv : Int
  profile : List Waypoint

/-- The tokens that the parser has reported. -/
def ParserCalls.dive (c : ParserCalls) : DiveTokens := ⟨c.header, c.profile⟩

/-- All three calls return 0. -/
def ParserCalls.Succeed (c : ParserCalls) : Prop := c.reset = 0 ∧ c.headerRv = 0 ∧ c.profileRv = 0

/-- `if (rv != 0)`: the formatter is disposed of. -/
def failOn (rv : Int) : Except Int Unit := if rv ≠ 0 then throw rv else pure ()

/-- One pass of the loop, with the places where it returns. -/
def runParserDive (F : Formatter D) (s : D) (c : ParserCalls) : Except Int D := do
  let s := F.prologFn s
  failOn c.reset
  let s := c.header.foldl F.headerCb s
  failOn c.headerRv
  let s := c.profile.foldl F.profileCb s
  failOn c.profileRv
  pure (F.epilogFn s)

/-- A dive that is parsed goes to the formatter. -/
theorem runParserDive_succeed (F : Formatter D) (s : D) {c : ParserCalls} (h : c.Succeed) :
    runParserDive F s c = .ok (F.dive s c.dive) := by
  obtain ⟨hreset, hheader, hprofile⟩ := h
  unfold runParserDive
  rw [hreset, hheader, hprofile]
  rfl

end BenthosDc
