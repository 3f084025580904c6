/-
BenthosDc/ArglistBounds.lean

What `arglist_parse` does to its two buffers (`arglist.c`).

`arglistTrace` runs the scanner over the buffers `name` and `value` themselves, 258
bytes each, and keeps what it does to them: every index that it writes, and the
bytes of every buffer that it passes to `strdup`.  Nothing in the scanner compares
an index with the size of a buffer, so the bounds hold just when the scan does not
go on behind 258 characters of one name or value (`arglistTrace_inBounds_iff`).

For a string that is in bounds the trace has the result of `arglistParse`, and
`arglistParse` reports an overrun for the others (`arglistParse_overrun_iff`).

The string is split into items first (`argItems`): characters, single delimiters, and doubled
ones, which count as one character.  How many characters run up between two delimiters is told
by the items alone; whether an item is reached depends on the delimiters in front of it and on
the allocations, which may fail (`alloc`).
-/
import BenthosDc.Arglist

namespace BenthosDc

open CString

/-! ### The scanner over its buffers -/

/-- The two buffers. -/
inductive ArgBuffer
  | name
  | value
  deriving DecidableEq

/-- A write to a buffer, or the bytes of a buffer that is duplicated. -/
inductive ArgEvent
  | write (buffer : ArgBuffer) (index : Nat)
  | strdup (bytes : Text)
  deriving DecidableEq

/-- The index is inside the buffer; the string ends inside it. -/
def ArgEvent.InBounds : ArgEvent → Prop
  | .write _ index => index < 258
  | .strdup bytes => '\x00' ∈ bytes

instance : DecidablePred ArgEvent.InBounds
  | .write _ index => inferInstanceAs (Decidable (index < 258))
  | .strdup bytes => inferInstanceAs (Decidable ('\x00' ∈ bytes))

/-- The local variables of `arglist_parse`. -/
structure ArgBuffers where
  inName : Bool
  name : Text
  nsize : Nat
  value : Text
  vsize : Nat
  entries : Arglist

/-- Both buffers are set to NUL bytes. -/
def ArgBuffers.fresh (entries : Arglist) : ArgBuffers :=
  ⟨true, List.replicate 258 '\x00', 0, List.replicate 258 '\x00', 0, entries⟩

/-- `name[nsize++] = c` or `value[vsize++] = c`; outside the buffer the byte is lost. -/
def ArgBuffers.put (b : ArgBuffers) (c : Char) : ArgBuffers :=
  if b.inName then { b with name := b.name.set b.nsize c, nsize := b.nsize + 1 }
  else { b with value := b.value.set b.vsize c, vsize := b.vsize + 1 }

/-- The write of `put`. -/
def ArgBuffers.write (b : ArgBuffers) : ArgEvent :=
  if b.inName then .write .name b.nsize else .write .value b.vsize

/-- The strings of the entry that is made. -/
def ArgBuffers.dups (b : ArgBuffers) : List ArgEvent := [.strdup b.name, .strdup b.value]

/-- The entry is linked. -/
def ArgBuffers.link (b : ArgBuffers) : ArgBuffers :=
  ArgBuffers.fresh (b.entries ++ [(cstr b.name, cstr b.value)])

/-- The loop and the last entry; `alloc k` is whether there is memory for the entry
`k`.  The result is `none` for the return value -1. -/
def arglistTrace (alloc : Nat → Bool) (b : ArgBuffers) : Text → List ArgEvent × Option Arglist
  | [] => if alloc b.entries.length then (b.dups, some b.link.entries) else ([], none)
  | '=' :: '=' :: rest =>
    let r := arglistTrace alloc (b.put '=') rest
    (b.write :: r.1, r.2)
  | '=' :: rest =>
    if !b.inName then ([], none)
    else
      let r := arglistTrace alloc { b.put '\x00' with inName := false } rest
      (b.write :: r.1, r.2)
  | ':' :: ':' :: rest =>
    let r := arglistTrace alloc (b.put ':') rest
    (b.write :: r.1, r.2)
  | ':' :: rest =>
    if alloc b.entries.length then
      let r := arglistTrace alloc (b.put '\x00').link rest
      (b.write :: ((b.put '\x00').dups ++ r.1), r.2)
    else ([b.write], none)
  | c :: rest =>
    let r := arglistTrace alloc (b.put c) rest
    (b.write :: r.1, r.2)

/-- `arglist_parse` with the two writes in front of the loop. -/
def arglistParseTrace (alloc : Nat → Bool) (argstring : Text) : List ArgEvent × Option Arglist :=
  let r := arglistTrace alloc (ArgBuffers.fresh []) (cstr argstring)
  (.write .name 0 :: .write .value 0 :: r.1, r.2)

/-! ### What the scanner reads -/

/-- A character of a name or a value, or a separator. -/
inductive ArgItem
  | char
  | equals
  | colon
  deriving DecidableEq

/-- A doubled sign is one character. -/
def argItems : Text → List ArgItem
  | [] => []
  | '=' :: '=' :: rest => .char :: argItems rest
  | '=' :: rest => .equals :: argItems rest
  | ':' :: ':' :: rest => .char :: argItems rest
  | ':' :: rest => .colon :: argItems rest
  | _ :: rest => .char :: argItems rest

/-- The scan gets through the items, from the entry `k` on: there is no single `=` in
a value, and memory for each entry. -/
def Passes (alloc : Nat → Bool) (k : Nat) (inName : Bool) : List ArgItem → Prop
  | [] => True
  | .char :: items => Passes alloc k inName items
  | .equals :: items => inName = true ∧ Passes alloc k false items
  | .colon :: items => alloc k = true ∧ Passes alloc (k + 1) true items

/-- 258 characters in a row behind which the scan goes on: it does not end there
without memory for the last entry, or with a single `=` in the value. -/
def Overlong (alloc : Nat → Bool) (k : Nat) (inName : Bool) (items : List ArgItem) : Prop :=
  ∃ pre post, items = pre ++ List.replicate 258 .char ++ post ∧ Passes alloc k inName pre ∧
    (post = [] → alloc (k + pre.count .colon) = true) ∧
    ∀ rest, post = .equals :: rest → Passes alloc k inName (pre ++ [.equals])

/-! ### The condition, character by character -/

/-- No write is out of bounds and no string unterminated, from `n` characters of the
current buffer on. -/
def Roomy (alloc : Nat → Bool) (k : Nat) (inName : Bool) (n : Nat) : List ArgItem → Prop
  | [] => alloc k = true → n < 258
  | .char :: items => n < 258 ∧ Roomy alloc k inName (n + 1) items
  | .equals :: items => inName = true → n < 258 ∧ Roomy alloc k false 0 items
  | .colon :: items => n < 258 ∧ (alloc k = true → Roomy alloc (k + 1) true 0 items)

section Items

variable {alloc : Nat → Bool} {k : Nat} {inName : Bool}

/-- Characters are passed over. -/
theorem passes_chars {n : Nat} {items : List ArgItem} :
    Passes alloc k inName (List.replicate n .char ++ items) ↔ Passes alloc k inName items := by
  induction n with
  | zero => exact Iff.rfl
  | succ n ih => exact ih

/-- Characters are no colons. -/
theorem count_chars (n : Nat) (items : List ArgItem) :
    (List.replicate n ArgItem.char ++ items).count ArgItem.colon = items.count ArgItem.colon := by
  rw [List.count_append, List.count_replicate]
  exact Nat.zero_add _

/-- Characters in a row are in front of a separator or behind it. -/
theorem split_run {n m : Nat} {x : ArgItem} (hx : x ≠ .char) (hm : 0 < m)
    {items pre post : List ArgItem}
    (h : List.replicate n .char ++ x :: items = pre ++ (List.replicate m .char ++ post)) :
    (∃ rest, List.replicate n .char = pre ++ (List.replicate m .char ++ rest) ∧
        post = rest ++ x :: items) ∨
      ∃ pre', pre = List.replicate n .char ++ x :: pre' ∧
        items = pre' ++ (List.replicate m .char ++ post) := by
  obtain ⟨m, rfl⟩ : ∃ k, m = k + 1 := ⟨m - 1, by omega⟩
  rcases List.append_eq_append_iff.mp h with ⟨as, rfl, has⟩ | ⟨bs, hbs, hpost⟩
  · rcases as with - | ⟨y, as⟩
    · exact absurd (List.cons.inj has).1 hx
    · obtain ⟨rfl, hitems⟩ := List.cons.inj has
      exact .inr ⟨as, rfl, hitems⟩
  · rcases List.append_eq_append_iff.mp hpost with ⟨cs, rfl, hcs⟩ | ⟨cs, hcs, hrest⟩
    · exact .inl ⟨cs, hbs, hcs⟩
    · rcases cs with - | ⟨y, cs⟩
      · rw [List.append_nil] at hcs
        exact .inl ⟨[], by rw [hbs, ← hcs, List.append_nil], hrest.symm⟩
      · -- the separator would be one of the characters
        obtain ⟨rfl, -⟩ := List.cons.inj hrest
        have hmem : x ∈ List.replicate (m + 1) ArgItem.char := by
          rw [hcs]
          exact List.mem_append_right _ List.mem_cons_self
        exact absurd (List.eq_of_mem_replicate hmem) hx

/-- The buffer is full when a row of 258 characters is complete. -/
theorem run_full {n : Nat} (hn : n ≤ 258) {pre rest : List ArgItem}
    (h : List.replicate n ArgItem.char = pre ++ (List.replicate 258 .char ++ rest)) :
    n = 258 ∧ pre = [] ∧ rest = [] := by
  have hlen := congrArg List.length h
  simp only [List.length_append, List.length_replicate] at hlen
  exact ⟨by omega, List.length_eq_zero_iff.mp (by omega), List.length_eq_zero_iff.mp (by omega)⟩

/-- A last run of characters is too long at 258: the NUL has no place. -/
theorem overlong_nil {n : Nat} (hn : n ≤ 258) :
    Overlong alloc k inName (List.replicate n .char) ↔ n = 258 ∧ alloc k = true := by
  constructor
  · rintro ⟨pre, post, heq, -, hlast, -⟩
    rw [List.append_assoc] at heq
    obtain ⟨hfull, rfl, rfl⟩ := run_full hn heq
    exact ⟨hfull, hlast rfl⟩
  · rintro ⟨rfl, halloc⟩
    exact ⟨[], [], by rw [List.append_nil]; rfl, trivial, fun _ => halloc, fun _ h => (nomatch h)⟩

/-- A character behind 258 others is written out of bounds. -/
theorem overlong_full {items : List ArgItem} :
    Overlong alloc k inName (List.replicate 258 .char ++ .char :: items) :=
  ⟨[], .char :: items, rfl, trivial, fun h => (nomatch h), fun _ h => (nomatch h)⟩

/-- A run in front of an equal sign. -/
theorem overlong_equals {n : Nat} (hn : n ≤ 258) {items : List ArgItem} :
    Overlong alloc k inName (List.replicate n .char ++ .equals :: items) ↔
      inName = true ∧ (n = 258 ∨ Overlong alloc k false items) := by
  constructor
  · rintro ⟨pre, post, heq, hpass, hlast, hnext⟩
    rw [List.append_assoc] at heq
    rcases split_run (by decide) (by decide) heq with ⟨rest, hrun, rfl⟩ | ⟨pre', rfl, hitems⟩
    · obtain ⟨hfull, rfl, rfl⟩ := run_full hn hrun
      exact ⟨(hnext items rfl).1, .inl hfull⟩
    · rw [passes_chars] at hpass
      refine ⟨hpass.1, .inr ⟨pre', post, ?_, hpass.2, ?_, ?_⟩⟩
      · rw [hitems, List.append_assoc]
      · intro hnil
        rw [← hlast hnil, count_chars]
        rfl
      · intro rest hrest
        have hlater := hnext rest hrest
        rw [List.append_assoc, passes_chars] at hlater
        exact hlater.2
  · rintro ⟨hname, rfl | ⟨pre, post, rfl, hpass, hlast, hnext⟩⟩
    · exact ⟨[], .equals :: items, rfl, trivial, fun h => (nomatch h), fun _ _ => ⟨hname, trivial⟩⟩
    · refine ⟨List.replicate n .char ++ .equals :: pre, post, ?_, ?_, ?_, ?_⟩
      · simp only [List.append_assoc, List.cons_append]
      · rw [passes_chars]
        exact ⟨hname, hpass⟩
      · intro hnil
        rw [← hlast hnil, count_chars]
        rfl
      · intro rest hrest
        rw [List.append_assoc, passes_chars]
        exact ⟨hname, hnext rest hrest⟩

/-- A run in front of a colon. -/
theorem overlong_colon {n : Nat} (hn : n ≤ 258) {items : List ArgItem} :
    Overlong alloc k inName (List.replicate n .char ++ .colon :: items) ↔
      n = 258 ∨ (alloc k = true ∧ Overlong alloc (k + 1) true items) := by
  have hcount : ∀ pre : List ArgItem,
      k + (List.replicate n ArgItem.char ++ ArgItem.colon :: pre).count ArgItem.colon =
        k + 1 + pre.count ArgItem.colon := by
    intro pre
    rw [count_chars, List.count_cons_self]
    omega
  constructor
  · rintro ⟨pre, post, heq, hpass, hlast, hnext⟩
    rw [List.append_assoc] at heq
    rcases split_run (by decide) (by decide) heq with ⟨rest, hrun, rfl⟩ | ⟨pre', rfl, hitems⟩
    · exact .inl (run_full hn hrun).1
    · rw [passes_chars] at hpass
      refine .inr ⟨hpass.1, pre', post, ?_, hpass.2, ?_, ?_⟩
      · rw [hitems, List.append_assoc]
      · intro hnil
        rw [← hcount]
        exact hlast hnil
      · intro rest hrest
        have hlater := hnext rest hrest
        rw [List.append_assoc, passes_chars] at hlater
        exact hlater.2
  · rintro (rfl | ⟨halloc, pre, post, rfl, hpass, hlast, hnext⟩)
    · exact ⟨[], .colon :: items, rfl, trivial, fun h => (nomatch h), fun _ h => (nomatch h)⟩
    · refine ⟨List.replicate n .char ++ .colon :: pre, post, ?_, ?_, ?_, ?_⟩
      · simp only [List.append_assoc, List.cons_append]
      · rw [passes_chars]
        exact ⟨halloc, hpass⟩
      · intro hnil
        rw [hcount]
        exact hlast hnil
      · intro rest hrest
        rw [List.append_assoc, passes_chars]
        exact ⟨halloc, hnext rest hrest⟩

/-- The two forms of the condition agree. -/
theorem roomy_iff {n : Nat} (hn : n ≤ 258) (items : List ArgItem) :
    Roomy alloc k inName n items ↔
      ¬Overlong alloc k inName (List.replicate n .char ++ items) := by
  induction items generalizing k inName n with
  | nil =>
    rw [List.append_nil, overlong_nil hn, Roomy]
    constructor
    · rintro h ⟨rfl, halloc⟩
      exact absurd (h halloc) (by decide)
    · intro h halloc
      have hne : n ≠ 258 := fun heq => h ⟨heq, halloc⟩
      omega
  | cons item items ih =>
    cases item with
    | char =>
      rw [Roomy]
      rcases Nat.lt_or_ge n 258 with hlt | hge
      · rw [ih (by omega), List.replicate_succ', List.append_assoc]
        exact ⟨fun h => h.2, fun h => ⟨hlt, h⟩⟩
      · obtain rfl : n = 258 := by omega
        exact ⟨fun h => absurd h.1 (by decide), fun h => absurd overlong_full h⟩
    | equals =>
      have hitems := @ih k false 0 (Nat.zero_le 258)
      rw [Roomy, overlong_equals hn, hitems]
      constructor
      · rintro h ⟨hname, hfull | hlater⟩
        · have hlt := (h hname).1
          omega
        · exact (h hname).2 hlater
      · intro h hname
        have hne : n ≠ 258 := fun heq => h ⟨hname, .inl heq⟩
        exact ⟨by omega, fun hlater => h ⟨hname, .inr hlater⟩⟩
    | colon =>
      have hitems := @ih (k + 1) true 0 (Nat.zero_le 258)
      rw [Roomy, overlong_colon hn, hitems]
      constructor
      · rintro ⟨hlt, h⟩ (hfull | ⟨halloc, hlater⟩)
        · omega
        · exact h halloc hlater
      · intro h
        have hne : n ≠ 258 := fun heq => h (.inl heq)
        exact ⟨by omega, fun halloc hlater => h (.inr ⟨halloc, hlater⟩)⟩

end Items

/-! ### The buffers and the scanner -/

/-- The bytes of a buffer that holds a text: NUL bytes up to the end. -/
def fill (t : Text) : Text := t ++ List.replicate (258 - t.length) '\x00'

/-- A character is written behind the others. -/
theorem fill_set {t : Text} (h : t.length < 258) (c : Char) :
    (fill t).set t.length c = fill (t ++ [c]) := by
  obtain ⟨m, hm⟩ : ∃ m, 258 - t.length = m + 1 := ⟨257 - t.length, by omega⟩
  have hm' : 258 - (t ++ [c]).length = m := by
    rw [List.length_append, List.length_singleton]
    omega
  rw [fill, fill, hm, hm', List.set_append_right _ _ (Nat.le_refl _), Nat.sub_self,
    List.append_assoc]
  rfl

/-- Behind them there is a NUL already. -/
theorem fill_set_nul {t : Text} (h : t.length < 258) : (fill t).set t.length '\x00' = fill t := by
  obtain ⟨m, hm⟩ : ∃ m, 258 - t.length = m + 1 := ⟨257 - t.length, by omega⟩
  rw [fill, hm, List.set_append_right _ _ (Nat.le_refl _), Nat.sub_self]
  rfl

/-- A buffer has its NUL if it is not full. -/
theorem nul_mem_fill {t : Text} (hnul : '\x00' ∉ t) : '\x00' ∈ fill t ↔ t.length < 258 := by
  rw [fill, List.mem_append, List.mem_replicate]
  constructor
  · rintro (h | ⟨h, -⟩)
    · exact absurd h hnul
    · omega
  · intro h
    exact .inr ⟨by omega, rfl⟩

/-- The string in a buffer. -/
theorem cstr_fill {t : Text} (hnul : '\x00' ∉ t) : cstr (fill t) = t := by
  have hzeros : ∀ n, cstr (List.replicate n '\x00') = [] := by
    intro n
    cases n <;> rfl
  rw [fill, cstr_append hnul, hzeros, List.append_nil]

/-- The buffers hold what the scanner has read. -/
structure ArgBuffers.Holds (b : ArgBuffers) (s : ArgScan) : Prop where
  inName : b.inName = s.inName
  name : b.name = fill s.name
  value : b.value = fill s.value
  nsize : s.inName = true → b.nsize = s.name.length
  vsize : b.vsize = s.value.length
  entries : b.entries = s.entries
  name_nul : '\x00' ∉ s.name
  value_nul : '\x00' ∉ s.value
  value_nil : s.inName = true → s.value = []
  name_lt : s.inName = false → s.name.length < 258

/-- The buffers are empty at the beginning of an entry. -/
theorem holds_fresh (entries : Arglist) :
    (ArgBuffers.fresh entries).Holds (ArgScan.fresh entries) :=
  { inName := rfl
    name := rfl
    value := rfl
    nsize := fun _ => rfl
    vsize := rfl
    entries := rfl
    name_nul := List.not_mem_nil
    value_nul := List.not_mem_nil
    value_nil := fun _ => rfl
    name_lt := fun h => nomatch h }

section Holds

variable {b : ArgBuffers} {s : ArgScan}

/-- A write is where the text ends. -/
theorem ArgBuffers.Holds.write (h : b.Holds s) : b.write.InBounds ↔ s.current.length < 258 := by
  rw [ArgBuffers.write, ArgScan.current, h.inName]
  cases hname : s.inName with
  | true =>
    show b.nsize < 258 ↔ s.name.length < 258
    rw [h.nsize hname]
  | false =>
    show b.vsize < 258 ↔ s.value.length < 258
    rw [h.vsize]

/-- A character of a name. -/
theorem ArgBuffers.put_name (hname : b.inName = true) (c : Char) :
    b.put c = { b with name := b.name.set b.nsize c, nsize := b.nsize + 1 } := if_pos hname

/-- A character of a value. -/
theorem ArgBuffers.put_value (hname : b.inName = false) (c : Char) :
    b.put c = { b with value := b.value.set b.vsize c, vsize := b.vsize + 1 } := by
  rw [ArgBuffers.put, hname]
  rfl

/-- Characters of a name. -/
theorem ArgScan.put_name (hname : s.inName = true) (t : Text) :
    s.put t = { s with name := s.name ++ t } := if_pos hname

/-- Characters of a value. -/
theorem ArgScan.put_value (hname : s.inName = false) (t : Text) :
    s.put t = { s with value := s.value ++ t } := by
  rw [ArgScan.put, hname]
  rfl

/-- Buffers and scanner take a character alike. -/
theorem ArgBuffers.Holds.put (h : b.Holds s) (hroom : s.current.length < 258) {c : Char}
    (hc : c ≠ '\x00') : (b.put c).Holds (s.put [c]) := by
  have hnul : ∀ {t : Text}, '\x00' ∉ t → '\x00' ∉ t ++ [c] := by
    intro t ht hmem
    rcases List.mem_append.mp hmem with hmem | hmem
    · exact ht hmem
    · exact hc (List.mem_singleton.mp hmem).symm
  rw [ArgScan.current] at hroom
  cases hname : s.inName with
  | true =>
    rw [hname, if_pos rfl] at hroom
    rw [ArgBuffers.put_name (h.inName.trans hname), ArgScan.put_name hname]
    exact {
      inName := h.inName
      name := by
        show b.name.set b.nsize c = fill (s.name ++ [c])
        rw [h.name, h.nsize hname, fill_set hroom]
      value := h.value
      nsize := fun _ => by
        show b.nsize + 1 = (s.name ++ [c]).length
        rw [h.nsize hname, List.length_append]
        rfl
      vsize := h.vsize
      entries := h.entries
      name_nul := hnul h.name_nul
      value_nul := h.value_nul
      value_nil := h.value_nil
      name_lt := fun hvalue => by cases hname.symm.trans hvalue }
  | false =>
    rw [hname, if_neg (by decide)] at hroom
    rw [ArgBuffers.put_value (h.inName.trans hname), ArgScan.put_value hname]
    exact {
      inName := h.inName
      name := h.name
      value := by
        show b.value.set b.vsize c = fill (s.value ++ [c])
        rw [h.value, h.vsize, fill_set hroom]
      nsize := fun hname' => by cases hname.symm.trans hname'
      vsize := by
        show b.vsize + 1 = (s.value ++ [c]).length
        rw [h.vsize, List.length_append]
        rfl
      entries := h.entries
      name_nul := h.name_nul
      value_nul := hnul h.value_nul
      value_nil := fun hname' => by cases hname.symm.trans hname'
      name_lt := h.name_lt }

/-- The name ends, and the value begins. -/
theorem ArgBuffers.Holds.equals (h : b.Holds s) (hname : s.inName = true)
    (hroom : s.name.length < 258) :
    ({ b.put '\x00' with inName := false } : ArgBuffers).Holds { s with inName := false } := by
  rw [ArgBuffers.put_name (h.inName.trans hname)]
  exact {
    inName := rfl
    name := by
      show b.name.set b.nsize '\x00' = fill s.name
      rw [h.name, h.nsize hname, fill_set_nul hroom]
    value := h.value
    nsize := fun h => nomatch h
    vsize := h.vsize
    entries := h.entries
    name_nul := h.name_nul
    value_nul := h.value_nul
    value_nil := fun h => nomatch h
    name_lt := fun _ => hroom }

/-- What is handed to `strdup` has a NUL if neither buffer is full. -/
theorem dups_inBounds {name value : Text} (hname : b.name = fill name)
    (hvalue : b.value = fill value) (hnnul : '\x00' ∉ name) (hvnul : '\x00' ∉ value) :
    (∀ e ∈ b.dups, e.InBounds) ↔ name.length < 258 ∧ value.length < 258 := by
  rw [ArgBuffers.dups, List.forall_mem_cons, List.forall_mem_singleton, ← nul_mem_fill hnnul,
    ← nul_mem_fill hvnul, ← hname, ← hvalue]
  exact Iff.rfl

/-- Both texts fit if the current one does. -/
theorem ArgBuffers.Holds.both_lt (h : b.Holds s) :
    s.name.length < 258 ∧ s.value.length < 258 ↔ s.current.length < 258 := by
  rw [ArgScan.current]
  cases hname : s.inName with
  | true =>
    rw [h.value_nil hname, if_pos rfl]
    exact and_iff_left (by decide)
  | false =>
    rw [if_neg (by decide)]
    exact and_iff_right (h.name_lt hname)

/-- The strings of an entry are terminated if the current one is. -/
theorem ArgBuffers.Holds.dups (h : b.Holds s) :
    (∀ e ∈ b.dups, e.InBounds) ↔ s.current.length < 258 :=
  (dups_inBounds h.name h.value h.name_nul h.value_nul).trans h.both_lt

/-- The entry is linked in both. -/
theorem link_holds {b' : ArgBuffers} (h : b.Holds s) (hname : b'.name = fill s.name)
    (hvalue : b'.value = fill s.value) (hentries : b'.entries = s.entries) :
    b'.link.Holds s.link := by
  rw [ArgBuffers.link, ArgScan.link, hname, hvalue, cstr_fill h.name_nul, cstr_fill h.value_nul,
    hentries]
  exact holds_fresh _

/-- Where an entry ends in bounds, its two buffers hold the name and the value. -/
theorem ArgBuffers.Holds.colon (h : b.Holds s) (hroom : s.current.length < 258) :
    (∀ e ∈ (b.put '\x00').dups, e.InBounds) ∧ (b.put '\x00').link.Holds s.link := by
  have hboth := h.both_lt.mpr hroom
  have hfill : (b.put '\x00').name = fill s.name ∧ (b.put '\x00').value = fill s.value ∧
      (b.put '\x00').entries = s.entries := by
    cases hname : s.inName with
    | true =>
      rw [ArgBuffers.put_name (h.inName.trans hname)]
      refine ⟨?_, h.value, h.entries⟩
      show b.name.set b.nsize '\x00' = fill s.name
      rw [h.name, h.nsize hname, fill_set_nul hboth.1]
    | false =>
      rw [ArgBuffers.put_value (h.inName.trans hname)]
      refine ⟨h.name, ?_, h.entries⟩
      show b.value.set b.vsize '\x00' = fill s.value
      rw [h.value, h.vsize, fill_set_nul hboth.2]
  exact ⟨(dups_inBounds hfill.1 hfill.2.1 h.name_nul h.value_nul).mpr hboth,
    link_holds h hfill.1 hfill.2.1 hfill.2.2⟩

end Holds

/-! ### The bounds of a scan -/

section Trace

variable {alloc : Nat → Bool}

/-- One write, and what follows if it is in bounds. -/
theorem forall_write_iff {b : ArgBuffers} {s : ArgScan} (h : b.Holds s) {events : List ArgEvent}
    {P : Prop} (hlater : s.current.length < 258 → ((∀ e ∈ events, e.InBounds) ↔ P)) :
    (∀ e ∈ b.write :: events, e.InBounds) ↔ s.current.length < 258 ∧ P := by
  rw [List.forall_mem_cons, h.write]
  exact and_congr_right hlater

/-- What is being read gets longer by one. -/
theorem length_current_put (s : ArgScan) (c : Char) :
    (s.put [c]).current.length = s.current.length + 1 := by
  rw [current_put, List.length_append]
  rfl

/-- A character does not end a name. -/
theorem put_inName (s : ArgScan) (t : Text) : (s.put t).inName = s.inName := by
  rcases s with ⟨_ | _, name, value, entries⟩ <;> rfl

/-- A character links no entry. -/
theorem put_entries (s : ArgScan) (t : Text) : (s.put t).entries = s.entries := by
  rcases s with ⟨_ | _, name, value, entries⟩ <;> rfl

/-- **The bounds, by what is read.** -/
theorem arglistTrace_roomy {text : Text} (hnul : '\x00' ∉ text) {b : ArgBuffers} {s : ArgScan}
    (h : b.Holds s) :
    (∀ e ∈ (arglistTrace alloc b text).1, e.InBounds) ↔
      Roomy alloc s.entries.length s.inName s.current.length (argItems text) := by
  -- a character goes into the current buffer, whichever sign it was
  have hchar : ∀ {c : Char} {rest : Text}, c ≠ '\x00' → ∀ {b : ArgBuffers} {s : ArgScan}, b.Holds s →
      (∀ {b : ArgBuffers} {s : ArgScan}, b.Holds s →
        ((∀ e ∈ (arglistTrace alloc b rest).1, e.InBounds) ↔
          Roomy alloc s.entries.length s.inName s.current.length (argItems rest))) →
      ((∀ e ∈ b.write :: (arglistTrace alloc (b.put c) rest).1, e.InBounds) ↔
        Roomy alloc s.entries.length s.inName s.current.length (.char :: argItems rest)) := by
    intro c rest hc b s h ih
    refine forall_write_iff h fun hroom => ?_
    rw [ih (h.put hroom hc), put_entries, put_inName, length_current_put]
  induction text using argItems.induct generalizing b s with
  | case1 =>
    rw [arglistTrace, argItems, Roomy, h.entries]
    split
    · next halloc =>
      rw [h.dups]
      exact ⟨fun hlt _ => hlt, fun hlt => hlt halloc⟩
    · next halloc =>
      exact ⟨fun _ htrue => absurd htrue halloc, fun _ _ hmem => absurd hmem List.not_mem_nil⟩
  | case2 rest ih =>
    rw [arglistTrace, argItems]
    exact hchar (by decide) h fun h => ih (fun hmem => hnul (by simp [hmem])) h
  | case3 rest hne ih =>
    rw [arglistTrace, argItems, h.inName]
    · cases hname : s.inName with
      | true =>
        refine (forall_write_iff h fun hroom => ?_).trans
          ⟨fun hlater _ => hlater, fun hlater => hlater rfl⟩
        rw [ArgScan.current, if_pos hname] at hroom
        apply (ih (fun hmem => hnul (by simp [hmem])) (h.equals hname hroom)).trans
        show Roomy alloc s.entries.length false s.value.length (argItems rest) ↔ _
        rw [h.value_nil hname]
        rfl
      | false =>
        exact ⟨fun _ hfalse => absurd hfalse Bool.false_ne_true,
          fun _ _ hmem => absurd hmem List.not_mem_nil⟩
    all_goals exact hne
  | case4 rest ih =>
    rw [arglistTrace, argItems]
    exact hchar (by decide) h fun h => ih (fun hmem => hnul (by simp [hmem])) h
  | case5 rest hne ih =>
    rw [arglistTrace, argItems, h.entries, Roomy]
    · cases halloc : alloc s.entries.length with
      | true =>
        refine forall_write_iff h fun hroom => ?_
        obtain ⟨hdups, hlink⟩ := h.colon hroom
        rw [List.forall_mem_append, and_iff_right hdups]
        apply (ih (fun hmem => hnul (by simp [hmem])) hlink).trans
        show Roomy alloc (s.entries ++ [(s.name, s.value)]).length true 0 (argItems rest) ↔ _
        rw [List.length_append]
        exact ⟨fun hlater _ => hlater, fun hlater => hlater rfl⟩
      | false =>
        exact forall_write_iff h fun _ =>
          ⟨fun _ hfalse => absurd hfalse Bool.false_ne_true,
            fun _ _ hmem => absurd hmem List.not_mem_nil⟩
    all_goals exact hne
  | case6 c rest hee he hcc hcl ih =>
    rw [arglistTrace, argItems]
    · refine hchar ?_ h fun h => ih (fun hmem => hnul (by simp [hmem])) h
      rintro rfl
      exact hnul List.mem_cons_self
    all_goals assumption

/-! ### The result of a scan -/

/-- A character does not end a name. -/
theorem ArgBuffers.put_inName (b : ArgBuffers) (c : Char) : (b.put c).inName = b.inName := by
  rcases b with ⟨_ | _, name, nsize, value, vsize, entries⟩ <;> rfl

/-- A character links no entry. -/
theorem ArgBuffers.put_entries (b : ArgBuffers) (c : Char) : (b.put c).entries = b.entries := by
  rcases b with ⟨_ | _, name, nsize, value, vsize, entries⟩ <;> rfl

/-- A character that is written changes neither the mode nor the entries. -/
theorem passes_char {c : Char} {items : List ArgItem} {b : ArgBuffers}
    (h : Passes alloc (b.put c).entries.length (b.put c).inName items ∧
      alloc ((b.put c).entries.length + items.count .colon) = true) :
    Passes alloc b.entries.length b.inName (.char :: items) ∧
      alloc (b.entries.length + (ArgItem.char :: items).count .colon) = true := by
  rw [b.put_entries, b.put_inName] at h
  exact h

/-- A string that is accepted passes to its end, with memory for the last entry. -/
theorem passes_of_accepted {text : Text} {b : ArgBuffers}
    (h : (arglistTrace alloc b text).2 ≠ none) :
    Passes alloc b.entries.length b.inName (argItems text) ∧
      alloc (b.entries.length + (argItems text).count .colon) = true := by
  induction text using argItems.induct generalizing b with
  | case1 =>
    rw [arglistTrace] at h
    split at h
    · next halloc => exact ⟨trivial, halloc⟩
    · exact absurd rfl h
  | case2 rest ih =>
    rw [arglistTrace] at h
    exact passes_char (ih h)
  -- an equals sign: in a value the scan has ended here
  | case3 rest hne ih =>
    rw [arglistTrace] at h
    · rw [argItems]
      · cases hname : b.inName with
        | true =>
          rw [hname] at h
          have hlater := ih h
          rw [show ({ b.put '\x00' with inName := false } : ArgBuffers).entries =
            (b.put '\x00').entries from rfl, b.put_entries] at hlater
          exact ⟨⟨rfl, hlater.1⟩, hlater.2⟩
        | false =>
          rw [hname] at h
          exact absurd rfl h
      exact hne
    · exact hne
  | case4 rest ih =>
    rw [arglistTrace] at h
    exact passes_char (ih h)
  -- a colon: there has been memory for its entry
  | case5 rest hne ih =>
    rw [arglistTrace] at h
    · rw [argItems, List.count_cons_self]
      · cases halloc : alloc b.entries.length with
        | true =>
          rw [halloc] at h
          have hlater := ih h
          rw [show (b.put '\x00').link.entries = (b.put '\x00').entries ++ [_] from rfl,
            b.put_entries, List.length_append, List.length_singleton] at hlater
          refine ⟨⟨halloc, hlater.1⟩, ?_⟩
          rw [← Nat.add_assoc, Nat.add_right_comm]
          exact hlater.2
        | false =>
          rw [halloc] at h
          exact absurd rfl h
      exact hne
    · exact hne
  | case6 c rest hee he hcc hcl ih =>
    rw [arglistTrace] at h
    · rw [argItems]
      · exact passes_char (ih h)
      all_goals assumption
    all_goals assumption

/-- What passes as a whole passes at its beginning. -/
theorem Passes.of_append {k : Nat} {inName : Bool} {pre post : List ArgItem}
    (h : Passes alloc k inName (pre ++ post)) : Passes alloc k inName pre := by
  induction pre generalizing k inName with
  | nil => trivial
  | cons item pre ih =>
    cases item with
    | char => exact ih (k := k) h
    | equals => exact ⟨h.1, ih h.2⟩
    | colon => exact ⟨h.1, ih h.2⟩

/-- Characters do not matter to a scan that passes. -/
theorem Passes.of_chars {k : Nat} {inName : Bool} {n : Nat} {pre post : List ArgItem}
    (h : Passes alloc k inName (pre ++ (List.replicate n .char ++ post))) :
    Passes alloc k inName (pre ++ post) := by
  induction pre generalizing k inName with
  | nil => exact passes_chars.mp h
  | cons item pre ih =>
    cases item with
    | char => exact ih (k := k) h
    | equals => exact ⟨h.1, ih h.2⟩
    | colon => exact ⟨h.1, ih h.2⟩

/-- **The bounds of `arglist_parse`.**  Its writes are inside the buffers, the strings
that it duplicates are terminated there, and a name or value that does not fit is
rejected, just when the scan does not go on behind 258 characters of one. -/
theorem arglistParseTrace_inBounds_iff (alloc : Nat → Bool) (argstring : Text) :
    ((∀ e ∈ (arglistParseTrace alloc argstring).1, e.InBounds) ∧
        ((∃ pre post, argItems (cstr argstring) = pre ++ List.replicate 258 .char ++ post) →
          (arglistParseTrace alloc argstring).2 = none)) ↔
      ¬Overlong alloc 0 true (argItems (cstr argstring)) := by
  have hbounds : (∀ e ∈ (arglistParseTrace alloc argstring).1, e.InBounds) ↔
      ¬Overlong alloc 0 true (argItems (cstr argstring)) := by
    have hnul : '\x00' ∉ cstr argstring := by
      intro hmem
      exact absurd (List.mem_takeWhile_imp hmem) (by decide)
    have hroomy := (@arglistTrace_roomy alloc _ hnul _ _ (holds_fresh [])).trans
      (roomy_iff (Nat.zero_le 258) _)
    rw [arglistParseTrace, List.forall_mem_cons, List.forall_mem_cons]
    exact ⟨fun h => hroomy.mp h.2.2, fun h => ⟨show 0 < 258 by decide, show 0 < 258 by decide,
      hroomy.mpr h⟩⟩
  rw [hbounds]
  refine ⟨fun h => h.1, fun h => ⟨h, ?_⟩⟩
  rintro ⟨pre, post, hitems⟩
  -- were the string accepted, the scan would have gone on behind the row
  by_contra haccepted
  obtain ⟨hpass, halloc⟩ := passes_of_accepted haccepted
  rw [hitems, List.append_assoc] at hpass
  refine h ⟨pre, post, hitems, hpass.of_append, ?_, ?_⟩
  · rintro rfl
    rw [hitems, List.append_nil, List.count_append, List.count_replicate] at halloc
    exact halloc
  · rintro rest rfl
    have hshort := hpass.of_chars
    rw [← List.singleton_append, ← List.append_assoc] at hshort
    exact hshort.of_append

/-- A name of 259 characters. -/
theorem not_arglistParseTrace_inBounds :
    ¬∀ (alloc : Nat → Bool) (argstring : Text),
      (∀ e ∈ (arglistParseTrace alloc argstring).1, e.InBounds) ∧
        ((∃ pre post, argItems (cstr argstring) = pre ++ List.replicate 258 .char ++ post) →
          (arglistParseTrace alloc argstring).2 = none) := by
  intro h
  have hwrite : ArgEvent.write .name 258 ∈
      (arglistParseTrace (fun _ => true) (List.replicate 259 'a')).1 := by decide +kernel
  exact absurd ((h (fun _ => true) (List.replicate 259 'a')).1 _ hwrite) (by decide)

end Trace

/-! ### The scanner without its buffers -/

/-- What the trace says of the result that `arglistScan` has. -/
def TraceAgrees (r : List ArgEvent × Option Arglist) (scan : Except ArgError Arglist) : Prop :=
  ((∀ e ∈ r.1, e.InBounds) ↔ scan ≠ .error .overrun) ∧
    (scan ≠ .error .overrun → r.2 = scan.toOption)

/-- A character in the buffers, and in the scanner: both take it, or it is out of bounds and an
overrun. -/
theorem agrees_write {b : ArgBuffers} {s : ArgScan} (h : b.Holds s)
    {r : List ArgEvent × Option Arglist} {scan : Except ArgError Arglist}
    (later : Except ArgError Arglist)
    (hin : s.current.length < 258 → scan = later ∧ TraceAgrees r later)
    (hout : ¬s.current.length < 258 → scan = .error .overrun) :
    TraceAgrees (b.write :: r.1, r.2) scan := by
  by_cases hroom : s.current.length < 258
  · obtain ⟨rfl, hlater⟩ := hin hroom
    refine ⟨?_, hlater.2⟩
    rw [List.forall_mem_cons, and_iff_right (h.write.mpr hroom)]
    exact hlater.1
  · obtain rfl := hout hroom
    refine ⟨⟨fun hall => ?_, fun hne => absurd rfl hne⟩, fun hne => absurd rfl hne⟩
    exact absurd (h.write.mp (hall _ List.mem_cons_self)) hroom

/-- There is no room from 258 characters on. -/
theorem room_eq_error {s : ArgScan} (h : ¬s.current.length < 258) : s.room = .error .overrun :=
  if_neg h

/-- A character that does not fit is an overrun. -/
theorem push_eq_error {s : ArgScan} (h : ¬s.current.length < 258) (c : Char) :
    s.push c = .error .overrun := by
  rw [ArgScan.push, room_eq_error h]
  rfl

/-- A character that is written. -/
theorem agrees_char {c : Char} {rest : Text} (hc : c ≠ '\x00') {b : ArgBuffers} {s : ArgScan}
    (h : b.Holds s)
    (ih : ∀ {b : ArgBuffers} {s : ArgScan}, b.Holds s →
      TraceAgrees (arglistTrace (fun _ => true) b rest) (arglistScan s rest)) :
    TraceAgrees (b.write :: (arglistTrace (fun _ => true) (b.put c) rest).1,
        (arglistTrace (fun _ => true) (b.put c) rest).2)
      (do arglistScan (← s.push c) rest) := by
  refine agrees_write h (arglistScan (s.put [c]) rest) ?_ ?_
  · intro hroom
    rw [push_eq hroom]
    exact ⟨rfl, ih (h.put hroom hc)⟩
  · intro hfull
    rw [push_eq_error hfull]
    rfl

/-- **The trace refines the scanner**, as long as there is memory. -/
theorem arglistTrace_agrees {text : Text} (hnul : '\x00' ∉ text) {b : ArgBuffers} {s : ArgScan}
    (h : b.Holds s) : TraceAgrees (arglistTrace (fun _ => true) b text) (arglistScan s text) := by
  induction text using argItems.induct generalizing b s with
  -- the end: the last name and value are copied into an entry
  | case1 =>
    rw [arglistTrace, arglistScan, if_pos rfl]
    by_cases hroom : s.current.length < 258
    · rw [room_eq hroom]
      refine ⟨⟨fun _ => by rintro ⟨⟩, fun _ => h.dups.mpr hroom⟩, fun _ => ?_⟩
      exact congrArg some (link_holds h h.name h.value h.entries).entries
    · rw [room_eq_error hroom]
      refine ⟨⟨fun hall => ?_, fun hne => absurd rfl hne⟩, fun hne => absurd rfl hne⟩
      exact absurd (h.dups.mp hall) hroom
  | case2 rest ih =>
    rw [arglistTrace, arglistScan]
    exact agrees_char (by decide) h fun h => ih (fun hmem => hnul (by simp [hmem])) h
  -- an equals sign: the name ends, and in a value the whole scan
  | case3 rest hne ih =>
    rw [arglistTrace, arglistScan, h.inName]
    · cases hname : s.inName with
      | true =>
        refine agrees_write h (arglistScan { s with inName := false } rest) ?_ ?_
        · intro hroom
          refine ⟨?_, ih (fun hmem => hnul (by simp [hmem])) (h.equals hname ?_)⟩
          · rw [room_eq hroom]
            rfl
          · rwa [ArgScan.current, if_pos hname] at hroom
        · intro hfull
          rw [room_eq_error hfull]
          rfl
      | false =>
        refine ⟨⟨fun _ => by rintro ⟨⟩, fun _ _ hmem => ?_⟩, fun _ => rfl⟩
        exact absurd hmem List.not_mem_nil
    all_goals exact hne
  | case4 rest ih =>
    rw [arglistTrace, arglistScan]
    exact agrees_char (by decide) h fun h => ih (fun hmem => hnul (by simp [hmem])) h
  -- a colon: an entry is added
  | case5 rest hne ih =>
    rw [arglistTrace, arglistScan, if_pos rfl]
    · refine @agrees_write b s h (_, _) _ (arglistScan s.link rest) ?_ ?_
      · intro hroom
        obtain ⟨hdups, hlink⟩ := h.colon hroom
        have hlater := ih (fun hmem => hnul (by simp [hmem])) hlink
        rw [room_eq hroom]
        refine ⟨rfl, ?_, hlater.2⟩
        rw [List.forall_mem_append, and_iff_right hdups]
        exact hlater.1
      · intro hfull
        rw [room_eq_error hfull]
        rfl
    all_goals exact hne
  | case6 c rest hee he hcc hcl ih =>
    rw [arglistTrace, arglistScan]
    · refine agrees_char ?_ h fun h => ih (fun hmem => hnul (by simp [hmem])) h
      rintro rfl
      exact hnul List.mem_cons_self
    all_goals assumption

/-- **An overrun is reported just when the bounds are not kept**; otherwise the
results are the same. -/
theorem arglistParse_overrun_iff (argstring : Text) :
    (arglistParse argstring = .error .overrun ↔
        ¬∀ e ∈ (arglistParseTrace (fun _ => true) argstring).1, e.InBounds) ∧
      (arglistParse argstring ≠ .error .overrun →
        (arglistParseTrace (fun _ => true) argstring).2 = (arglistParse argstring).toOption) := by
  have hnul : '\x00' ∉ cstr argstring := by
    intro hmem
    exact absurd (List.mem_takeWhile_imp hmem) (by decide)
  have hagrees := arglistTrace_agrees hnul (holds_fresh [])
  refine ⟨?_, hagrees.2⟩
  rw [arglistParseTrace, List.forall_mem_cons, List.forall_mem_cons]
  constructor
  · rintro hover ⟨-, -, hall⟩
    exact hagrees.1.mp hall hover
  · intro hout
    by_contra hne
    exact hout ⟨show 0 < 258 by decide, show 0 < 258 by decide, hagrees.1.mpr hne⟩

end BenthosDc
