/-
BenthosDc/Arglist.lean

Argument strings of the drivers (`arglist.c`).

The scanner reads a doubled `=` or `:` as a character, and a single one as the end of
a name or of an entry.  Next to such an end the doubling is ambiguous: of a run of
equal signs the scanner takes pairs first, so that a value cannot begin with `=`, and a
name behind another entry not with `:`.

The scanner collects a name and a value in buffers of 258 bytes, into which it writes without
looking at their length.  Here a character that does not fit is an error of its own
(`overrun`), so that a list is only ever read from strings that stay inside; `ArglistBounds`
runs over the buffers themselves.
-/
import BenthosDc.Lib.CString

namespace BenthosDc

open CString

/-! ### The scanner -/

/-- Why a string is not parsed: a single `=` in a value, or more characters than the
buffer of 258 bytes for a name or a value takes. -/
inductive ArgError
  | einval
  | overrun
  deriving DecidableEq

/-- The names and the values, in order. -/
abbrev Arglist := List (Text × Text)

/-- The local variables of `arglist_parse`; the entries are those linked so far. -/
structure ArgScan where
  inName : Bool
  name : Text
  value : Text
  entries : Arglist

/-- The variables before an entry. -/
def ArgScan.fresh (entries : Arglist) : ArgScan := ⟨true, [], [], entries⟩

/-- The buffer that is being written. -/
def ArgScan.current (s : ArgScan) : Text := if s.inName then s.name else s.value

/-- Characters behind the name or the value, whichever is being read. -/
def ArgScan.put (s : ArgScan) (t : Text) : ArgScan :=
  if s.inName then { s with name := s.name ++ t } else { s with value := s.value ++ t }

/-- There must be room for a character, or for the NUL behind the last one. -/
def ArgScan.room (s : ArgScan) : Except ArgError Unit :=
  if s.current.length < 258 then .ok () else .error .overrun

/-- One character, if there is room for it. -/
def ArgScan.push (s : ArgScan) (c : Char) : Except ArgError ArgScan := do
  s.room
  return s.put [c]

/-- The entry is linked. -/
def ArgScan.link (s : ArgScan) : ArgScan := ArgScan.fresh (s.entries ++ [(s.name, s.value)])

/-- The loop over the characters.  A doubled delimiter is looked for before a single one. -/
def arglistScan (s : ArgScan) : Text → Except ArgError Arglist
  | [] => do
    s.room
    return s.link.entries
  | '=' :: '=' :: rest => do
    arglistScan (← s.push '=') rest
  | '=' :: rest =>
    if !s.inName then .error .einval
    else do
      s.room
      arglistScan { s with inName := false } rest
  | ':' :: ':' :: rest => do
    arglistScan (← s.push ':') rest
  | ':' :: rest => do
    s.room
    arglistScan s.link rest
  | c :: rest => do
    arglistScan (← s.push c) rest

/-- The scanner stops at the NUL of the string. -/
def arglistParse (argstring : Text) : Except ArgError Arglist :=
  arglistScan (ArgScan.fresh []) (cstr argstring)

/-- The value of the first entry with the name; 1 if it is empty, 2 if there is none. -/
def arglistReadString (args : Arglist) (name : Text) : Except Int Text :=
  match args.find? fun e => e.1 = name with
  | none => .error 2
  | some (_, value) => if value = [] then .error 1 else .ok value

/-- `sscanf(sval, "%u", value) != 1` is the return value 1. -/
def arglistReadUint (args : Arglist) (name : Text) : Except Int Nat := do
  match strtoul (← arglistReadString args name) with
  | none => .error 1
  | some (n, _) => return n % 2 ^ 32

/-- `sscanf(sval, "%d", value) != 1` is the return value 1. -/
def arglistReadInt (args : Arglist) (name : Text) : Except Int Int := do
  match strtol (← arglistReadString args name) with
  | none => .error 1
  | some (n, _) => return n.bmod (2 ^ 32)

/-! ### Writing -/

/-- Every `=` and `:` is doubled. -/
def double : Text → Text
  | [] => []
  | c :: t => if c = '=' ∨ c = ':' then c :: c :: double t else c :: double t

/-- The pairs behind the first one, each with the colon before it. -/
def encodeRest : Arglist → Text
  | [] => []
  | (name, value) :: es => ':' :: (double name ++ '=' :: (double value ++ encodeRest es))

/-- The documented form of a list of pairs. -/
def encode : Arglist → Text
  | [] => []
  | (name, value) :: es => double name ++ '=' :: (double value ++ encodeRest es)

/-- What the scanner makes of the written form: the equal signs in front of a value go
to its name, and the colons in front of a name to the value before it. -/
def shifted (name value : Text) : Arglist → Arglist
  | [] => [(name ++ value.takeWhile (· = '='), value.dropWhile (· = '='))]
  | (name', value') :: es =>
    (name ++ value.takeWhile (· = '='),
      value.dropWhile (· = '=') ++ name'.takeWhile (· = ':')) ::
      shifted (name'.dropWhile (· = ':')) value' es

/-! ### Scanning what is doubled -/

section Scan

variable {s : ArgScan}

/-- There is room below 258 characters. -/
theorem room_eq (h : s.current.length < 258) : s.room = .ok () := if_pos h

/-- A character that fits is taken. -/
theorem push_eq (h : s.current.length < 258) (c : Char) : s.push c = .ok (s.put [c]) := by
  rw [ArgScan.push, room_eq h]
  rfl

/-- What is being read gets longer. -/
theorem current_put (s : ArgScan) (t : Text) : (s.put t).current = s.current ++ t := by
  rcases s with ⟨_ | _, name, value, entries⟩
  · rfl
  · rfl

/-- Characters in two portions. -/
theorem put_put (s : ArgScan) (t u : Text) : (s.put t).put u = s.put (t ++ u) := by
  rcases s with ⟨_ | _, name, value, entries⟩
  · simp [ArgScan.put]
  · simp [ArgScan.put]

theorem put_nil (s : ArgScan) : s.put [] = s := by
  rcases s with ⟨_ | _, name, value, entries⟩
  · simp [ArgScan.put]
  · simp [ArgScan.put]

/-- **What is doubled is read as it was**, whatever follows. -/
theorem scan_double (t rest : Text) (h : (s.current ++ t).length ≤ 258) :
    arglistScan s (double t ++ rest) = arglistScan (s.put t) rest := by
  induction t generalizing s with
  | nil => rw [put_nil]; rfl
  | cons c t ih =>
    rw [List.length_append, List.length_cons] at h
    have hroom : s.current.length < 258 := by omega
    have hlater : arglistScan (s.put [c]) (double t ++ rest) = arglistScan (s.put (c :: t)) rest := by
      rw [ih, put_put]
      · rfl
      · rw [current_put, List.append_assoc, List.length_append]
        show _ + (t.length + 1) ≤ 258
        omega
    rw [← hlater, double]
    -- a separator is doubled, and read as one character of the buffer
    by_cases heq : c = '='
    · subst heq
      rw [if_pos (.inl rfl)]
      show arglistScan s ('=' :: '=' :: (double t ++ rest)) = _
      rw [arglistScan, push_eq hroom]
      rfl
    by_cases hcolon : c = ':'
    · subst hcolon
      rw [if_pos (.inr rfl)]
      show arglistScan s (':' :: ':' :: (double t ++ rest)) = _
      rw [arglistScan, push_eq hroom]
      rfl
    · rw [if_neg (not_or.mpr ⟨heq, hcolon⟩)]
      show arglistScan s (c :: (double t ++ rest)) = _
      rw [arglistScan, push_eq hroom]
      · rfl
      all_goals simp_all

/-- The first character of a text is that of its doubled form. -/
theorem head_double {t rest : Text} {c : Char} (ht : ∀ t', t ≠ c :: t')
    (hrest : ∀ rest', rest ≠ c :: rest') (u : Text) : double t ++ rest ≠ c :: u := by
  cases t with
  | nil => exact hrest u
  | cons d t =>
    intro h
    rw [double] at h
    split at h
    · exact ht t ((List.cons.inj h).1 ▸ rfl)
    · exact ht t ((List.cons.inj h).1 ▸ rfl)

/-- **The end of a name**: the equal signs at the front of the value still belong to the
name. -/
theorem scan_nameEnd (hname : s.inName = true) {rest : Text} (hrest : ∀ rest', rest ≠ '=' :: rest')
    (value : Text) (h : s.name.length + value.length < 258) :
    arglistScan s ('=' :: (double value ++ rest)) =
      arglistScan { s with inName := false, name := s.name ++ value.takeWhile (· = '=') }
        (double (value.dropWhile (· = '=')) ++ rest) := by
  have hcurrent : s.current = s.name := if_pos hname
  induction value generalizing s with
  | nil =>
    have hroom : s.current.length < 258 := by
      rw [hcurrent]
      omega
    show arglistScan s ('=' :: rest) = arglistScan { s with inName := false, name := s.name ++ [] } rest
    rw [arglistScan, hname, room_eq hroom, List.append_nil]
    · rfl
    · exact hrest
  | cons c value ih =>
    rw [List.length_cons] at h
    have hroom : s.current.length < 258 := by
      rw [hcurrent]
      omega
    by_cases hc : c = '='
    · -- a pair is a character of the name, and the end is still to come
      subst hc
      have hput : s.put ['='] = { s with name := s.name ++ ['='] } := if_pos hname
      show arglistScan s ('=' :: '=' :: '=' :: (double value ++ rest)) = _
      rw [arglistScan, push_eq hroom, hput]
      refine (ih (s := { s with name := s.name ++ ['='] }) hname ?_ (if_pos hname)).trans ?_
      · show (s.name ++ ['=']).length + value.length < 258
        rw [List.length_append]
        show s.name.length + 1 + value.length < 258
        omega
      · simp
    · have hnext := head_double (t := c :: value) (c := '=') (fun t' h => hc (List.cons.inj h).1) hrest
      have hc' : decide (c = '=') = false := decide_eq_false hc
      rw [arglistScan, hname, room_eq hroom, List.takeWhile_cons, hc', List.dropWhile_cons, hc']
      · simp only [Bool.not_true, Bool.false_eq_true, if_false, List.append_nil]
        rfl
      · exact hnext

/-- **The end of an entry**: the colons at the front of the next name still belong to the
value. -/
theorem scan_entryEnd (hvalue : s.inName = false) {rest : Text} (hrest : ∀ rest', rest ≠ ':' :: rest')
    (name : Text) (h : s.value.length + name.length < 258) :
    arglistScan s (':' :: (double name ++ rest)) =
      arglistScan (ArgScan.fresh (s.entries ++ [(s.name, s.value ++ name.takeWhile (· = ':'))]))
        (double (name.dropWhile (· = ':')) ++ rest) := by
  have hcurrent : s.current = s.value := by rw [ArgScan.current, hvalue]; rfl
  induction name generalizing s with
  | nil =>
    have hroom : s.current.length < 258 := by
      rw [hcurrent]
      omega
    show arglistScan s (':' :: rest) =
      arglistScan (ArgScan.fresh (s.entries ++ [(s.name, s.value ++ [])])) rest
    rw [arglistScan, room_eq hroom, List.append_nil]
    · rfl
    · exact hrest
  | cons c name ih =>
    rw [List.length_cons] at h
    have hroom : s.current.length < 258 := by
      rw [hcurrent]
      omega
    -- a colon behind two of them is taken for an escaped one, and one is left over
    by_cases hc : c = ':'
    · subst hc
      have hput : s.put [':'] = { s with value := s.value ++ [':'] } := by
        rw [ArgScan.put, hvalue]
        rfl
      have hcurrent' : ({ s with value := s.value ++ [':'] } : ArgScan).current = s.value ++ [':'] := by
        rw [ArgScan.current, hvalue]
        rfl
      show arglistScan s (':' :: ':' :: ':' :: (double name ++ rest)) = _
      rw [arglistScan, push_eq hroom, hput]
      refine (ih (s := { s with value := s.value ++ [':'] }) hvalue ?_ hcurrent').trans ?_
      · show (s.value ++ [':']).length + name.length < 258
        rw [List.length_append]
        show s.value.length + 1 + name.length < 258
        omega
      · simp
    · have hnext := head_double (t := c :: name) (c := ':') (fun t' h => hc (List.cons.inj h).1) hrest
      have hc' : decide (c = ':') = false := decide_eq_false hc
      rw [arglistScan, room_eq hroom, List.takeWhile_cons, hc', List.dropWhile_cons, hc']
      · simp only [Bool.false_eq_true, if_false, List.append_nil]
        rfl
      · exact hnext

end Scan

/-! ### The list that is read -/

/-- The buffers hold two texts of 128 bytes. -/
def Fits (es : Arglist) : Prop := ∀ e ∈ es, e.1.length ≤ 128 ∧ e.2.length ≤ 128

/-- **The entries behind an entry** are read as they have been written, but for a delimiter that
has moved over. -/
theorem scan_encode (entries : Arglist) (name value : Text) (es : Arglist)
    (h : Fits ((name, value) :: es)) :
    arglistScan (ArgScan.fresh entries) (double name ++ '=' :: (double value ++ encodeRest es)) =
      .ok (entries ++ shifted name value es) := by
  have htake : ∀ (c : Char) (t : Text), (t.takeWhile (· = c)).length + (t.dropWhile (· = c)).length =
      t.length := by
    intro c t
    rw [← List.length_append, List.takeWhile_append_dropWhile]
  induction es generalizing entries name value with
  | nil =>
    obtain ⟨hname, hvalue⟩ := h (name, value) List.mem_cons_self
    have hname : name.length ≤ 128 := hname
    have hvalue : value.length ≤ 128 := hvalue
    have hsplit := htake '=' value
    rw [scan_double name _ (by show ([] ++ name).length ≤ 258; rw [List.nil_append]; omega)]
    show arglistScan ⟨true, [] ++ name, [], entries⟩ ('=' :: (double value ++ [])) = _
    -- the equal signs at the front of the value go to the name
    rw [List.nil_append, scan_nameEnd rfl (fun _ => by simp) value
      (by show name.length + value.length < 258; omega)]
    have hroom : ([] ++ value.dropWhile (· = '=')).length ≤ 258 := by
      rw [List.nil_append]
      omega
    rw [scan_double _ _ hroom]
    show arglistScan ⟨false, _, [] ++ value.dropWhile (· = '='), entries⟩ [] = _
    rw [arglistScan, room_eq (by show ([] ++ _ : Text).length < 258; rw [List.nil_append]; omega)]
    rfl
  | cons e es ih =>
    obtain ⟨name', value'⟩ := e
    obtain ⟨hname, hvalue⟩ := h (name, value) List.mem_cons_self
    obtain ⟨hname', hvalue'⟩ := h (name', value') (List.mem_cons_of_mem _ List.mem_cons_self)
    have hname : name.length ≤ 128 := hname
    have hvalue : value.length ≤ 128 := hvalue
    have hname' : name'.length ≤ 128 := hname'
    have hsplit := htake '=' value
    have hsplit' := htake ':' name'
    rw [scan_double name _ (by show ([] ++ name).length ≤ 258; rw [List.nil_append]; omega)]
    show arglistScan ⟨true, [] ++ name, [], entries⟩ ('=' :: (double value ++ ':' :: _)) = _
    rw [List.nil_append, scan_nameEnd rfl (fun _ => by simp) value
      (by show name.length + value.length < 258; omega)]
    have hroom : ([] ++ value.dropWhile (· = '=')).length ≤ 258 := by
      rw [List.nil_append]
      omega
    rw [scan_double _ _ hroom]
    show arglistScan ⟨false, name ++ value.takeWhile (· = '='), [] ++ value.dropWhile (· = '='), entries⟩
      (':' :: (double name' ++ '=' :: (double value' ++ encodeRest es))) = _
    -- the colons at the front of the next name go to the value
    rw [List.nil_append, scan_entryEnd rfl (fun _ => by simp) name'
      (by show (value.dropWhile (· = '=')).length + name'.length < 258; omega)]
    rw [ih _ (name'.dropWhile (· = ':')) value']
    · rw [List.append_assoc]
      rfl
    · intro e he
      rcases List.mem_cons.mp he with rfl | he
      · exact ⟨by show (name'.dropWhile _).length ≤ 128; omega, hvalue'⟩
      · exact h e (List.mem_cons_of_mem _ (List.mem_cons_of_mem _ he))

/-- Doubling brings in no new characters. -/
theorem mem_double {c : Char} {t : Text} (h : c ∈ double t) : c ∈ t := by
  induction t with
  | nil => exact h
  | cons d t ih =>
    rw [double] at h
    split at h
    · simp only [List.mem_cons] at h ⊢
      rcases h with h | h | h
      · exact .inl h
      · exact .inl h
      · exact .inr (ih h)
    · simp only [List.mem_cons] at h ⊢
      exact h.imp_right ih

/-- The characters of an encoded list: the delimiters, and those of its entries. -/
theorem mem_encodeRest {es : Arglist} {c : Char} (h : c ∈ encodeRest es) :
    c = ':' ∨ c = '=' ∨ ∃ e ∈ es, c ∈ e.1 ∨ c ∈ e.2 := by
  induction es with
  | nil => cases h
  | cons e es ih =>
    obtain ⟨name, value⟩ := e
    rw [encodeRest] at h
    simp only [List.mem_cons, List.mem_append] at h
    rcases h with h | h | h | h | h
    · exact .inl h
    · exact .inr (.inr ⟨_, List.mem_cons_self, .inl (mem_double h)⟩)
    · exact .inr (.inl h)
    · exact .inr (.inr ⟨_, List.mem_cons_self, .inr (mem_double h)⟩)
    · refine (ih h).imp_right fun h => h.imp_right ?_
      rintro ⟨e, he, hc⟩
      exact ⟨e, List.mem_cons_of_mem _ he, hc⟩

/-- No byte of a name or a value is NUL. -/
def NulFree (es : Arglist) : Prop := ∀ e ∈ es, '\x00' ∉ e.1 ∧ '\x00' ∉ e.2

/-- Where the entries have no NUL, neither has the string. -/
theorem cstr_encode {name value : Text} {es : Arglist} (h : NulFree ((name, value) :: es)) :
    cstr (encode ((name, value) :: es)) = encode ((name, value) :: es) := by
  apply List.takeWhile_eq_self_iff.mpr
  intro c hc
  simp only [decide_eq_true_eq, ne_eq]
  rintro rfl
  obtain ⟨hname, hvalue⟩ := h (name, value) List.mem_cons_self
  rw [encode] at hc
  simp only [List.mem_cons, List.mem_append] at hc
  rcases hc with hc | hc | hc | hc
  · exact hname (mem_double hc)
  · cases hc
  · exact hvalue (mem_double hc)
  · rcases mem_encodeRest hc with hc | hc | ⟨e, he, hc | hc⟩
    · cases hc
    · cases hc
    · exact (h e (List.mem_cons_of_mem _ he)).1 hc
    · exact (h e (List.mem_cons_of_mem _ he)).2 hc

/-- **The scanner succeeds on every list that fits**, with the shifted list. -/
theorem arglistParse_encode {name value : Text} {es : Arglist} (hfits : Fits ((name, value) :: es))
    (hnul : NulFree ((name, value) :: es)) :
    arglistParse (encode ((name, value) :: es)) = .ok (shifted name value es) := by
  rw [arglistParse, cstr_encode hnul]
  exact scan_encode [] name value es hfits

/-- Nothing is taken if the first character is another one. -/
theorem takeWhile_eq_nil_iff_head {c : Char} {t : Text} :
    t.takeWhile (· = c) = [] ↔ t.head? ≠ some c := by
  cases t with
  | nil => simp
  | cons d t => simp [List.takeWhile_cons]

/-- Nothing is shifted if and only if no value begins with an equal sign, and no name
behind the first one with a colon. -/
theorem shifted_eq_iff {name value : Text} {es : Arglist} :
    shifted name value es = (name, value) :: es ↔
      value.head? ≠ some '=' ∧ ∀ e ∈ es, e.1.head? ≠ some ':' ∧ e.2.head? ≠ some '=' := by
  have hdrop : ∀ {c : Char} {t : Text}, t.head? ≠ some c → t.dropWhile (· = c) = t := by
    intro c t h
    rw [← takeWhile_eq_nil_iff_head] at h
    have hsplit := List.takeWhile_append_dropWhile (p := fun d => decide (d = c)) (l := t)
    rwa [h, List.nil_append] at hsplit
  have hname : ∀ {c : Char} {t u : Text}, t ++ u.takeWhile (· = c) = t ↔ u.head? ≠ some c := by
    intro c t u
    rw [List.append_right_eq_self, takeWhile_eq_nil_iff_head]
  induction es generalizing name value with
  | nil =>
    rw [shifted, List.cons.injEq, Prod.mk.injEq, hname]
    constructor
    · rintro ⟨⟨h, -⟩, -⟩
      exact ⟨h, fun e he => (nomatch he)⟩
    · rintro ⟨h, -⟩
      exact ⟨⟨h, hdrop h⟩, rfl⟩
  | cons e es ih =>
    obtain ⟨name', value'⟩ := e
    rw [shifted, List.cons.injEq, Prod.mk.injEq, hname, List.forall_mem_cons]
    constructor
    · rintro ⟨⟨h, hvalue⟩, hrest⟩
      -- without the equal signs nothing is taken from the value, nor then from the name
      rw [hdrop h, hname] at hvalue
      rw [hdrop hvalue] at hrest
      obtain ⟨hvalue', hall⟩ := ih.mp hrest
      exact ⟨h, ⟨hvalue, hvalue'⟩, hall⟩
    · rintro ⟨h, ⟨hname', hvalue'⟩, hrest⟩
      rw [hdrop h, hname, hdrop hname']
      exact ⟨⟨h, hname'⟩, ih.mpr ⟨hvalue', hrest⟩⟩

/-- **The exact domain of the escaping**: a list that fits is read as it was written if and
only if no value begins with an equal sign, and no name but the first with a colon. -/
theorem arglistParse_encode_iff {es : Arglist} (hne : es ≠ []) (hfits : Fits es)
    (hnul : NulFree es) :
    arglistParse (encode es) = .ok es ↔
      (∀ e ∈ es, e.2.head? ≠ some '=') ∧ ∀ e ∈ es.tail, e.1.head? ≠ some ':' := by
  obtain ⟨⟨name, value⟩, es, rfl⟩ := List.exists_cons_of_ne_nil hne
  rw [arglistParse_encode hfits hnul, Except.ok.injEq, shifted_eq_iff, List.forall_mem_cons]
  constructor
  · rintro ⟨hvalue, h⟩
    exact ⟨⟨hvalue, fun e he => (h e he).2⟩, fun e he => (h e he).1⟩
  · rintro ⟨⟨hvalue, hvalues⟩, hnames⟩
    exact ⟨hvalue, fun e he => ⟨hnames e he, hvalues e he⟩⟩

/-- A path as in the documentation, and a name that begins with a colon. -/
theorem arglistParse_encode_iff_path :
    arglistParse (encode [("path".toList, "C:\\file".toList), (":n".toList, [])]) =
        .ok [("path".toList, "C:\\file".toList), (":n".toList, [])] ↔
      (∀ e ∈ [("path".toList, "C:\\file".toList), (":n".toList, [])], e.2.head? ≠ some '=') ∧
        ∀ e ∈ [("path".toList, "C:\\file".toList), (":n".toList, [])].tail, e.1.head? ≠ some ':' :=
  arglistParse_encode_iff (by decide) (by unfold Fits; decide) (by unfold NulFree; decide)

end BenthosDc
