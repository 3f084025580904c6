/-
BenthosDc/ArglistQueries.lean

The length of an argument list, and the questions a driver asks it (`arglist.c`).

Behind the loop the scanner links one more entry, whatever is left of the string: a
comment says that this is for strings that do not end in a colon, but nothing tests it
(`arglistParse_oneEntryPerToken_iff`).  `arglist_hasvalue` says that every argument it
finds has a value, also an empty one, which `arglist_read_string` takes for none
(`arglistQueries_agree_iff`).

A token ends at a single colon or at the end of the string.  Which colon is single is told by
the run that it stands in: the scanner takes pairs from its left, so the last one of an odd run
is single.
-/
import BenthosDc.ArglistBounds

namespace BenthosDc

open CString

/-! ### The queries -/

/-- `arglist_count`, over the links of the list. -/
def arglistCount : Arglist → Nat
  | [] => 0
  | _ :: args => arglistCount args + 1

/-- `arglist_has`: the first entry with the name decides. -/
def arglistHas : Arglist → Text → Int
  | [], _ => 0
  | (n, _) :: args, name => if n = name then 1 else arglistHas args name

/-- The value that `strdup` has made is not null. -/
def arglistHasvalue : Arglist → Text → Int
  | [], _ => 0
  | (n, value) :: args, name =>
    if n = name then if some value ≠ none ∨ value.length = 0 then 1 else 0
    else arglistHasvalue args name

/-- The return value of `arglist_read_string`. -/
def readStringRet (args : Arglist) (name : Text) : Int :=
  match arglistReadString args name with
  | .ok _ => 0
  | .error rc => rc

/-- It counts the entries. -/
theorem arglistCount_eq (args : Arglist) : arglistCount args = args.length := by
  induction args with
  | nil => rfl
  | cons e args ih => rw [arglistCount, ih, List.length_cons]

/-! ### Tokens -/

/-- The colons in a row that end at a position. -/
def colonsUpTo (t : Text) (p : Nat) : Nat := ((t.take (p + 1)).reverse.takeWhile (· = ':')).length

/-- An unescaped colon: the last one of a row that does not come out in pairs. -/
def EndsToken (t : Text) (p : Nat) : Prop :=
  t[p]? = some ':' ∧ t[p + 1]? ≠ some ':' ∧ colonsUpTo t p % 2 = 1

instance (t : Text) : DecidablePred (EndsToken t) := fun _ => instDecidableAnd

/-- The positions of the unescaped colons. -/
def tokenEnds (t : Text) : List Nat := (List.range t.length).filter (EndsToken t)

/-- What is behind the last unescaped colon. -/
def remainder (t : Text) : Text := t.drop (((tokenEnds t).getLast?.map (· + 1)).getD 0)

/-- One entry for each token that a colon ends, and one for a remainder. -/
def wantedEntries (t : Text) : Nat := (tokenEnds t).length + if remainder t = [] then 0 else 1

/-- The colons at the end of a text. -/
def trailingColons (t : Text) : Nat := (t.reverse.takeWhile (· = ':')).length

/-- The ends of a string, by its first character. -/
theorem length_tokenEnds_cons (c : Char) (t : Text) :
    (tokenEnds (c :: t)).length = (if EndsToken (c :: t) 0 then 1 else 0) +
      ((List.range t.length).filter fun p => EndsToken (c :: t) (p + 1)).length := by
  rw [tokenEnds, List.length_cons, List.range_succ_eq_map, List.filter_cons, List.filter_map,
    apply_ite List.length, List.length_cons, List.length_map]
  by_cases h : EndsToken (c :: t) 0
  · simp only [h, decide_true, if_true]
    exact Nat.add_comm _ 1
  · simp only [h, decide_false, Bool.false_eq_true, if_false]
    exact (Nat.zero_add _).symm

/-- A character in front of which no row of colons goes on. -/
theorem endsToken_cons {c : Char} {t : Text} (h : c ≠ ':' ∨ t.head? ≠ some ':') (p : Nat) :
    EndsToken (c :: t) (p + 1) ↔ EndsToken t p := by
  have hrow : t[p]? = some ':' → colonsUpTo (c :: t) (p + 1) = colonsUpTo t p := by
    intro hp
    rw [colonsUpTo, List.take_succ_cons, List.reverse_cons, List.takeWhile_append]
    split
    · next hall =>
      rcases h with hc | hhead
      · rw [List.takeWhile_cons_of_neg (by simp [hc]), List.append_nil, colonsUpTo, hall]
      · -- the first character of the rest is in the row
        cases t with
        | nil => cases hp
        | cons d t =>
          have hmem : d ∈ (List.take (p + 1) (d :: t)).reverse := by simp
          rw [← (List.takeWhile_prefix _).eq_of_length hall] at hmem
          have hd := List.mem_takeWhile_imp hmem
          rw [decide_eq_true_eq] at hd
          exact absurd (congrArg some hd) hhead
    · rfl
  constructor
  · rintro ⟨hp, hnext, hodd⟩
    exact ⟨hp, hnext, hrow hp ▸ hodd⟩
  · rintro ⟨hp, hnext, hodd⟩
    exact ⟨hp, hnext, (hrow hp).symm ▸ hodd⟩

/-- Two colons in front of a row do not change its parity. -/
theorem endsToken_pair (t : Text) (p : Nat) :
    EndsToken (':' :: ':' :: t) (p + 2) ↔ EndsToken t p := by
  have hrow : colonsUpTo (':' :: ':' :: t) (p + 2) % 2 = colonsUpTo t p % 2 := by
    rw [colonsUpTo, List.take_succ_cons, List.take_succ_cons, List.reverse_cons, List.reverse_cons,
      List.append_assoc, List.takeWhile_append]
    split
    · next hall =>
      rw [List.length_append, ← hall]
      exact Nat.add_mod_right _ 2
    · rfl
  show _ ∧ _ ∧ _ ↔ _ ∧ _ ∧ _
  rw [hrow]
  rfl

/-- A character that is no colon ends no token. -/
theorem length_tokenEnds_of_ne {c : Char} {t : Text} (hc : c ≠ ':') :
    (tokenEnds (c :: t)).length = (tokenEnds t).length := by
  have hzero : ¬EndsToken (c :: t) 0 := fun h => hc (Option.some.inj h.1)
  rw [length_tokenEnds_cons, if_neg hzero, Nat.zero_add]
  simp only [endsToken_cons (.inl hc)]
  rfl

/-- An escaped colon ends no token. -/
theorem length_tokenEnds_pair (t : Text) :
    (tokenEnds (':' :: ':' :: t)).length = (tokenEnds t).length := by
  have hzero : ¬EndsToken (':' :: ':' :: t) 0 := fun h => h.2.1 rfl
  have heven : colonsUpTo (':' :: ':' :: t) (0 + 1) = 2 := rfl
  have hone : ¬EndsToken (':' :: ':' :: t) (0 + 1) := by
    rintro ⟨-, -, hodd⟩
    rw [heven] at hodd
    cases hodd
  rw [length_tokenEnds_cons, if_neg hzero, Nat.zero_add, List.length_cons,
    List.range_succ_eq_map, List.filter_cons, decide_eq_false hone, List.filter_map,
    if_neg Bool.false_ne_true, List.length_map]
  show (List.filter (fun p => decide (EndsToken (':' :: ':' :: t) (p + 2))) _).length = _
  simp only [endsToken_pair]
  rfl

/-- A single colon ends one. -/
theorem length_tokenEnds_colon {t : Text} (hhead : t.head? ≠ some ':') :
    (tokenEnds (':' :: t)).length = (tokenEnds t).length + 1 := by
  have hnext : (':' :: t)[0 + 1]? ≠ some ':' := by
    rwa [List.getElem?_cons_succ, ← List.head?_eq_getElem?]
  have hzero : EndsToken (':' :: t) 0 := ⟨rfl, hnext, rfl⟩
  rw [length_tokenEnds_cons, if_pos hzero]
  simp only [endsToken_cons (.inr hhead)]
  exact Nat.add_comm _ _

/-- **The tokens of a string are those that the scanner ends with a colon.** -/
theorem length_tokenEnds (t : Text) : (tokenEnds t).length = (argItems t).count .colon := by
  induction t using argItems.induct with
  | case1 => rfl
  | case2 rest ih =>
    rw [length_tokenEnds_of_ne (by decide), length_tokenEnds_of_ne (by decide), ih, argItems]
    rfl
  | case3 rest hne ih =>
    rw [length_tokenEnds_of_ne (by decide), ih, argItems]
    · rfl
    · exact hne
  | case4 rest ih =>
    rw [length_tokenEnds_pair, ih, argItems, List.count_cons_of_ne (by decide)]
  | case5 rest hne ih =>
    have hhead : rest.head? ≠ some ':' := by
      intro hhead
      obtain ⟨rest', rfl⟩ := List.head?_eq_some_iff.mp hhead
      exact hne rest' rfl
    rw [length_tokenEnds_colon hhead, ih, argItems, List.count_cons_self]
    exact hne
  | case6 c rest hee he hcc hcl ih =>
    have hc : c ≠ ':' := by
      rintro rfl
      exact hcl rfl
    rw [length_tokenEnds_of_ne hc, ih, argItems]
    · rfl
    all_goals assumption

/-- The last character ends a token just if it ends an odd row of colons. -/
theorem endsToken_last (u : Text) (c : Char) :
    EndsToken (u ++ [c]) u.length ↔ trailingColons (u ++ [c]) % 2 = 1 := by
  have hlen : (u ++ [c]).length = u.length + 1 := List.length_append
  have hall : colonsUpTo (u ++ [c]) u.length = trailingColons (u ++ [c]) := by
    rw [colonsUpTo, ← hlen, List.take_length, trailingColons]
  rw [EndsToken, hall]
  refine ⟨fun h => h.2.2, fun hodd => ⟨?_, ?_, hodd⟩⟩
  · -- an odd number of colons is not 0
    by_contra hne
    rw [List.getElem?_concat_length] at hne
    have hc : c ≠ ':' := fun hc => hne (congrArg some hc)
    rw [trailingColons, List.reverse_append, List.reverse_singleton, List.singleton_append,
      List.takeWhile_cons_of_neg (by simp [hc])] at hodd
    cases hodd
  · rw [List.getElem?_eq_none hlen.le]
    exact nofun

/-- The ends of a string, by its last character. -/
theorem tokenEnds_concat (u : Text) (c : Char) :
    tokenEnds (u ++ [c]) = (List.range u.length).filter (EndsToken (u ++ [c])) ++
      if EndsToken (u ++ [c]) u.length then [u.length] else [] := by
  rw [tokenEnds, List.length_append, List.length_singleton, List.range_succ, List.filter_append,
    List.filter_cons, List.filter_nil]
  by_cases h : EndsToken (u ++ [c]) u.length
  · simp only [h, decide_true, if_true]
  · simp only [h, decide_false, Bool.false_eq_true, if_false]

/-- Nothing is left behind the last unescaped colon just if the string is empty, or ends
in one. -/
theorem remainder_eq_nil_iff (t : Text) : remainder t = [] ↔ t = [] ∨ trailingColons t % 2 = 1 := by
  rcases List.eq_nil_or_concat t with rfl | ⟨u, c, rfl⟩
  · exact ⟨fun _ => .inl rfl, fun _ => rfl⟩
  · rw [List.concat_eq_append, or_iff_right (by simp), ← endsToken_last, remainder,
      List.drop_eq_nil_iff, List.length_append, List.length_singleton, tokenEnds_concat]
    by_cases h : EndsToken (u ++ [c]) u.length
    · rw [if_pos h, List.getLast?_concat]
      exact iff_of_true le_rfl h
    · rw [if_neg h, List.append_nil]
      refine iff_of_false ?_ h
      cases hpos : ((List.range u.length).filter (EndsToken (u ++ [c]))).getLast? with
      | none => exact Nat.not_succ_le_zero _
      | some p =>
        have hmem := List.mem_of_getLast? hpos
        rw [List.mem_filter, List.mem_range] at hmem
        exact Nat.not_le.mpr (Nat.succ_lt_succ hmem.1)

/-! ### The entries that are linked -/

/-- An accepted string has an entry for each token, and one more. -/
theorem length_of_accepted {alloc : Nat → Bool} {text : Text} {b : ArgBuffers} {es : Arglist}
    (h : (arglistTrace alloc b text).2 = some es) :
    es.length = b.entries.length + (argItems text).count .colon + 1 := by
  induction text using argItems.induct generalizing b with
  | case1 =>
    rw [arglistTrace] at h
    split at h
    · obtain rfl := Option.some.inj h
      exact List.length_append
    · cases h
  | case2 rest ih =>
    rw [arglistTrace] at h
    rw [ih h, b.put_entries, argItems]
    rfl
  | case3 rest hne ih =>
    rw [arglistTrace] at h
    · split at h
      · cases h
      · rw [ih h, argItems]
        · show (b.put '\x00').entries.length + _ + 1 = _
          rw [b.put_entries]
          rfl
        · exact hne
    · exact hne
  | case4 rest ih =>
    rw [arglistTrace] at h
    rw [ih h, b.put_entries, argItems]
    rfl
  -- a colon ends a token, and its entry is linked
  | case5 rest hne ih =>
    rw [arglistTrace] at h
    · split at h
      · rw [ih h, argItems, List.count_cons_self]
        · show ((b.put '\x00').entries ++ [_]).length + _ + 1 = _
          rw [List.length_append, List.length_singleton, b.put_entries]
          omega
        · exact hne
      · cases h
    · exact hne
  | case6 c rest hee he hcc hcl ih =>
    rw [arglistTrace] at h
    · rw [ih h, b.put_entries, argItems]
      · rfl
      all_goals assumption
    all_goals assumption

/-- **One entry for each token**: an accepted string has as many as it should just if
something is left behind its last unescaped colon. -/
theorem arglistParse_oneEntryPerToken_iff (alloc : Nat → Bool) (argstring : Text) (es : Arglist)
    (h : (arglistParseTrace alloc argstring).2 = some es) :
    arglistCount es = wantedEntries (cstr argstring) ↔
      cstr argstring ≠ [] ∧ trailingColons (cstr argstring) % 2 = 0 := by
  have hlen : es.length = (tokenEnds (cstr argstring)).length + 1 := by
    rw [length_of_accepted h, length_tokenEnds]
    exact congrArg (· + 1) (Nat.zero_add _)
  have heven : trailingColons (cstr argstring) % 2 = 0 ↔ ¬trailingColons (cstr argstring) % 2 = 1 := by
    omega
  rw [arglistCount_eq, hlen, wantedEntries, Nat.add_left_cancel_iff, heven, ne_eq, ← not_or,
    ← remainder_eq_nil_iff]
  split
  · next hnil => exact iff_of_false (by decide) (not_not.mpr hnil)
  · next hrest => exact iff_of_true rfl hrest

/-- A name and a value. -/
theorem arglistParse_oneEntryPerToken_pair :
    arglistCount [("a".toList, "1".toList)] = wantedEntries (cstr "a=1".toList) ↔
      cstr "a=1".toList ≠ [] ∧ trailingColons (cstr "a=1".toList) % 2 = 0 :=
  arglistParse_oneEntryPerToken_iff (fun _ => true) "a=1".toList _ (by decide +kernel)

/-- The empty string gives an entry, and a colon at the end one of its own. -/
theorem not_arglistParse_oneEntryPerToken :
    (¬∀ es, (arglistParseTrace (fun _ => true) []).2 = some es →
        arglistCount es = wantedEntries (cstr [])) ∧
      ¬∀ es, (arglistParseTrace (fun _ => true) "a=1:".toList).2 = some es →
        arglistCount es = wantedEntries (cstr "a=1:".toList) := by
  constructor
  · intro h
    exact absurd (h [([], [])] (by decide +kernel)) (by decide)
  · intro h
    exact absurd (h [("a".toList, "1".toList), ([], [])] (by decide +kernel)) (by decide +kernel)

/-! ### The questions -/

/-- The three answers for one name. -/
structure QueriesAgree (es : Arglist) (name : Text) : Prop where
  has : arglistHas es name = 0 ↔ readStringRet es name = 2
  hasvalue : arglistHasvalue es name = 1 ↔ readStringRet es name = 0
  value : ∀ v, arglistReadString es name = .ok v →
    es.find? (fun e => e.1 = name) = some (name, v)

/-- It looks for an entry with the name. -/
theorem arglistHas_eq (es : Arglist) (name : Text) :
    arglistHas es name = if (es.find? fun e => e.1 = name).isSome then 1 else 0 := by
  induction es with
  | nil => rfl
  | cons e es ih =>
    rw [arglistHas, List.find?_cons]
    by_cases h : e.1 = name
    · simp only [h, decide_true, if_true]
      rfl
    · simp only [h, decide_false, if_false]
      exact ih

/-- The answer does not depend on the value. -/
theorem arglistHasvalue_eq (es : Arglist) (name : Text) :
    arglistHasvalue es name = arglistHas es name := by
  induction es with
  | nil => rfl
  | cons e es ih =>
    have hvalue : some e.2 ≠ none ∨ e.2.length = 0 := .inl (Option.some_ne_none _)
    rw [arglistHasvalue, arglistHas, ih, if_pos hvalue]

/-- **The answers agree just if the first argument with the name, if there is one, has a value
that is not empty.** -/
theorem arglistQueries_agree_iff (es : Arglist) (name : Text) :
    QueriesAgree es name ↔ ∀ e, es.find? (fun e => e.1 = name) = some e → e.2 ≠ [] := by
  have hhas := arglistHas_eq es name
  have hvalue := arglistHasvalue_eq es name
  cases hfind : es.find? fun e => e.1 = name with
  | none =>
    have hret : arglistReadString es name = .error 2 := by rw [arglistReadString, hfind]
    rw [hfind] at hhas
    refine iff_of_true ⟨?_, ?_, ?_⟩ (fun _ h => nomatch h)
    · rw [readStringRet, hret]
      exact iff_of_true hhas rfl
    · rw [hvalue, hhas, readStringRet, hret]
      decide
    · intro v hv
      rw [hret] at hv
      cases hv
  | some e =>
    have hret : arglistReadString es name = if e.2 = [] then .error 1 else .ok e.2 := by
      rw [arglistReadString, hfind]
    rw [hfind] at hhas
    by_cases hv : e.2 = []
    · -- an empty value is none for one of the two functions only
      rw [if_pos hv] at hret
      refine iff_of_false (fun h => ?_) (fun h => h e rfl hv)
      have hzero := h.hasvalue.mp (hvalue.trans hhas)
      rw [readStringRet, hret] at hzero
      cases hzero
    · rw [if_neg hv] at hret
      refine iff_of_true ⟨?_, ?_, ?_⟩ ?_
      · rw [hhas, readStringRet, hret]
        exact iff_of_false Int.one_ne_zero (by simp)
      · rw [readStringRet, hret]
        exact iff_of_true (hvalue.trans hhas) rfl
      · intro v hw
        rw [hret] at hw
        have hname : e.1 = name := by simpa using List.find?_some hfind
        rw [hfind, ← Except.ok.inj hw, ← hname]
      · rintro e' ⟨⟩
        exact hv

/-- A flag without a value. -/
theorem not_arglistQueries_agree :
    ¬∀ (argstring : Text) (es : Arglist) (name : Text),
      (arglistParseTrace (fun _ => true) argstring).2 = some es → QueriesAgree es name := by
  intro h
  have hzero := (h "a".toList [("a".toList, [])] "a".toList (by decide +kernel)).hasvalue.mp rfl
  exact absurd hzero (by decide)

end BenthosDc
