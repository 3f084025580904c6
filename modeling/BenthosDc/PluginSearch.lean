/-
BenthosDc/PluginSearch.lean

The search for the library of a plugin (`find_plugin` of `registry.cpp`).

A directory is looked through in the order of the iterator, and the first subdirectory in it
decides: the result of the scan of the subdirectory is returned, also if nothing was found
there.  The expression for the name is searched in the whole path and has no anchor in front of
the name.  So the search looks at a part of the files only (`searched`), and may find a file
whose name merely ends like that of the library (`findPlugin_sound_iff`).

A path whose canonical form cannot be taken (a dangling link, a loop of links) makes
`canonical` throw, and nothing catches it.  Such an end of the search is `none`, and is kept
apart from the empty path of a search that has found nothing.
-/
import Mathlib.Data.List.DropRight
import BenthosDc.Lib.Regex
import BenthosDc.Registry

namespace BenthosDc

open CString

/-! ### Files and names

The disk is a tree of nodes, which lists a directory in the order of the iterator.  A file
carries the canonical form of its path, if it has one.
-/

/-- The name of a library, without what the platform adds to it. -/
structure LibraryName where
  text : Text
  plain : ∀ c ∈ text, c.isAlphanum ∨ c = '-' ∨ c = '_'

/-- A path as `canonical` makes it. -/
structure CanonicalPath where
  text : Text
  absolute : text.head? = some '/'

/-- An entry of a directory, with what `status` says about it.  A link counts as what it leads
to, and `canonical` resolves it; a path that leads nowhere has no canonical form. -/
inductive PluginNode
  | file (name : Text) (path : CanonicalPath)
  | special (name : Text) (path : Option CanonicalPath)
  | directory (name : Text) (entries : List PluginNode)

/-- `path / name` -/
def joinPath (path name : Text) : Text :=
  if path.getLast? = some '/' then path ++ name else path ++ '/' :: name

/-- What the name of a library ends in. -/
def extensions : List Text := ["so".toList, "dll".toList, "dylib".toList]

/-- `"(lib)?" + library_name + "\\.(so|dll|dylib)$"`; the characters of the name stand for
themselves. -/
def pluginPattern (n : LibraryName) : Regex :=
  .seq (.opt (.literal "lib".toList)) (.seq (.literal n.text) (.seq (.char '.')
    (.seq (.alt (.literal "so".toList) (.alt (.literal "dll".toList) (.literal "dylib".toList)))
      .eol)))

/-! ### The search

The files that were given one by one come first, and then the directories in the order in which
they were given.
-/

mutual

/-- One pass of the loop of `scan_plugin_path`, where `e` tells if the expression is found in a
path: what it returns, if it returns there; that is `none` if `canonical` throws. -/
def scanPluginNode (e : Text → Bool) (path : Text) : PluginNode → Option (Option Text)
  | .directory name entries => some (scanPluginPath e (joinPath path name) entries)
  | .file name cp => if e (joinPath path name) then some (some cp.text) else none
  | .special name cp => if e (joinPath path name) then some (cp.map (·.text)) else none

/-- `scan_plugin_path` for the path of a directory that exists -/
def scanPluginPath (e : Text → Bool) (path : Text) : List PluginNode → Option Text
  | [] => some []
  | x :: entries =>
      match scanPluginNode e path x with
      | some ret => ret
      | none => scanPluginPath e path entries

end

/-- The loop over the plugin paths; `disk` is what a path leads to, if there is a directory. -/
def scanPluginPaths (e : Text → Bool) (disk : Text → Option (List PluginNode)) :
    List Text → Option Text
  | [] => some []
  | p :: ps =>
      match (disk p).elim (some []) (scanPluginPath e p) with
      | none => none
      | some ret => if ret ≠ [] then some ret else scanPluginPaths e disk ps

/-- `find_plugin`, behind the construction of its expression -/
def findPluginWith (e : Text → Bool) (r : PluginRegistry)
    (disk : Text → Option (List PluginNode)) : Option Text :=
  match r.pluginFiles.find? e with
  | some f => some f
  | none => scanPluginPaths e disk r.pluginPaths

/-- `find_plugin`. -/
def findPlugin (r : PluginRegistry) (disk : Text → Option (List PluginNode)) (n : LibraryName) :
    Option Text :=
  findPluginWith (regexSearch (pluginPattern n)) r disk

/-! ### What the search looks at

The search is a scan of a list: the files in it, in order, up to the first one whose path
matches.  The list is fixed by the disk and says nothing of the name that is looked for.
-/

/-- A path that the expression is searched in, and what is returned if it is found. -/
structure Searched where
  fn : Text
  path : Option Text

mutual

/-- What is looked at for one node of a directory. -/
def searchedNode (path : Text) : PluginNode → List Searched
  | .directory name entries => searchedBelow (joinPath path name) entries
  | .file name cp => [⟨joinPath path name, some cp.text⟩]
  | .special name cp => [⟨joinPath path name, cp.map (·.text)⟩]

/-- The entries in front of the first subdirectory, and then those of the subdirectory. -/
def searchedBelow (path : Text) : List PluginNode → List Searched
  | [] => []
  | .directory name entries :: _ => searchedNode path (.directory name entries)
  | x :: entries => searchedNode path x ++ searchedBelow path entries

end

/-- What is looked at altogether: the given files, and the files below the given directories. -/
def searched (r : PluginRegistry) (disk : Text → Option (List PluginNode)) : List Searched :=
  r.pluginFiles.map (fun f => ⟨f, some f⟩) ++
    r.pluginPaths.flatMap fun p => (disk p).elim [] (searchedBelow p)

/-- What is returned for the paths `xs`. -/
def firstFound (e : Text → Bool) (xs : List Searched) : Option Text :=
  (xs.find? fun x => e x.fn).elim (some []) (·.path)

variable {e : Text → Bool} {n : LibraryName} {r : PluginRegistry} {fn path : Text}
variable {disk : Text → Option (List PluginNode)} {entries : List PluginNode}
variable {xs ys : List Searched}

theorem firstFound_cons (x : Searched) :
    firstFound e (x :: xs) = if e x.fn then x.path else firstFound e xs := by
  rw [firstFound, List.find?_cons]
  split
  · next h => rw [if_pos h]; rfl
  · next h => rw [if_neg (by simp [h]), firstFound]

/-- The scan of a directory is the scan of the list of its files. -/
theorem scanPluginPath_eq (e : Text → Bool) : ∀ (path : Text) (entries : List PluginNode),
    scanPluginPath e path entries = firstFound e (searchedBelow path entries)
  | path, [] => rfl
  | path, .directory name entries :: rest => scanPluginPath_eq e (joinPath path name) entries
  | path, .file name cp :: rest => by
    have hrest := scanPluginPath_eq e path rest
    have hcons : searchedBelow path (.file name cp :: rest) =
        ⟨joinPath path name, some cp.text⟩ :: searchedBelow path rest := rfl
    by_cases h : e (joinPath path name) = true <;>
      simp [scanPluginPath, scanPluginNode, firstFound_cons, hcons, hrest, h]
  | path, .special name cp :: rest => by
    have hrest := scanPluginPath_eq e path rest
    have hcons : searchedBelow path (.special name cp :: rest) =
        ⟨joinPath path name, cp.map (·.text)⟩ :: searchedBelow path rest := rfl
    by_cases h : e (joinPath path name) = true <;>
      simp [scanPluginPath, scanPluginNode, firstFound_cons, hcons, hrest, h]

/-- A canonical path starts with a slash. -/
theorem CanonicalPath.ne_nil (cp : CanonicalPath) : cp.text ≠ [] := by
  intro hnil
  have habsolute := cp.absolute
  rw [hnil] at habsolute
  cases habsolute

/-- What is returned for an entry is not empty. -/
theorem searchedBelow_path (x : Searched) : ∀ (path : Text) (entries : List PluginNode),
    x ∈ searchedBelow path entries → x.path ≠ some []
  | path, [], hx => by cases hx
  | path, .directory name entries :: _, hx =>
    searchedBelow_path x (joinPath path name) entries hx
  | path, .file name cp :: rest, hx => by
    rcases List.mem_cons.mp hx with rfl | hx
    · exact fun heq => cp.ne_nil (Option.some.inj heq)
    · exact searchedBelow_path x path rest hx
  | path, .special name cp :: rest, hx => by
    rcases List.mem_cons.mp hx with rfl | hx
    · intro heq
      obtain ⟨cp', -, hnil⟩ := Option.map_eq_some_iff.mp heq
      exact cp'.ne_nil hnil
    · exact searchedBelow_path x path rest hx

/-- A second list is looked at only if the first one has nothing. -/
theorem firstFound_append (hxs : ∀ x ∈ xs, x.path ≠ some []) :
    firstFound e (xs ++ ys) = match firstFound e xs with
      | none => none
      | some ret => if ret ≠ [] then some ret else firstFound e ys := by
  induction xs with
  | nil => simp [firstFound]
  | cons x xs ih =>
    rw [List.cons_append, firstFound_cons, firstFound_cons]
    by_cases h : e x.fn = true
    · have hx := hxs x List.mem_cons_self
      rw [if_pos h, if_pos h]
      cases hpath : x.path with
      | none => rfl
      | some ret =>
        have hret : ret ≠ [] := fun hnil => hx (hpath.trans (congrArg some hnil))
        exact (if_pos hret).symm
    · rw [if_neg h, if_neg h, ih fun y hy => hxs y (List.mem_cons_of_mem x hy)]

/-- The directories are scanned one behind the other. -/
theorem scanPluginPaths_eq (ps : List Text) : scanPluginPaths e disk ps =
    firstFound e (ps.flatMap fun p => (disk p).elim [] (searchedBelow p)) := by
  induction ps with
  | nil => rfl
  | cons p ps ih =>
    have hscan : (disk p).elim (some []) (scanPluginPath e p) =
        firstFound e ((disk p).elim [] (searchedBelow p)) := by
      cases disk p with
      | none => rfl
      | some entries => exact scanPluginPath_eq e p entries
    have hpath : ∀ x ∈ (disk p).elim [] (searchedBelow p), x.path ≠ some [] := by
      intro x hx
      cases hdisk : disk p with
      | none =>
        rw [hdisk] at hx
        cases hx
      | some entries =>
        rw [hdisk] at hx
        exact searchedBelow_path x p entries hx
    rw [List.flatMap_cons, firstFound_append hpath, scanPluginPaths, hscan, ih]
    rfl

/-- **The search returns the path of the first entry it looks at that has the name.** -/
theorem findPluginWith_eq (e : Text → Bool) (r : PluginRegistry)
    (disk : Text → Option (List PluginNode)) :
    findPluginWith e r disk = firstFound e (searched r disk) := by
  rw [findPluginWith, searched]
  induction r.pluginFiles with
  | nil => exact scanPluginPaths_eq _
  | cons f fs ih =>
    rw [List.map_cons, List.cons_append, firstFound_cons, ← ih, List.find?_cons]
    cases hf : e f with
    | true => rw [if_pos rfl]
    | false => rw [if_neg Bool.false_ne_true]

/-- **When the search throws**: the first entry it looks at that has the name leads nowhere. -/
theorem findPluginWith_eq_none_iff : findPluginWith e r disk = none ↔
    ∃ pre x post, searched r disk = pre ++ x :: post ∧ (∀ y ∈ pre, e y.fn = false) ∧
      e x.fn = true ∧ x.path = none := by
  rw [findPluginWith_eq, firstFound]
  constructor
  · intro hnone
    cases hfind : (searched r disk).find? fun x => e x.fn with
    | none =>
      rw [hfind] at hnone
      cases hnone
    | some x =>
      rw [hfind] at hnone
      obtain ⟨hx, pre, post, hsplit, hpre⟩ := List.find?_eq_some_iff_append.mp hfind
      exact ⟨pre, x, post, hsplit, fun y hy => by simpa using hpre y hy, hx, hnone⟩
  · rintro ⟨pre, x, post, hsplit, hpre, hx, hpath⟩
    have hfind : ((searched r disk).find? fun x => e x.fn) = some x :=
      List.find?_eq_some_iff_append.mpr
        ⟨hx, pre, post, hsplit, fun y hy => by rw [hpre y hy]; rfl⟩
    rw [hfind]
    exact hpath

/-! ### The name in a path

The expression has no anchor in front, so that a path matches whatever stands before the name.
-/

/-- The name of the library and an extension stand at the end of a line of the path. -/
def HasLibraryName (n : LibraryName) (fn : Text) : Prop :=
  ∃ pre, ∃ ext ∈ extensions, ∃ post : Text, fn = pre ++ (n.text ++ '.' :: ext) ++ post ∧
    ∀ c ∈ post.head?, isSeparator c = true

/-- The runs of the expression: an optional `lib`, the name, and one of the extensions at the end.
-/
theorem mem_run_pluginPattern {p u : Place} : u ∈ (pluginPattern n).run p ↔
    ∃ m : Place, (p.Skips m "lib".toList ∨ m = p) ∧
      ∃ ext ∈ extensions, m.Skips u (n.text ++ '.' :: ext) ∧ u.atEol = true := by
  have hext : ∀ {m : Place}, (m.Skips u "so".toList ∨ m.Skips u "dll".toList ∨
      m.Skips u "dylib".toList) ↔ ∃ ext ∈ extensions, m.Skips u ext := by
    simp [extensions]
  have hname : ∀ {m : Place} {ext : Text}, m.Skips u (n.text ++ '.' :: ext) ↔
      ∃ m', m.Skips m' n.text ∧ ∃ m'', m'.Skips m'' ['.'] ∧ m''.Skips u ext := by
    intro m ext
    rw [Place.Skips.append_iff]
    exact exists_congr fun m' => and_congr_right fun _ => Place.Skips.append_iff (v := ['.'])
  simp only [pluginPattern, Regex.mem_run_seq, Regex.mem_run_opt, Regex.mem_run_literal,
    Regex.mem_run_char, Regex.mem_run_alt, Regex.mem_run_eol, hname]
  constructor
  · rintro ⟨m, hm, m₁, h₁, m₂, h₂, m₃, h₃, rfl, hend⟩
    obtain ⟨ext, hext', h₃⟩ := hext.mp h₃
    exact ⟨m, hm, ext, hext', ⟨m₁, h₁, m₂, h₂, h₃⟩, hend⟩
  · rintro ⟨m, hm, ext, hext', ⟨m₁, h₁, m₂, h₂, h₃⟩, hend⟩
    exact ⟨m, hm, m₁, h₁, m₂, h₂, u, hext.mpr ⟨ext, hext', h₃⟩, rfl, hend⟩

/-- **A path matches exactly if it ends in a name of the library.** -/
theorem regexSearch_pluginPattern :
    regexSearch (pluginPattern n) fn = true ↔ HasLibraryName n fn := by
  rw [regexSearch_iff]
  -- the extensions do not end with the first half of a line end
  have heol : ∀ {m u : Place} {ext : Text}, ext ∈ extensions → m.Skips u (n.text ++ '.' :: ext) →
      (u.atEol = true ↔ ∀ c ∈ u.rest.head?, isSeparator c = true) := by
    rintro m ⟨last, rest⟩ ext hext ⟨-, hlast⟩
    have hreturn : last ≠ some '\r' := by
      have hletter : ∀ ext ∈ extensions, ('.' :: ext).getLast (List.cons_ne_nil _ _) ≠ '\r' := by
        decide
      have hend : last = some (('.' :: ext).getLast (List.cons_ne_nil _ _)) := by
        rw [List.getLast?_append_of_ne_nil _ (List.cons_ne_nil _ _),
          List.getLast?_eq_some_getLast (List.cons_ne_nil _ _)] at hlast
        exact hlast
      rw [hend]
      exact fun heq => hletter ext hext (Option.some.inj heq)
    cases rest with
    | nil => simp [Place.atEol]
    | cons c rest => simp [Place.atEol, hreturn]
  constructor
  · rintro ⟨w, p, u, hw, hu⟩
    obtain ⟨m, hm, ext, hext, hskips, hend⟩ := mem_run_pluginPattern.mp hu
    have hend' := (heol hext hskips).mp hend
    rcases hm with hlib | rfl
    · refine ⟨w ++ "lib".toList, ext, hext, u.rest, ?_, hend'⟩
      rw [List.append_assoc, List.append_assoc, ← hskips.1, ← hlib.1]
      exact hw.1
    · refine ⟨w, ext, hext, u.rest, ?_, hend'⟩
      rw [List.append_assoc, ← hskips.1]
      exact hw.1
  · rintro ⟨pre, ext, hext, post, rfl, hend⟩
    let p : Place := ⟨pre.getLast?.or none, n.text ++ '.' :: ext ++ post⟩
    let u : Place := ⟨(n.text ++ '.' :: ext).getLast?.or p.last, post⟩
    have hskips : p.Skips u (n.text ++ '.' :: ext) := ⟨rfl, rfl⟩
    refine ⟨pre, p, u, ⟨List.append_assoc .., rfl⟩, ?_⟩
    exact mem_run_pluginPattern.mpr ⟨p, .inr rfl, ext, hext, hskips, (heol hext hskips).mpr hend⟩

/-! ### Soundness and completeness

What the search is for is said of the files below the directories and of their own names, with
no word of the order of the scan.
-/

mutual

/-- The regular files at a node. -/
def regularFile : PluginNode → List (Text × CanonicalPath)
  | .directory _ entries => regularFiles entries
  | .file name cp => [(name, cp)]
  | .special _ _ => []

/-- All regular files below a directory, with their names and paths. -/
def regularFiles : List PluginNode → List (Text × CanonicalPath)
  | [] => []
  | x :: entries => regularFile x ++ regularFiles entries

end

/-- `[lib]NAME` with one of the extensions -/
def NamesLibrary (n : LibraryName) (base : Text) : Prop :=
  ∃ ext ∈ extensions, base = n.text ++ '.' :: ext ∨ base = "lib".toList ++ n.text ++ '.' :: ext

/-- The part of a path behind the last slash. -/
def baseName (path : Text) : Text := path.rtakeWhile (· ≠ '/')

/-- The path of an added file, or of a regular file below an added path, with the name of the
library. -/
def IsLibrary (r : PluginRegistry) (disk : Text → Option (List PluginNode)) (n : LibraryName)
    (path : Text) : Prop :=
  (path ∈ r.pluginFiles ∧ NamesLibrary n (baseName path)) ∨
    ∃ p ∈ r.pluginPaths, ∃ entries, disk p = some entries ∧
      ∃ f ∈ regularFiles entries, NamesLibrary n f.1 ∧ path = f.2.text

/-- The search returns a path exactly if the library is there, and then a path of it. -/
def FindsLibrary (r : PluginRegistry) (disk : Text → Option (List PluginNode)) (n : LibraryName) :
    Prop :=
  ∃ ret, findPlugin r disk n = some ret ∧ (ret ≠ [] ↔ ∃ path, IsLibrary r disk n path) ∧
    (ret ≠ [] → IsLibrary r disk n ret)

theorem IsLibrary.ne_nil (h : IsLibrary r disk n path) : path ≠ [] := by
  rintro rfl
  rcases h with ⟨-, ext, -, hbase | hbase⟩ | ⟨p, -, entries, -, f, -, -, hpath⟩
  · exact absurd hbase.symm (List.append_ne_nil_of_right_ne_nil _ nofun)
  · exact absurd hbase.symm (List.append_ne_nil_of_right_ne_nil _ nofun)
  · exact f.2.ne_nil hpath.symm

theorem searched_path {x : Searched} (hx : x ∈ searched r disk) (hname : HasLibraryName n x.fn) :
    x.path ≠ some [] := by
  rcases List.mem_append.mp hx with hx | hx
  · obtain ⟨f, -, rfl⟩ := List.mem_map.mp hx
    obtain ⟨pre, ext, -, post, hfn, -⟩ := hname
    intro heq
    have hnil : pre ++ (n.text ++ '.' :: ext) ++ post = [] := hfn.symm.trans (Option.some.inj heq)
    simp at hnil
  · obtain ⟨p, -, hx⟩ := List.mem_flatMap.mp hx
    cases hdisk : disk p with
    | none =>
      rw [hdisk] at hx
      cases hx
    | some entries =>
      rw [hdisk] at hx
      exact searchedBelow_path x p entries hx

/-- Nothing is found exactly if no file on the list matches. -/
theorem find?_library_eq_none :
    (xs.find? fun x => regexSearch (pluginPattern n) x.fn) = none ↔
      ∀ x ∈ xs, ¬HasLibraryName n x.fn := by
  rw [List.find?_eq_none]
  simp only [regexSearch_pluginPattern]

/-- The first entry with the name. -/
theorem find?_library_eq_some {x : Searched} :
    (xs.find? fun x => regexSearch (pluginPattern n) x.fn) = some x ↔
      ∃ pre post, xs = pre ++ x :: post ∧ (∀ y ∈ pre, ¬HasLibraryName n y.fn) ∧
        HasLibraryName n x.fn := by
  have hpre : ∀ {pre : List Searched}, (∀ y ∈ pre, (!regexSearch (pluginPattern n) y.fn) = true) ↔
      ∀ y ∈ pre, ¬HasLibraryName n y.fn := by
    intro pre
    simp only [Bool.not_eq_true', Bool.eq_false_iff, ne_eq, regexSearch_pluginPattern]
  rw [List.find?_eq_some_iff_append, regexSearch_pluginPattern]
  constructor
  · rintro ⟨hname, pre, post, hsplit, hnot⟩
    exact ⟨pre, post, hsplit, hpre.mp hnot, hname⟩
  · rintro ⟨pre, post, hsplit, hnot, hname⟩
    exact ⟨hname, pre, post, hsplit, hpre.mpr hnot⟩

/-- **The search is sound and complete exactly if the first path it looks at that has the name of
the library is a path of it, or if there is none and the library is not there.** -/
theorem findPlugin_sound_iff (r : PluginRegistry) (disk : Text → Option (List PluginNode))
    (n : LibraryName) : FindsLibrary r disk n ↔
      (∃ pre x post path, searched r disk = pre ++ x :: post ∧
        (∀ y ∈ pre, ¬HasLibraryName n y.fn) ∧ HasLibraryName n x.fn ∧ x.path = some path ∧
        IsLibrary r disk n path) ∨
      (∀ x ∈ searched r disk, ¬HasLibraryName n x.fn) ∧ ¬∃ path, IsLibrary r disk n path := by
  have hfind : findPlugin r disk n = _ := findPluginWith_eq (regexSearch (pluginPattern n)) r disk
  rw [firstFound] at hfind
  constructor
  · rintro ⟨ret, hret, hfound, hsound⟩
    cases hfirst : (searched r disk).find? fun x => regexSearch (pluginPattern n) x.fn with
    | none =>
      rw [hfirst, hret] at hfind
      obtain rfl : ret = [] := Option.some.inj hfind
      exact .inr ⟨find?_library_eq_none.mp hfirst, mt hfound.mpr fun hne => hne rfl⟩
    | some x =>
      rw [hfirst, hret] at hfind
      have hpath : x.path = some ret := hfind.symm
      obtain ⟨pre, post, hsplit, hpre, hname⟩ := find?_library_eq_some.mp hfirst
      have hmem : x ∈ searched r disk := List.mem_of_find?_eq_some hfirst
      have hne : ret ≠ [] := fun hnil => searched_path hmem hname (hnil ▸ hpath)
      exact .inl ⟨pre, x, post, ret, hsplit, hpre, hname, hpath, hsound hne⟩
  · rintro (⟨pre, x, post, path, hsplit, hpre, hname, hpath, hlib⟩ | ⟨hnone, hno⟩)
    · rw [find?_library_eq_some.mpr ⟨pre, post, hsplit, hpre, hname⟩] at hfind
      exact ⟨path, hfind.trans hpath, iff_of_true hlib.ne_nil ⟨path, hlib⟩, fun _ => hlib⟩
    · rw [find?_library_eq_none.mpr hnone] at hfind
      exact ⟨[], hfind, iff_of_false (fun hne => hne rfl) hno, fun hne => absurd rfl hne⟩

theorem all_isAlphanum_smart : "smart".toList.all Char.isAlphanum = true := by decide

/-- The name of the Smart plugin. -/
def smartLibrary : LibraryName where
  text := "smart".toList
  plain c hc := .inl (List.all_eq_true.mp all_isAlphanum_smart c hc)

/-- A registry with one plugin path. -/
def onePath : PluginRegistry := ⟨[], [], ["/p".toList], [], ∅, []⟩

/-- The library `smart` behind an empty subdirectory, and a library with a longer name. -/
theorem not_findsLibrary :
    ¬FindsLibrary onePath (fun _ => some [.directory "a".toList [],
        .file "libsmart.so".toList ⟨"/p/libsmart.so".toList, rfl⟩]) smartLibrary ∧
      ¬FindsLibrary onePath (fun _ => some [
        .file "foosmart.so".toList ⟨"/p/foosmart.so".toList, rfl⟩]) smartLibrary := by
  constructor
  · rintro ⟨ret, hret, hfound, -⟩
    obtain rfl : [] = ret := Option.some.inj hret
    refine hfound.mpr ⟨"/p/libsmart.so".toList, .inr ⟨_, List.mem_cons_self, _, rfl, _,
      List.mem_cons_self, ?_, rfl⟩⟩ rfl
    exact ⟨"so".toList, List.mem_cons_self, .inr rfl⟩
  · rintro ⟨ret, hret, -, hsound⟩
    obtain rfl : "/p/foosmart.so".toList = ret := Option.some.inj hret
    rcases hsound (by decide) with ⟨hmem, -⟩ | ⟨p, -, entries, hdisk, f, hf, hname, -⟩
    · cases hmem
    · obtain rfl := Option.some.inj hdisk
      obtain rfl := List.mem_singleton.mp hf
      obtain ⟨ext, hext, hbase⟩ := hname
      revert ext
      decide

end BenthosDc
