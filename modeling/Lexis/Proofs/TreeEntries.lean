-- What stands where in a tree. A path without double dots leads where its names say, and an entry
-- that is put into a directory leaves the others as they were.
import Lexis.Files.Tree
import Lexis.Proofs.PathNames
import Mathlib.Data.List.Induction

namespace Lexis

/-! ## Entries at routes -/

namespace Node

theorem find?_append (r s : Route) (node : Node) :
    node.find? (r ++ s) = (node.find? r).bind (find? s) := by
  induction r generalizing node with
  | nil => rfl
  | cons name r ih =>
    rw [List.cons_append, find?, find?]
    cases node.child? name with
    | none => rfl
    | some child => exact ih child

/-- A node that is put into a directory, in place of a file or of nothing, stands there, and the
other entries are as they were. -/
theorem entry_find?_put {new : Node} (hnew : ∀ name, new.child? name = none) {name : Text}
    {entries : List (Text × Node)} (hfree : ∀ n, (entries.lookup name).bind (child? n) = none)
    {route : Route} {node : Node} (hroute : node.find? route = some (directory entries))
    (r : Route) : ((put new (route ++ [name]) node).find? r).map entry =
      if r = route ++ [name] then some new.entry else (node.find? r).map entry := by
  induction route generalizing node r with
  | nil =>
    obtain rfl := Option.some.inj hroute
    cases r with
    | nil => rfl
    | cons key r =>
      simp only [List.nil_append, put, find?, child?, lookup_putEntry]
      by_cases hkey : key = name
      · subst hkey
        cases r with
        | nil => simp [find?]
        | cons n r =>
          have hbelow := hfree n
          cases hlookup : entries.lookup key with
          | none => simp [find?, hnew]
          | some child =>
            rw [hlookup, Option.bind_some] at hbelow
            simp [find?, hnew, hbelow]
      · simp [hkey]
  | cons key' route ih =>
    cases node with
    | file bytes => cases hroute
    | directory below =>
      rw [find?, child?] at hroute
      obtain ⟨child, hchild, hbelow⟩ := Option.bind_eq_some_iff.mp hroute
      cases r with
      | nil => rfl
      | cons key r =>
        simp only [List.cons_append, put, find?, child?, lookup_putEntry, hchild,
          Option.getD_some]
        by_cases hkey : key = key'
        · subst hkey
          simp [hchild, ih hbelow]
        · simp [hkey]

end Node

namespace FileTree

open Lexis.Path (names)

theorem entry?_append_of_ne {t : FileTree} {r : Route} (h : t.entry? r ≠ some .directory)
    {s : Route} (hs : s ≠ []) : t.entry? (r ++ s) = none := by
  obtain ⟨name, s, rfl⟩ := List.exists_cons_of_ne_nil hs
  unfold entry? at h ⊢
  rw [Node.find?_append]
  cases hnode : t.root.find? r with
  | none => rfl
  | some node =>
    cases node with
    | file bytes => rfl
    | directory entries => exact absurd (by rw [hnode]; rfl) h

theorem entry?_append_of_none {t : FileTree} {r : Route} (h : t.entry? r = none) (s : Route) :
    t.entry? (r ++ s) = none := by
  unfold entry? at h ⊢
  rw [Option.map_eq_none_iff] at h ⊢
  rw [Node.find?_append, h, Option.bind_none]

/-- What leads to a directory is a directory. -/
theorem directory_above {t : FileTree} {r s : Route} (h : r <+: s)
    (hs : t.entry? s = some .directory) : t.entry? r = some .directory := by
  obtain ⟨more, rfl⟩ := h
  by_cases hmore : more = []
  · rwa [hmore, List.append_nil] at hs
  · by_contra hr
    rw [entry?_append_of_ne hr hmore] at hs
    cases hs

theorem entry?_put {t : FileTree} {new : Node} (hnew : ∀ name, new.child? name = none)
    {route : Route} {name : Text} (hroute : t.entry? route = some .directory)
    (hfree : t.entry? (route ++ [name]) ≠ some .directory) (r : Route) :
    entry? (t.put (route ++ [name]) new) r =
      if r = route ++ [name] then some new.entry else t.entry? r := by
  obtain ⟨node, hnode, hentry⟩ := Option.map_eq_some_iff.mp hroute
  cases node with
  | file bytes => cases hentry
  | directory entries =>
    refine Node.entry_find?_put hnew (fun n => ?_) hnode r
    unfold entry? at hfree
    rw [Node.find?_append, hnode, Option.bind_some, Node.find?, Node.child?] at hfree
    cases hlookup : entries.lookup name with
    | none => rfl
    | some child =>
      cases child with
      | file bytes => rfl
      | directory below => exact absurd (by rw [hlookup]; rfl) hfree

/-! ## Well-formed trees -/

/-- A text that can be the name of an entry of a directory. -/
structure IsName (name : Text) : Prop where
  not_fixed : isFixedPart name = false
  no_slash : '/' ∉ name
  no_nul : '\x00' ∉ name
  size_le : name.byteSize ≤ Path.maxNameSize

/-- The entries have names, and the working directory is a directory. -/
structure WellFormed (t : FileTree) : Prop where
  names : ∀ r, (t.entry? r).isSome → ∀ name ∈ r, IsName name
  here : t.entry? t.workingDirectory = some .directory

theorem isFixedPart_eq_false {part : Text} :
    isFixedPart part = false ↔ ¬ (part = [] ∨ part = ['.']) ∧ part ≠ ['.', '.'] := by
  simp [isFixedPart, and_assoc]

theorem checkName_eq_ok {name : Text} :
    checkName name = .ok () ↔ name.byteSize ≤ Path.maxNameSize := by
  rw [checkName]
  split
  · rename_i h
    simp [h]
  · rename_i h
    simp [Nat.not_lt.mp h]

theorem checkPath_eq_ok {p : Path} :
    checkPath p = .ok () ↔ '\x00' ∉ p ∧ p ≠ [] ∧ Text.byteSize p ≤ Path.maxSize := by
  rw [checkPath]
  split_ifs with hnul hempty hsize
  · simp [hnul]
  · simp [hempty]
  · simp [hsize]
  · simp [hnul, hempty, Nat.not_lt.mp hsize]

theorem eq_nil_of_checkPath {p : Path} (h : checkPath p = .error .notFound) : p = [] := by
  by_contra hne
  rw [checkPath, if_neg hne] at h
  split_ifs at h <;> cases h

theorem WellFormed.origin {t : FileTree} (h : t.WellFormed) (p : Path) :
    t.entry? (t.origin p) = some .directory := by
  rw [FileTree.origin]
  split
  · exact directory_above (List.nil_prefix) h.here
  · exact h.here

theorem WellFormed.put {t : FileTree} (h : t.WellFormed) {new : Node}
    (hnew : ∀ name, new.child? name = none) {route : Route} {name : Text} (hname : IsName name)
    (hroute : t.entry? route = some .directory)
    (hfree : t.entry? (route ++ [name]) ≠ some .directory) :
    (t.put (route ++ [name]) new).WellFormed := by
  have hentry := entry?_put hnew hroute hfree
  constructor
  · intro r hr
    rw [hentry] at hr
    split at hr
    · rename_i heq
      rw [heq]
      intro part hpart
      rcases List.mem_append.mp hpart with hpart | hpart
      · exact h.names route (by rw [hroute]; rfl) part hpart
      · rw [List.mem_singleton.mp hpart]
        exact hname
    · exact h.names r hr
  · have hne : t.workingDirectory ≠ route ++ [name] := fun heq => hfree (by rw [← heq]; exact h.here)
    exact (hentry t.workingDirectory).trans ((if_neg hne).trans h.here)

/-! ## Following a path -/

/-- Where a path leads by its letters alone. -/
def routeTo (t : FileTree) (p : Path) : Route := t.origin p ++ names p.parts

/-- From a directory, a name leads on if its entry stands. -/
theorem walk_name {t : FileTree} (h : t.WellFormed) {r : Route} (hdir : t.entry? r = some .directory)
    {part : Text} (hfixed : isFixedPart part = false) (parts : List Text) :
    t.walk r (part :: parts) = t.walk (r ++ [part]) parts ∨
      ∃ e, t.walk r (part :: parts) = .error e ∧ t.entry? (r ++ [part]) = none := by
  obtain ⟨hkeep, hup⟩ := isFixedPart_eq_false.mp hfixed
  rw [walk, hdir]
  simp only [if_neg hkeep, if_neg hup]
  cases hentry : t.entry? (r ++ [part]) with
  | none =>
    right
    cases checkName part with
    | error e => exact ⟨e, rfl, rfl⟩
    | ok => exact ⟨.notFound, rfl, rfl⟩
  | some entry =>
    left
    have hname := h.names _ (by rw [hentry]; rfl) part (by simp)
    rw [checkName_eq_ok.mpr hname.size_le]
    rfl

/-- Going along parts without double dots ends where their names say, or it fails because no
directory stands there. It finds nothing on the way only if nothing stands at the end. -/
theorem walk_spec {t : FileTree} (h : t.WellFormed) {parts : List Text}
    (hup : ['.', '.'] ∉ parts) (r : Route) : t.walk r parts = .ok (r ++ names parts) ∨
      ∃ e, t.walk r parts = .error e ∧ t.entry? (r ++ names parts) ≠ some .directory ∧
        (e = .notFound → t.entry? (r ++ names parts) = none) := by
  induction parts generalizing r with
  | nil => exact .inl (by rw [walk, Path.names_nil, List.append_nil])
  | cons part parts ih =>
    obtain ⟨hne, hup⟩ := List.ne_and_not_mem_of_not_mem_cons hup
    cases hr : t.entry? r with
    | none =>
      have hend := entry?_append_of_none hr (names (part :: parts))
      exact .inr ⟨.notFound, by rw [walk, hr], by rw [hend]; simp, fun _ => hend⟩
    | some entry =>
      cases entry with
      | file bytes =>
        refine .inr ⟨.notDirectory, by rw [walk, hr], fun hend => ?_, fun he => nomatch he⟩
        rw [directory_above (List.prefix_append _ _) hend] at hr
        cases hr
      | directory =>
        by_cases hskip : part = [] ∨ part = ['.']
        · rw [walk, hr, Path.names_cons_skip hskip]
          simp only [if_pos hskip]
          exact ih hup r
        · have hroute : r ++ names (part :: parts) = r ++ [part] ++ names parts := by
            rw [Path.names_cons hskip, List.append_assoc]
            rfl
          rw [hroute]
          rcases walk_name h hr (isFixedPart_eq_false.mpr ⟨hskip, Ne.symm hne⟩) parts with
            hwalk | ⟨e, hwalk, hnone⟩
          · rw [hwalk]
            exact ih hup _
          · have hend := entry?_append_of_none hnone (names parts)
            exact .inr ⟨e, hwalk, by rw [hend]; simp, fun _ => hend⟩

/-- A route as far as it stands: there is an entry at `stand` and none under `first` in it. -/
structure Lacks (t : FileTree) (route stand : Route) (first : Text) (more : Route) : Prop where
  route_eq : route = stand ++ first :: more
  stands : (t.entry? stand).isSome
  missing : t.entry? (stand ++ [first]) = none

theorem exists_lacks {t : FileTree} (h : t.WellFormed) {route : Route}
    (hnone : t.entry? route = none) : ∃ stand first more, t.Lacks route stand first more := by
  induction route using List.reverseRecOn with
  | nil =>
    rw [directory_above List.nil_prefix h.here] at hnone
    cases hnone
  | append_singleton route name ih =>
    by_cases hroute : t.entry? route = none
    · obtain ⟨stand, first, more, rfl, hstands, hmissing⟩ := ih hroute
      exact ⟨stand, first, more ++ [name], by simp, hstands, hmissing⟩
    · exact ⟨route, name, [], rfl, Option.isSome_iff_ne_none.mpr hroute, hnone⟩

theorem Lacks.none {t : FileTree} {route stand : Route} {first : Text} {more : Route}
    (h : t.Lacks route stand first more) : t.entry? route = none := by
  rw [h.route_eq, ← List.singleton_append, ← List.append_assoc]
  exact entry?_append_of_none h.missing more

/-- A longer route lacks its last name, or it lacks what the shorter one does. -/
theorem Lacks.concat_cases {t : FileTree} {route stand : Route} {name first : Text} {more : Route}
    (h : t.Lacks (route ++ [name]) stand first more) : (stand = route ∧ first = name ∧ more = []) ∨
      ∃ more', more = more' ++ [name] ∧ t.Lacks route stand first more' := by
  have hroute := h.route_eq
  rcases List.eq_nil_or_concat' more with rfl | ⟨more, x, rfl⟩
  · obtain ⟨rfl, hname⟩ := List.append_inj' hroute rfl
    exact .inl ⟨rfl, (List.cons.inj hname).1.symm, rfl⟩
  · rw [← List.cons_append, ← List.append_assoc] at hroute
    obtain ⟨hfront, hname⟩ := List.append_inj' hroute rfl
    obtain ⟨rfl, -⟩ := List.cons.inj hname
    exact .inr ⟨more, rfl, hfront, h.stands, h.missing⟩

/-- A directory on a route stands as far as the route does. -/
theorem Lacks.prefix_of_directory {t : FileTree} {route stand base : Route} {first : Text}
    {more : Route} (h : t.Lacks route stand first more) (hbase : base <+: route)
    (hdir : t.entry? base = some .directory) : base <+: stand := by
  have hfirst : stand ++ [first] <+: route := ⟨more, by rw [h.route_eq]; simp⟩
  have hmissing : ¬ stand ++ [first] <+: base := fun hpre => by
    have hfree := h.missing
    rw [directory_above hpre hdir] at hfree
    cases hfree
  rcases List.prefix_or_prefix_of_prefix hbase hfirst with hpre | hpre
  · rcases List.prefix_concat_iff.mp hpre with rfl | hpre
    · exact absurd List.prefix_rfl hmissing
    · exact hpre
  · exact absurd hpre hmissing

/-- Going along parts fails where their names lack one. Nothing is found there if a directory stands
and the name that it lacks is not too long. -/
theorem walk_of_lacks {t : FileTree} (h : t.WellFormed) {parts : List Text}
    (hup : ['.', '.'] ∉ parts) {r stand : Route} {first : Text} {more : Route}
    (hnames : names parts = stand ++ first :: more) (hstands : (t.entry? (r ++ stand)).isSome)
    (hmissing : t.entry? (r ++ stand ++ [first]) = none) : ∃ e, t.walk r parts = .error e ∧
      (e = .notFound ↔
        t.entry? (r ++ stand) = some .directory ∧ first.byteSize ≤ Path.maxNameSize) := by
  induction parts generalizing r stand with
  | nil => exact absurd hnames (by simp)
  | cons part parts ih =>
    obtain ⟨hne, hup⟩ := List.ne_and_not_mem_of_not_mem_cons hup
    cases hr : t.entry? r with
    | none =>
      rw [entry?_append_of_none hr] at hstands
      cases hstands
    | some base =>
      cases base with
      | file bytes =>
        refine ⟨.notDirectory, by rw [walk, hr], iff_of_false (fun he => nomatch he) fun hdir => ?_⟩
        rw [directory_above (List.prefix_append r stand) hdir.1] at hr
        cases hr
      | directory =>
        by_cases hskip : part = [] ∨ part = ['.']
        · rw [Path.names_cons_skip hskip] at hnames
          rw [walk, hr]
          simp only [if_pos hskip]
          exact ih hup hnames hstands hmissing
        · have hfixed := isFixedPart_eq_false.mpr ⟨hskip, Ne.symm hne⟩
          rw [Path.names_cons hskip] at hnames
          cases stand with
          | nil =>
            obtain ⟨rfl, -⟩ := List.cons.inj hnames
            rw [List.append_nil] at hmissing
            rw [List.append_nil, walk, hr, checkName]
            simp only [if_neg hskip, if_neg (Ne.symm hne), hmissing]
            by_cases hlong : Path.maxNameSize < part.byteSize
            · exact ⟨.nameTooLong, by rw [if_pos hlong],
                iff_of_false (fun he => nomatch he) fun hdir => Nat.not_lt.mpr hdir.2 hlong⟩
            · exact ⟨.notFound, by rw [if_neg hlong]; rfl,
                iff_of_true rfl ⟨trivial, Nat.not_lt.mp hlong⟩⟩
          | cons name stand =>
            obtain ⟨rfl, hbelow⟩ := List.cons.inj hnames
            have hroute : r ++ part :: stand = r ++ [part] ++ stand := by simp
            rw [hroute] at hstands hmissing ⊢
            rcases walk_name h hr hfixed parts with hwalk | ⟨-, -, hnone⟩
            · rw [hwalk]
              exact ih hup hbelow hstands hmissing
            · rw [entry?_append_of_none hnone] at hstands
              cases hstands

theorem walk_of_directory {t : FileTree} (h : t.WellFormed) {parts : List Text}
    (hup : ['.', '.'] ∉ parts) {r : Route} (hdir : t.entry? (r ++ names parts) = some .directory) :
    t.walk r parts = .ok (r ++ names parts) :=
  (walk_spec h hup r).resolve_right fun ⟨_, _, hnot, _⟩ => hnot hdir

section

variable {t : FileTree} {p : Path} {l : List Text} {last : Text}

/-- The directory that a path is in is found if it stands. -/
theorem locate_of_directory (h : t.WellFormed) (hp : checkPath p = .ok ())
    (hparts : p.parts = l ++ [last]) (hup : ['.', '.'] ∉ l)
    (hdir : t.entry? (t.origin p ++ names l) = some .directory) :
    t.locate p = .ok (t.origin p ++ names l, last) := by
  simp only [locate, hp, hparts, List.dropLast_concat, List.getLastD_concat, bind, Except.bind,
    walk_of_directory h hup hdir, hdir, pure, Except.pure]

/-- Without the directory that a path is in, there is an error. It is that nothing is found only if
nothing stands there. -/
theorem locate_of_not_directory (h : t.WellFormed) (hp : checkPath p = .ok ())
    (hparts : p.parts = l ++ [last]) (hup : ['.', '.'] ∉ l)
    (hnot : t.entry? (t.origin p ++ names l) ≠ some .directory) : ∃ e, t.locate p = .error e ∧
      (e = .notFound → t.entry? (t.origin p ++ names l) = none) := by
  simp only [locate, hp, hparts, List.dropLast_concat, List.getLastD_concat, bind, Except.bind]
  rcases walk_spec h hup (t.origin p) with hwalk | ⟨e, hwalk, -, hnone⟩
  · rw [hwalk]
    simp only
    cases hentry : t.entry? (t.origin p ++ names l) with
    | none => exact ⟨_, rfl, fun _ => rfl⟩
    | some entry =>
      cases entry with
      | file bytes => exact ⟨_, rfl, fun he => nomatch he⟩
      | directory => exact absurd hentry hnot
  · rw [hwalk]
    exact ⟨e, rfl, hnone⟩

end

theorem walk_append (t : FileTree) (r : Route) (l l' : List Text) :
    t.walk r (l ++ l') = (t.walk r l).bind fun r' => t.walk r' l' := by
  induction l generalizing r with
  | nil => rfl
  | cons part l ih =>
    rw [List.cons_append, walk, walk]
    cases t.entry? r with
    | none => rfl
    | some entry =>
      cases entry with
      | file bytes => rfl
      | directory =>
        simp only
        split
        · exact ih r
        · split
          · exact ih r.dropLast
          · cases checkName part with
            | error e => rfl
            | ok =>
              simp only
              split
              · exact ih (r ++ [part])
              · rfl

/-- In a directory that stands, a name leads to its entry. -/
theorem lookup?_of_directory {t : FileTree} (h : t.WellFormed) {p : Path}
    (hp : checkPath p = .ok ()) {l : List Text} {last : Text} (hparts : p.parts = l ++ [last])
    (hup : ['.', '.'] ∉ l) (hlast : IsName last)
    (hdir : t.entry? (t.origin p ++ names l) = some .directory) :
    t.lookup? p = t.entry? (t.origin p ++ names l ++ [last]) := by
  obtain ⟨hkeep, hup'⟩ := isFixedPart_eq_false.mp hlast.not_fixed
  simp only [lookup?, resolve, hp, hparts, bind, Except.bind, walk_append,
    walk_of_directory h hup hdir, walk, hdir, if_neg hkeep, if_neg hup',
    checkName_eq_ok.mpr hlast.size_le]
  cases hentry : t.entry? (t.origin p ++ names l ++ [last]) with
  | none => rfl
  | some entry => exact hentry

theorem lookup?_of_checkPath {t : FileTree} {p : Path} {e : FileError}
    (h : checkPath p = .error e) : t.lookup? p = none := by
  simp [lookup?, resolve, h, bind, Except.bind, Except.toOption]

/-- A path to nothing names nothing. -/
theorem lookup?_of_none {t : FileTree} (h : t.WellFormed) {p : Path} (hup : ['.', '.'] ∉ p.parts)
    (hnone : t.entry? (t.routeTo p) = none) : t.lookup? p = none := by
  cases hp : checkPath p with
  | error e => exact lookup?_of_checkPath hp
  | ok =>
    rw [lookup?, resolve, hp]
    simp only [bind, Except.bind]
    rcases walk_spec h hup (t.origin p) with hwalk | ⟨e, hwalk, -⟩
    · rw [hwalk]
      exact hnone
    · rw [hwalk]
      rfl

theorem isDirectory_iff {t : FileTree} (h : t.WellFormed) {p : Path} (hup : ['.', '.'] ∉ p.parts) :
    t.isDirectory p = true ↔
      checkPath p = .ok () ∧ t.entry? (t.routeTo p) = some .directory := by
  cases hp : checkPath p with
  | error e => simp [isDirectory, lookup?_of_checkPath hp]
  | ok =>
    rw [isDirectory, beq_iff_eq, lookup?, resolve, hp]
    simp only [bind, Except.bind, true_and]
    rcases walk_spec h hup (t.origin p) with hwalk | ⟨e, hwalk, hnot, -⟩
    · rw [hwalk, routeTo]
      rfl
    · rw [hwalk]
      simpa [Except.toOption, routeTo] using hnot

/-! ## Writing a file -/

theorem writeFile_of_checkPath {t : FileTree} {p : Path} {e : FileError}
    (h : checkPath p = .error e) (bytes : List UInt8) : t.writeFile p bytes = .error e := by
  simp only [writeFile, locate, h, bind, Except.bind]

theorem writeFile_of_directory {t : FileTree} (h : t.WellFormed) {p : Path}
    (hp : checkPath p = .ok ()) {l : List Text} {last : Text} (hparts : p.parts = l ++ [last])
    (hup : ['.', '.'] ∉ l) (hlast : IsName last)
    (hdir : t.entry? (t.origin p ++ names l) = some .directory) (bytes : List UInt8) :
    t.writeFile p bytes =
      if t.entry? (t.origin p ++ names l ++ [last]) = some .directory then .error .isDirectory
      else .ok (t.put (t.origin p ++ names l ++ [last]) (.file bytes)) := by
  simp only [writeFile, locate_of_directory h hp hparts hup hdir, hlast.not_fixed,
    checkName_eq_ok.mpr hlast.size_le, bind, Except.bind, pure, Except.pure]
  rfl

/-- A path to something that stands has no character that a name cannot have. -/
theorem no_nul_of_stands {t : FileTree} (h : t.WellFormed) {p : Path}
    (hsome : (t.entry? (t.routeTo p)).isSome) : '\x00' ∉ p := by
  intro hnul
  rw [← Path.join_parts p] at hnul
  rcases Path.mem_join hnul with hslash | ⟨part, hpart, hnul⟩
  · cases hslash
  · by_cases hskip : part = [] ∨ part = ['.']
    · rcases hskip with rfl | rfl
      · cases hnul
      · simp at hnul
    · have hname : part ∈ names p.parts :=
        Path.mem_names.mpr ⟨hpart, fun heq => hskip (.inl heq), fun heq => hskip (.inr heq)⟩
      exact (h.names _ hsome part (List.mem_append_right _ hname)).no_nul hnul

end FileTree

end Lexis
