-- What it means to make a directory and the missing ones above it: directories are added on the way
-- there, and everything that stands is kept. Most errors leave the tree as it was.
import Lexis.Proofs.TreeEntries

namespace Lexis.FileTree

open Lexis.Path (names)

/-! ## Making one directory -/

theorem checkPath_bare {p : Path} (h : checkPath p = .ok ()) : checkPath p.bare = .ok () := by
  obtain ⟨hnul, hne, hsize⟩ := checkPath_eq_ok.mp h
  obtain ⟨k, hk⟩ := Path.exists_slashes_bare p
  have hbytes := congrArg Text.byteSize hk
  rw [Text.byteSize_append] at hbytes
  refine checkPath_eq_ok.mpr ⟨fun hmem => hnul ?_, Path.bare_ne_nil hne, by omega⟩
  rw [hk]
  exact List.mem_append_left _ hmem

theorem origin_bare (t : FileTree) (p : Path) : t.origin p.bare = t.origin p := by
  rw [origin, Path.isAbsolute_bare, ← origin]

section

variable {t : FileTree} {p : Path} {l : List Text} {last : Text}

theorem createDirectory_of_directory (h : t.WellFormed) (hp : checkPath p = .ok ())
    (hparts : p.bare.parts = l ++ [last]) (hup : ['.', '.'] ∉ l)
    (hdir : t.entry? (t.origin p ++ names l) = some .directory) :
    t.createDirectory p =
      if isFixedPart last then .error .alreadyExists
      else match checkName last with
        | .error e => .error e
        | .ok () =>
          if (t.entry? (t.origin p ++ names l ++ [last])).isSome then .error .alreadyExists
          else .ok (t.put (t.origin p ++ names l ++ [last]) (.directory [])) := by
  rw [← origin_bare] at hdir ⊢
  have hlocate := locate_of_directory h (checkPath_bare hp) hparts hup hdir
  rw [Path.bare] at hlocate
  simp only [createDirectory, hp, hlocate, bind, Except.bind]
  by_cases hfixed : isFixedPart last = true
  · simp [hfixed, throw, throwThe, MonadExceptOf.throw]
  · cases hname : checkName last with
    | error e => simp [hfixed]
    | ok =>
      simp only [hfixed, pure, Except.pure]
      split <;> rfl

theorem createDirectory_of_not_directory (h : t.WellFormed) (hp : checkPath p = .ok ())
    (hparts : p.bare.parts = l ++ [last]) (hup : ['.', '.'] ∉ l)
    (hnot : t.entry? (t.origin p ++ names l) ≠ some .directory) :
    ∃ e, t.createDirectory p = .error e ∧
      (e = .notFound → t.entry? (t.origin p ++ names l) = none) := by
  rw [← origin_bare] at hnot ⊢
  obtain ⟨e, hlocate, hnone⟩ :=
    locate_of_not_directory h (checkPath_bare hp) hparts hup hnot
  rw [Path.bare] at hlocate
  exact ⟨e, by simp only [createDirectory, hp, hlocate, bind, Except.bind], hnone⟩

/-- A directory is not made where the way to it lacks a name. -/
theorem createDirectory_of_lacks (h : t.WellFormed) (hp : checkPath p = .ok ())
    (hparts : p.bare.parts = l ++ [last]) (hup : ['.', '.'] ∉ l) {stand : Route} {first : Text}
    {more : Route} (hlacks : t.Lacks (t.origin p ++ names l) stand first more) :
    ∃ e, t.createDirectory p = .error e ∧ (e = .notFound ↔
      t.entry? stand = some .directory ∧ first.byteSize ≤ Path.maxNameSize) := by
  rw [← origin_bare] at hlacks
  obtain ⟨s, rfl⟩ := hlacks.prefix_of_directory (List.prefix_append _ _) (h.origin p.bare)
  have hnames : names l = s ++ first :: more := by
    have hroute := hlacks.route_eq
    rw [List.append_assoc] at hroute
    exact List.append_cancel_left hroute
  obtain ⟨e, hwalk, he⟩ := walk_of_lacks h hup hnames hlacks.stands hlacks.missing
  refine ⟨e, ?_, he⟩
  have hlocate : t.locate p.bare = .error e := by
    simp only [locate, checkPath_bare hp, hparts, List.dropLast_concat, bind, Except.bind, hwalk]
  rw [Path.bare] at hlocate
  simp only [createDirectory, hp, hlocate, bind, Except.bind]

end

section

variable {t made : FileTree} {p : Path}

theorem createDirectory_of_checkPath {e : FileError} (h : checkPath p = .error e) :
    t.createDirectory p = .error e := by
  simp only [createDirectory, h, bind, Except.bind]

theorem checkPath_of_createDirectory_ok (h : t.createDirectory p = .ok made) :
    checkPath p = .ok () := by
  cases hp : checkPath p with
  | ok => rfl
  | error e =>
    rw [createDirectory_of_checkPath hp] at h
    cases h

theorem checkPath_of_createDirectory_notFound (hne : p ≠ [])
    (h : t.createDirectory p = .error .notFound) : checkPath p = .ok () := by
  cases hp : checkPath p with
  | ok => rfl
  | error e =>
    rw [createDirectory_of_checkPath hp] at h
    rw [Except.error.inj h] at hp
    exact absurd (eq_nil_of_checkPath hp) hne

theorem no_ups_of_bare {l : List Text} {last : Text} (hup : ['.', '.'] ∉ p.parts)
    (h : p.bare.parts = l ++ [last]) : ['.', '.'] ∉ l := fun hl =>
  hup (Path.mem_parts_of_bare (h ▸ List.mem_append_left _ hl))

theorem exists_last_part (p : Path) : ∃ l last, p.parts = l ++ [last] :=
  ⟨_, _, (List.dropLast_append_getLast (Path.parts_ne_nil p)).symm⟩

theorem routeTo_of_parts {l : List Text} {last : Text} (h : p.bare.parts = l ++ [last]) :
    t.routeTo p = t.origin p ++ names l ++ names [last] := by
  rw [routeTo, ← Path.names_bare, h, Path.names_append, List.append_assoc]

theorem names_of_not_fixed {name : Text} (h : isFixedPart name = false) : names [name] = [name] :=
  Path.names_cons (isFixedPart_eq_false.mp h).1 []

/-- A directory that is made stands in a directory, at a name that was free. -/
theorem createDirectory_ok (h : t.WellFormed) (hup : ['.', '.'] ∉ p.parts)
    (hok : t.createDirectory p = .ok made) : ∃ route name, IsName name ∧
      t.routeTo p = route ++ [name] ∧ t.entry? route = some .directory ∧
      t.entry? (route ++ [name]) = none ∧ made = t.put (route ++ [name]) (.directory []) := by
  obtain ⟨l, last, hparts⟩ := exists_last_part p.bare
  have hup' := no_ups_of_bare hup hparts
  have hp := checkPath_of_createDirectory_ok hok
  by_cases hdir : t.entry? (t.origin p ++ names l) = some .directory
  · rw [createDirectory_of_directory h hp hparts hup' hdir] at hok
    cases hfixed : isFixedPart last with
    | true => simp [hfixed] at hok
    | false =>
      cases hname : checkName last with
      | error e => simp [hfixed, hname] at hok
      | ok =>
        rw [hfixed, hname] at hok
        simp only [Bool.false_eq_true, if_false] at hok
        split at hok
        · cases hok
        · rename_i hfree
          obtain rfl := Except.ok.inj hok
          have hlast : last ∈ p.parts := Path.mem_parts_of_bare (by rw [hparts]; simp)
          have hnul : '\x00' ∉ last := fun hmem =>
            (checkPath_eq_ok.mp hp).1 (Path.mem_of_mem_parts hlast hmem)
          refine ⟨_, last, ⟨hfixed, Path.no_slash_of_mem_parts hlast, hnul,
            checkName_eq_ok.mp hname⟩, ?_, hdir, by simpa using hfree, rfl⟩
          rw [routeTo_of_parts hparts, names_of_not_fixed hfixed]
  · obtain ⟨e, he, -⟩ := createDirectory_of_not_directory h hp hparts hup' hdir
    rw [he] at hok
    cases hok

/-- Nothing is found on the way to a directory that is made only if it does not stand. -/
theorem entry?_of_createDirectory_notFound (h : t.WellFormed) (hup : ['.', '.'] ∉ p.parts)
    (hne : p ≠ []) (hfail : t.createDirectory p = .error .notFound) :
    t.entry? (t.routeTo p) = none := by
  obtain ⟨l, last, hparts⟩ := exists_last_part p.bare
  have hup' := no_ups_of_bare hup hparts
  have hp := checkPath_of_createDirectory_notFound hne hfail
  by_cases hdir : t.entry? (t.origin p ++ names l) = some .directory
  · rw [createDirectory_of_directory h hp hparts hup' hdir, checkName] at hfail
    split_ifs at hfail <;> cases hfail
  · obtain ⟨e, he, hnone⟩ := createDirectory_of_not_directory h hp hparts hup' hdir
    rw [he] at hfail
    rw [routeTo_of_parts hparts]
    exact entry?_append_of_none (hnone (Except.error.inj hfail)) _

theorem createDirectory_of_some (h : t.WellFormed) (hup : ['.', '.'] ∉ p.parts) (hne : p ≠ [])
    (hsome : (t.entry? (t.routeTo p)).isSome) :
    ∃ e, e ≠ .notFound ∧ t.createDirectory p = .error e := by
  cases hfirst : t.createDirectory p with
  | ok made =>
    obtain ⟨route, name, -, hroute, -, hfree, -⟩ := createDirectory_ok h hup hfirst
    rw [hroute, hfree] at hsome
    cases hsome
  | error e =>
    refine ⟨e, ?_, rfl⟩
    rintro rfl
    rw [entry?_of_createDirectory_notFound h hup hne hfirst] at hsome
    cases hsome

end

/-! ## Making the directories above -/

/-- All that differs are directories on the way along a route, where nothing stood before. -/
structure OnlyMade (t made : FileTree) (route : Route) : Prop where
  workingDirectory : made.workingDirectory = t.workingDirectory
  entry : ∀ r, made.entry? r = t.entry? r ∨
    r <+: route ∧ t.entry? r = none ∧ made.entry? r = some .directory

namespace OnlyMade

variable {t made all : FileTree} {base route : Route}

theorem refl (t : FileTree) (route : Route) : OnlyMade t t route := ⟨rfl, fun _ => .inl rfl⟩

theorem trans (h : OnlyMade t made base) (h' : OnlyMade made all route) (hbase : base <+: route) :
    OnlyMade t all route := by
  refine ⟨h'.workingDirectory.trans h.workingDirectory, fun r => ?_⟩
  rcases h.entry r with hr | ⟨hr, hnone, hdir⟩
  · rw [← hr]
    exact h'.entry r
  · rcases h'.entry r with hr' | ⟨-, hnone', -⟩
    · exact .inr ⟨hr.trans hbase, hnone, hr'.trans hdir⟩
    · rw [hnone'] at hdir
      cases hdir

theorem put {name : Text} (hroute : t.entry? route = some .directory)
    (hfree : t.entry? (route ++ [name]) = none) :
    OnlyMade t (t.put (route ++ [name]) (.directory [])) (route ++ [name]) := by
  refine ⟨rfl, fun r => ?_⟩
  rw [entry?_put (fun _ => rfl) hroute (by simp [hfree])]
  split
  · rename_i heq
    exact .inr ⟨heq ▸ List.prefix_rfl, heq ▸ hfree, rfl⟩
  · exact .inl rfl

theorem origin (h : OnlyMade t made route) (p : Path) : made.origin p = t.origin p := by
  rw [FileTree.origin, FileTree.origin, h.workingDirectory]

theorem routeTo (h : OnlyMade t made route) (p : Path) : made.routeTo p = t.routeTo p := by
  rw [FileTree.routeTo, FileTree.routeTo, h.origin]

/-- Nothing is made in the last directory of the route. -/
theorem entry?_below (h : OnlyMade t made route) (name : Text) :
    made.entry? (route ++ [name]) = t.entry? (route ++ [name]) := by
  rcases h.entry (route ++ [name]) with heq | ⟨hlong, -⟩
  · exact heq
  · have := hlong.length_le
    simp at this

end OnlyMade

/-- What comes of making the directories on the way along a route. -/
structure Builds (t : FileTree) (route : Route) (result : FileTree × Except FileError Unit) :
    Prop where
  onlyMade : OnlyMade t result.1 route
  wellFormed : result.1.WellFormed
  stands : result.2 = .ok () → FileTree.entry? result.1 route = some .directory

theorem createDirectory_builds {t made : FileTree} {p : Path} (h : t.WellFormed)
    (hup : ['.', '.'] ∉ p.parts) (hok : t.createDirectory p = .ok made) :
    Builds t (t.routeTo p) (made, .ok ()) := by
  obtain ⟨route, name, hname, hrouteTo, hroute, hfree, rfl⟩ := createDirectory_ok h hup hok
  rw [hrouteTo]
  refine ⟨.put hroute hfree, h.put (fun _ => rfl) hname hroute (by simp [hfree]), fun _ => ?_⟩
  exact (entry?_put (fun _ => rfl) hroute (by simp [hfree]) _).trans (if_pos rfl)

section

variable {t made : FileTree} {p : Path} {above : List Path}

theorem createEach_of_error {e : FileError} (h : t.createDirectory p = .error e)
    (he : e ≠ .notFound) :
    t.createEach (p :: above) = (t, if t.isDirectory p then .ok () else .error e) := by
  rw [createEach, h]
  cases e <;> first | rfl | exact absurd rfl he

theorem createEach_of_directory (h : t.WellFormed) (hup : ['.', '.'] ∉ p.parts)
    (hp : checkPath p = .ok ()) (hdir : t.entry? (t.routeTo p) = some .directory) :
    t.createEach (p :: above) = (t, .ok ()) := by
  obtain ⟨e, he, hfirst⟩ := createDirectory_of_some h hup (checkPath_eq_ok.mp hp).2.1
    (by rw [hdir]; rfl)
  rw [createEach_of_error hfirst he, if_pos ((isDirectory_iff h hup).mpr ⟨hp, hdir⟩)]

/-- What can come of the paths of a list, by what comes of the first one. It is tried again when the
others are made, if nothing was found on the way to it. -/
inductive FirstOfEach (t : FileTree) (p : Path) (above : List Path) :
    FileTree × Except FileError Unit → Prop
  | is_made {made : FileTree} (h : t.createDirectory p = .ok made) :
      FirstOfEach t p above (made, .ok ())
  | is_refused {e : FileError} (h : t.createDirectory p = .error e) (he : e ≠ .notFound) :
      FirstOfEach t p above (t, if t.isDirectory p then .ok () else .error e)
  | above_refused {made : FileTree} {e : FileError} (h : t.createDirectory p = .error .notFound)
      (habove : t.createEach above = (made, .error e)) : FirstOfEach t p above (made, .error e)
  | is_made_again {made all : FileTree} (h : t.createDirectory p = .error .notFound)
      (habove : t.createEach above = (made, .ok ())) (hagain : made.createDirectory p = .ok all) :
      FirstOfEach t p above (all, .ok ())
  | is_refused_again {made : FileTree} {e : FileError}
      (h : t.createDirectory p = .error .notFound) (habove : t.createEach above = (made, .ok ()))
      (hagain : made.createDirectory p = .error e) :
      FirstOfEach t p above (made, if made.isDirectory p then .ok () else .error e)

theorem firstOfEach (t : FileTree) (p : Path) (above : List Path) :
    FirstOfEach t p above (t.createEach (p :: above)) := by
  cases hfirst : t.createDirectory p with
  | ok made =>
    rw [createEach, hfirst]
    exact .is_made hfirst
  | error e =>
    by_cases he : e = .notFound
    · subst he
      rw [createEach, hfirst]
      rcases habove : t.createEach above with ⟨made, _ | _⟩
      · exact .above_refused hfirst habove
      · cases hagain : made.createDirectory p with
        | ok all =>
          simp only [hagain]
          exact .is_made_again hfirst habove hagain
        | error e =>
          simp only [hagain]
          exact .is_refused_again hfirst habove hagain
    · rw [createEach_of_error hfirst he]
      exact .is_refused hfirst he

variable {base : Route}

/-- A directory that cannot be made and is there stands. -/
theorem stands_of_check {e : FileError} (h : t.WellFormed) (hup : ['.', '.'] ∉ p.parts)
    (hok : (if t.isDirectory p then .ok () else .error e : Except FileError Unit) = .ok ()) :
    t.entry? (t.routeTo p) = some .directory := by
  split at hok
  · rename_i hdir
    exact ((isDirectory_iff h hup).mp hdir).2
  · cases hok

/-- What the first path of a list adds to what comes of the others. -/
theorem builds_cons (h : t.WellFormed) (hup : ['.', '.'] ∉ p.parts) (hbase : base <+: t.routeTo p)
    (habove : Builds t base (t.createEach above)) :
    Builds t (t.routeTo p) (t.createEach (p :: above)) := by
  have hfirstOf := firstOfEach t p above
  generalize t.createEach (p :: above) = result at hfirstOf ⊢
  cases hfirstOf with
  | is_made hfirst => exact createDirectory_builds h hup hfirst
  | is_refused hfirst he => exact ⟨.refl t _, h, stands_of_check h hup⟩
  | above_refused hfirst hresult =>
    rw [hresult] at habove
    have hmade := habove.onlyMade.trans (.refl _ (t.routeTo p)) hbase
    exact ⟨hmade, habove.wellFormed, fun hok => nomatch hok⟩
  | is_made_again hfirst hresult hagain =>
    rw [hresult] at habove
    have hall := createDirectory_builds habove.wellFormed hup hagain
    rw [habove.onlyMade.routeTo] at hall
    exact ⟨habove.onlyMade.trans hall.onlyMade hbase, hall.wellFormed, hall.stands⟩
  | is_refused_again hfirst hresult hagain =>
    rw [hresult] at habove
    have hmade := habove.onlyMade.trans (.refl _ (t.routeTo p)) hbase
    refine ⟨hmade, habove.wellFormed, fun hok => ?_⟩
    rw [← habove.onlyMade.routeTo]
    exact stands_of_check habove.wellFormed hup hok

end

/-! ## Paths to a name -/

/-- The parts of the path lead to a directory, and the last one is a name in it. -/
structure EndsInName (q : Path) (l : List Text) (last : Text) : Prop where
  no_ups : ['.', '.'] ∉ q.parts
  parts_eq : q.bare.parts = l ++ [last]
  not_fixed : isFixedPart last = false

namespace EndsInName

variable {q : Path} {l : List Text} {last : Text} (hq : EndsInName q l last)

include hq

theorem ne_nil : q ≠ [] := by
  rintro rfl
  obtain ⟨-, hlast⟩ := List.append_inj' (show [] ++ [[]] = l ++ [last] from hq.parts_eq) rfl
  have hfixed := hq.not_fixed
  rw [← (List.cons.inj hlast).1] at hfixed
  cases hfixed

theorem no_ups_front : ['.', '.'] ∉ l := no_ups_of_bare hq.no_ups hq.parts_eq

theorem routeTo_eq (t : FileTree) : t.routeTo q = t.origin q ++ names l ++ [last] := by
  rw [routeTo_of_parts hq.parts_eq, names_of_not_fixed hq.not_fixed]

theorem names_eq : names q.parts = names l ++ [last] := by
  rw [← Path.names_bare, hq.parts_eq, Path.names_append, names_of_not_fixed hq.not_fixed]

variable {t made : FileTree} {above : List Path}

theorem builds (h : t.WellFormed) (habove : Builds t (t.origin q ++ names l) (t.createEach above)) :
    Builds t (t.origin q ++ names l ++ [last]) (t.createEach (q :: above)) := by
  rw [← hq.routeTo_eq]
  refine builds_cons h hq.no_ups ?_ habove
  rw [hq.routeTo_eq]
  exact List.prefix_append _ _

/-- In a directory that stands, a name that is free and not too long is made. -/
theorem createDirectory_ok (h : t.WellFormed) (hp : checkPath q = .ok ())
    (hdir : t.entry? (t.origin q ++ names l) = some .directory)
    (hfree : t.entry? (t.origin q ++ names l ++ [last]) = none)
    (hsize : last.byteSize ≤ Path.maxNameSize) :
    t.createDirectory q = .ok (t.put (t.origin q ++ names l ++ [last]) (.directory [])) := by
  rw [createDirectory_of_directory h hp hq.parts_eq hq.no_ups_front hdir]
  simp only [hq.not_fixed, checkName_eq_ok.mpr hsize, hfree, Option.isSome_none,
    Bool.false_eq_true, if_false]

/-- Once the directory that a path is in stands, nothing is wrong with a name that is not too
long. -/
theorem createDirectory_again (h : t.WellFormed) (hsize : last.byteSize ≤ Path.maxNameSize)
    (habove : Builds t (t.origin q ++ names l) (made, .ok ()))
    (hfirst : t.createDirectory q = .error .notFound) :
    ∃ all, made.createDirectory q = .ok all := by
  have hnone := entry?_of_createDirectory_notFound h hq.no_ups hq.ne_nil hfirst
  rw [hq.routeTo_eq] at hnone
  have hfree : made.entry? (t.origin q ++ names l ++ [last]) = none :=
    (habove.onlyMade.entry?_below last).trans hnone
  have hdir := habove.stands rfl
  rw [← habove.onlyMade.origin q] at hdir hfree
  exact ⟨_, hq.createDirectory_ok habove.wellFormed
    (checkPath_of_createDirectory_notFound hq.ne_nil hfirst) hdir hfree hsize⟩

/-- A name that is too long is not made, and none in something that is no directory. -/
theorem createDirectory_refused (h : t.WellFormed) (hp : checkPath q = .ok ())
    {stand : Route} {first : Text} {more : Route}
    (hlacks : t.Lacks (t.origin q ++ names l ++ [last]) stand first more)
    (hnot : ¬ (t.entry? stand = some .directory ∧ first.byteSize ≤ Path.maxNameSize)) :
    ∃ e, t.createDirectory q = .error e ∧ e ≠ .notFound := by
  rcases hlacks.concat_cases with ⟨rfl, rfl, rfl⟩ | ⟨more', -, habove⟩
  · by_cases hdir : t.entry? (t.origin q ++ names l) = some .directory
    · have hlong : checkName first = .error .nameTooLong :=
        if_pos (Nat.not_le.mp fun hsize => hnot ⟨hdir, hsize⟩)
      refine ⟨.nameTooLong, ?_, fun he => nomatch he⟩
      rw [createDirectory_of_directory h hp hq.parts_eq hq.no_ups_front hdir]
      simp only [hq.not_fixed, hlong, Bool.false_eq_true, if_false]
    · obtain ⟨e, he, hnone⟩ :=
        createDirectory_of_not_directory h hp hq.parts_eq hq.no_ups_front hdir
      refine ⟨e, he, fun heq => ?_⟩
      have hstands := hlacks.stands
      rw [hnone heq] at hstands
      cases hstands
  · obtain ⟨e, he, hiff⟩ := createDirectory_of_lacks h hp hq.parts_eq hq.no_ups_front habove
    exact ⟨e, he, fun heq => hnot (hiff.mp heq)⟩

end EndsInName

/-! ## Where a trace is left -/

/-- An error leaves the tree as it was. -/
def KeptOnError (t : FileTree) (result : FileTree × Except FileError Unit) : Prop :=
  ∀ e, result.2 = .error e → result.1 = t

section

variable {t : FileTree} {q : Path} {above : List Path}

theorem keptOnError_cons {l : List Text} {last : Text} (h : t.WellFormed)
    (hq : EndsInName q l last) (hsize : last.byteSize ≤ Path.maxNameSize)
    (habove : Builds t (t.origin q ++ names l) (t.createEach above))
    (hkept : KeptOnError t (t.createEach above)) :
    KeptOnError t (t.createEach (q :: above)) := by
  intro e herror
  have hfirstOf := firstOfEach t q above
  generalize t.createEach (q :: above) = result at herror hfirstOf
  cases hfirstOf with
  | is_made hfirst => cases herror
  | is_refused hfirst he => rfl
  | above_refused hfirst hresult =>
    rw [hresult] at hkept
    exact hkept e herror
  | is_made_again hfirst hresult hagain => cases herror
  | is_refused_again hfirst hresult hagain =>
    rw [hresult] at habove
    obtain ⟨all, hall⟩ := hq.createDirectory_again h hsize habove hfirst
    rw [hall] at hagain
    cases hagain

/-- Where nothing is made above a path that is not made, it is not made by the second try either. -/
theorem kept_cons {e : FileError} (hfirst : t.createDirectory q = .error e)
    (habove : (t.createEach above).1 = t) : (t.createEach (q :: above)).1 = t := by
  have hfirstOf := firstOfEach t q above
  generalize t.createEach (q :: above) = result at hfirstOf ⊢
  cases hfirstOf with
  | is_made h =>
    rw [h] at hfirst
    cases hfirst
  | is_refused _ _ => rfl
  | above_refused _ hresult =>
    rw [hresult] at habove
    exact habove
  | is_made_again _ hresult hagain =>
    rw [hresult] at habove
    obtain rfl : _ = t := habove
    rw [hfirst] at hagain
    cases hagain
  | is_refused_again _ hresult _ =>
    rw [hresult] at habove
    exact habove

/-- What is made above a path stays when the path is tried again. -/
theorem stays_cons {base r : Route} (hup : ['.', '.'] ∉ q.parts)
    (habove : Builds t base (t.createEach above)) (hfirst : t.createDirectory q = .error .notFound)
    (hmade : entry? (t.createEach above).1 r = some .directory) :
    entry? (t.createEach (q :: above)).1 r = some .directory := by
  have hfirstOf := firstOfEach t q above
  generalize t.createEach (q :: above) = result at hfirstOf ⊢
  cases hfirstOf with
  | is_made h =>
    rw [h] at hfirst
    cases hfirst
  | is_refused h he =>
    rw [h] at hfirst
    exact absurd (Except.error.inj hfirst) he
  | above_refused _ hresult =>
    rw [hresult] at hmade
    exact hmade
  | is_made_again _ hresult hagain =>
    rw [hresult] at hmade habove
    rcases (createDirectory_builds habove.wellFormed hup hagain).onlyMade.entry r with
      heq | ⟨-, hnone, -⟩
    · exact heq.trans hmade
    · rw [hnone] at hmade
      cases hmade
  | is_refused_again _ hresult _ =>
    rw [hresult] at hmade
    exact hmade

/-- The first missing directory on the way to a name is made, if its own name is not too long. -/
theorem first_made_cons {l : List Text} {last : Text} (h : t.WellFormed) (hq : EndsInName q l last)
    (hp : checkPath q = .ok ()) {stand : Route} {first : Text} {more : Route}
    (hlacks : t.Lacks (t.origin q ++ names l ++ [last]) stand first more)
    (hdir : t.entry? stand = some .directory) (hsize : first.byteSize ≤ Path.maxNameSize)
    (habove : Builds t (t.origin q ++ names l) (t.createEach above))
    (hmade : ∀ more, t.Lacks (t.origin q ++ names l) stand first more →
      entry? (t.createEach above).1 (stand ++ [first]) = some .directory) :
    entry? (t.createEach (q :: above)).1 (stand ++ [first]) = some .directory := by
  rcases hlacks.concat_cases with ⟨rfl, rfl, rfl⟩ | ⟨more', -, hfront⟩
  · have hfree : t.entry? (t.origin q ++ names l ++ [first]) ≠ some .directory := by
      rw [hlacks.missing]
      exact fun heq => nomatch heq
    rw [createEach, hq.createDirectory_ok h hp hdir hlacks.missing hsize]
    exact (entry?_put (fun _ => rfl) hdir hfree _).trans (if_pos rfl)
  · obtain ⟨e, hfirst, hiff⟩ := createDirectory_of_lacks h hp hq.parts_eq hq.no_ups_front hfront
    rw [hiff.mpr ⟨hdir, hsize⟩] at hfirst
    exact stays_cons hq.no_ups habove hfirst (hmade more' hfront)

end

/-! ## Making a directory and all above it -/

section

variable {t : FileTree} {p : Path}

theorem origin_of_isAbsolute {p q : Path} (h : q.isAbsolute = p.isAbsolute) (t : FileTree) :
    t.origin q = t.origin p := by
  rw [origin, h, ← origin]

/-- The paths made of the first steps lead to the directories on the way. -/
theorem routeTo_ofSteps (t : FileTree) {l : List Text} (h : ∀ x ∈ l, x ∈ p.steps) :
    t.routeTo (Path.ofSteps p.isAbsolute l) = t.origin p ++ names l := by
  have hslash : ∀ x ∈ l, '/' ∉ x := fun x hx => Path.step_no_slash (h x hx)
  have hne : ∀ x ∈ l, x ≠ [] := fun x hx => Path.step_ne_nil (h x hx)
  rw [routeTo, Path.names_parts_ofSteps hslash,
    origin_of_isAbsolute (Path.isAbsolute_ofSteps hne hslash)]

theorem no_ups_ofSteps (hup : ['.', '.'] ∉ p.parts) {l : List Text} (h : ∀ x ∈ l, x ∈ p.steps) :
    ['.', '.'] ∉ (Path.ofSteps p.isAbsolute l).parts := by
  intro hmem
  rcases Path.mem_parts_ofSteps (fun x hx => Path.step_no_slash (h x hx)) hmem with hnil | hmem
  · cases hnil
  · exact hup ((Path.steps_sublist p).mem (h _ hmem))

/-- A path made of steps names something if the path of all steps does. -/
theorem checkPath_ofSteps (hp : checkPath p = .ok ()) {l : List Text} (h : l.Sublist p.steps) :
    let q := Path.ofSteps p.isAbsolute l
    q = [] ∨ checkPath q = .ok () := by
  intro q
  obtain ⟨hnul, -, hsize⟩ := checkPath_eq_ok.mp hp
  by_cases hempty : q = []
  · exact .inl hempty
  · refine .inr (checkPath_eq_ok.mpr ⟨fun hmem => ?_, hempty, ?_⟩)
    · rcases Path.mem_ofSteps hmem with hslash | ⟨step, hstep, hmem⟩
      · cases hslash
      · exact hnul (Path.mem_of_mem_parts ((Path.steps_sublist p).mem (h.mem hstep)) hmem)
    · exact Nat.le_trans (Path.byteSize_ofSteps_mono h _)
        (Nat.le_trans (Path.byteSize_ofSteps_le p) hsize)

/-- A dot as the first step stands for the working directory. -/
theorem createEach_of_dot {above : List Path} (h : t.WellFormed) :
    t.createEach (Path.ofSteps false [['.']] :: above) = (t, .ok ()) := by
  refine createEach_of_directory h (by decide) rfl ?_
  rw [routeTo, show names (Path.ofSteps false [['.']]).parts = [] by decide, List.append_nil]
  exact h.origin _

theorem endsInName_ofSteps (hup : ['.', '.'] ∉ p.parts) {l : List Text} {step : Text}
    (h : ∀ x ∈ l ++ [step], x ∈ p.steps) (hdot : step ≠ ['.']) :
    EndsInName (Path.ofSteps p.isAbsolute (l ++ [step]))
      ((if p.isAbsolute then [[]] else []) ++ l) step := by
  have hmem : step ∈ p.steps := h step (by simp)
  have hparts : (Path.ofSteps p.isAbsolute (l ++ [step])).parts =
      (if p.isAbsolute then [[]] else []) ++ l ++ [step] := by
    rw [Path.parts_ofSteps (by simp) fun x hx => Path.step_no_slash (h x hx), List.append_assoc]
  refine ⟨no_ups_ofSteps hup h, ?_, isFixedPart_eq_false.mpr ⟨?_, ?_⟩⟩
  · rw [Path.bare_eq_self hparts (Path.step_ne_nil hmem), hparts]
  · exact fun hskip => hskip.elim (Path.step_ne_nil hmem) hdot
  · exact fun heq => hup ((Path.steps_sublist p).mem (heq ▸ hmem))

/-- The paths made of the first steps of a path are taken one by one: each of them is the one before
it and a name more, but for a dot that starts the first one, which makes nothing. -/
theorem upTo_induction {P : Route → FileTree × Except FileError Unit → Prop} (h : t.WellFormed)
    (hup : ['.', '.'] ∉ p.parts) (start : P (t.origin p) (t, .ok ()))
    (step : ∀ q l last above, EndsInName q l last → last ∈ names p.parts →
      (checkPath p = .ok () → checkPath q = .ok ()) →
      Builds t (t.origin q ++ names l) (t.createEach above) →
      P (t.origin q ++ names l) (t.createEach above) →
      P (t.origin q ++ names l ++ [last]) (t.createEach (q :: above)))
    {n : Nat} (hn : n ≤ p.steps.length) :
    Builds t (t.origin p ++ names (p.steps.take n)) (t.createEach (p.upTo n)) ∧
      P (t.origin p ++ names (p.steps.take n)) (t.createEach (p.upTo n)) := by
  have hstart : Builds t (t.origin p) (t, .ok ()) := ⟨.refl t _, h, fun _ => h.origin p⟩
  induction n with
  | zero =>
    rw [List.take_zero, Path.names_nil, List.append_nil]
    exact ⟨hstart, start⟩
  | succ n ih =>
    have hsteps : ∀ x ∈ p.steps.take (n + 1), x ∈ p.steps := fun x hx => List.mem_of_mem_take hx
    obtain ⟨last, hlast⟩ : ∃ last, p.steps.take (n + 1) = p.steps.take n ++ [last] :=
      ⟨_, (List.take_concat_get hn).symm.trans List.concat_eq_append⟩
    obtain ⟨habove, hholds⟩ := ih (Nat.le_of_succ_le hn)
    have hsublist := List.take_sublist (n + 1) p.steps
    rw [Path.upTo_succ]
    rw [hlast] at hsteps hsublist ⊢
    by_cases hdot : last = ['.']
    · subst hdot
      obtain ⟨hfront, hrelative⟩ := Path.eq_nil_of_take_steps hlast
      rw [hfront, hrelative, List.nil_append, createEach_of_dot h, show names [['.']] = [] from rfl,
        List.append_nil]
      exact ⟨hstart, start⟩
    · have hmem := hsteps last (by simp)
      have hq := endsInName_ofSteps hup hsteps hdot
      have horigin : t.origin (Path.ofSteps p.isAbsolute (p.steps.take n ++ [last])) = t.origin p :=
        origin_of_isAbsolute (Path.isAbsolute_ofSteps (fun x hx => Path.step_ne_nil (hsteps x hx))
          fun x hx => Path.step_no_slash (hsteps x hx)) t
      have hnames : names ((if p.isAbsolute then [[]] else []) ++ p.steps.take n) =
          names (p.steps.take n) := by
        cases p.isAbsolute <;> rfl
      have hq' : checkPath p = .ok () → checkPath _ = .ok () := fun hp =>
        (checkPath_ofSteps hp hsublist).resolve_left hq.ne_nil
      have hname : last ∈ names p.parts := by
        rw [← Path.names_steps]
        exact Path.mem_names.mpr ⟨hmem, Path.step_ne_nil hmem, hdot⟩
      rw [Path.names_append, names_of_not_fixed hq.not_fixed, ← List.append_assoc]
      rw [← horigin, ← hnames] at habove hholds ⊢
      exact ⟨hq.builds h habove, step _ _ last _ hq hname hq' habove hholds⟩

theorem builds_upTo (h : t.WellFormed) (hup : ['.', '.'] ∉ p.parts) {n : Nat}
    (hn : n ≤ p.steps.length) :
    Builds t (t.origin p ++ names (p.steps.take n)) (t.createEach (p.upTo n)) :=
  (upTo_induction (P := fun _ _ => True) h hup trivial (fun _ _ _ _ _ _ _ _ _ => trivial) hn).1

/-- Where nothing is missing on the way, nothing is made. -/
theorem kept_upTo (h : t.WellFormed) (hup : ['.', '.'] ∉ p.parts) {n : Nat}
    (hn : n ≤ p.steps.length) (hsome : (t.entry? (t.origin p ++ names (p.steps.take n))).isSome) :
    (t.createEach (p.upTo n)).1 = t := by
  refine (upTo_induction (P := fun r result => (t.entry? r).isSome → result.1 = t) h hup
    (fun _ => rfl) ?_ hn).2 hsome
  intro q l last above hq _ _ _ _ hsome
  rw [← hq.routeTo_eq] at hsome
  obtain ⟨e, he, hfirst⟩ := createDirectory_of_some h hq.no_ups hq.ne_nil hsome
  rw [createEach_of_error hfirst he]

theorem keptOnError_upTo (h : t.WellFormed) (hup : ['.', '.'] ∉ p.parts)
    (hsize : ∀ name ∈ names p.parts, name.byteSize ≤ Path.maxNameSize) {n : Nat}
    (hn : n ≤ p.steps.length) : KeptOnError t (t.createEach (p.upTo n)) := by
  refine (upTo_induction (P := fun _ result => KeptOnError t result) h hup
    (fun e he => nomatch he) ?_ hn).2
  intro q l last above hq hmem _ habove hkept
  exact keptOnError_cons h hq (hsize last hmem) habove hkept

/-- The first directory that is missing on the way is made, if its name is not too long. -/
theorem first_made_upTo (h : t.WellFormed) (hup : ['.', '.'] ∉ p.parts) (hp : checkPath p = .ok ())
    {stand : Route} {first : Text} (hdir : t.entry? stand = some .directory)
    (hsize : first.byteSize ≤ Path.maxNameSize) {n : Nat} (hn : n ≤ p.steps.length) {more : Route}
    (hlacks : t.Lacks (t.origin p ++ names (p.steps.take n)) stand first more) :
    entry? (t.createEach (p.upTo n)).1 (stand ++ [first]) = some .directory := by
  refine (upTo_induction (P := fun r result => ∀ more, t.Lacks r stand first more →
    entry? result.1 (stand ++ [first]) = some .directory) h hup ?_ ?_ hn).2 more hlacks
  · intro more hlacks
    have hnone := hlacks.none
    rw [h.origin p] at hnone
    cases hnone
  · intro q l last above hq _ hq' habove hmade more hlacks
    exact first_made_cons h hq (hq' hp) hlacks hdir hsize habove hmade

/-- The path names the entry itself of a directory, `new/.` for one. -/
def EndsInDot (p : Path) : Prop := p.bare.parts.getLast? = some ['.']

/-- A path to something that is missing ends in a name, or in a dot. -/
theorem endsInName_or_dot (h : t.WellFormed) (hup : ['.', '.'] ∉ p.parts)
    (hnone : t.entry? (t.routeTo p) = none) : (∃ l last, EndsInName p l last) ∨
      EndsInDot p ∧ ∃ l, p.bare.parts = l ++ [['.']] ∧ names l = names p.parts := by
  obtain ⟨l, last, hparts⟩ := exists_last_part p.bare
  have hlast : last ∈ p.parts := Path.mem_parts_of_bare (by rw [hparts]; simp)
  by_cases hdot : last = ['.']
  · subst hdot
    refine .inr ⟨by rw [EndsInDot, hparts, List.getLast?_concat], l, hparts, ?_⟩
    rw [← Path.names_bare, hparts, Path.names_append, show names [['.']] = [] from rfl,
      List.append_nil]
  · refine .inl ⟨l, last, hup, hparts, isFixedPart_eq_false.mpr ⟨?_, fun heq => hup (heq ▸ hlast)⟩⟩
    rintro (rfl | rfl)
    · rw [routeTo, Path.names_eq_nil_of_bare hparts, List.append_nil, h.origin p] at hnone
      cases hnone
    · exact hdot rfl

theorem EndsInName.not_endsInDot {l : List Text} {last : Text} (hq : EndsInName p l last) :
    ¬ EndsInDot p := by
  intro hdot
  rw [EndsInDot, hq.parts_eq, List.getLast?_concat] at hdot
  have hfixed := hq.not_fixed
  rw [Option.some.inj hdot] at hfixed
  cases hfixed

/-- The ancestors of a path lead to the directory that the last name of the path is in. -/
theorem names_ancestors {l : List Text} {last : Text} (hnames : names p.parts = l ++ [last]) :
    names (p.steps.take (p.steps.length - 1)) = l := by
  rw [← List.dropLast_eq_take, Path.names_dropLast_steps hnames]

theorem createDirectories_of_ne_nil (hne : p ≠ []) :
    t.createDirectories p = t.createEach (p :: p.upTo (p.steps.length - 1)) := by
  rw [createDirectories, if_neg (by simpa using hne), Path.ancestors_eq]

/-- Making directories adds directories on the way to the last one only. -/
theorem builds_createDirectories (h : t.WellFormed) (hup : ['.', '.'] ∉ p.parts) :
    Builds t (t.routeTo p) (t.createDirectories p) := by
  by_cases hne : p = []
  · subst hne
    refine ⟨.refl t _, h, fun _ => ?_⟩
    rw [routeTo, show names (Path.parts []) = [] from rfl, List.append_nil]
    exact h.origin []
  · rw [createDirectories_of_ne_nil hne]
    refine builds_cons h hup ?_ (builds_upTo h hup (Nat.sub_le _ 1))
    rw [routeTo, List.prefix_append_right_inj, ← Path.names_steps]
    exact Path.names_prefix (List.take_prefix _ _)

/-- Where nothing stands, all directories are made or none is, if the path does not end in a dot
and its names are not too long. -/
theorem keptOnError_createDirectories (h : t.WellFormed) (hup : ['.', '.'] ∉ p.parts)
    (hnone : t.entry? (t.routeTo p) = none) (hdot : ¬ EndsInDot p)
    (hsize : ∀ name ∈ names p.parts, name.byteSize ≤ Path.maxNameSize) :
    KeptOnError t (t.createDirectories p) := by
  obtain ⟨l, last, hq⟩ := (endsInName_or_dot h hup hnone).resolve_right fun hends => hdot hends.1
  have habove := builds_upTo h hup (Nat.sub_le p.steps.length 1)
  rw [names_ancestors hq.names_eq] at habove
  rw [createDirectories_of_ne_nil hq.ne_nil]
  exact keptOnError_cons h hq (hsize last (by rw [hq.names_eq]; simp)) habove
    (keptOnError_upTo h hup hsize (Nat.sub_le _ 1))

/-- Where something stands, no directory is made. -/
theorem createDirectories_of_some (h : t.WellFormed) (hup : ['.', '.'] ∉ p.parts)
    (hsome : (t.entry? (t.routeTo p)).isSome) : (t.createDirectories p).1 = t := by
  by_cases hne : p = []
  · subst hne
    rfl
  · obtain ⟨e, he, hfirst⟩ := createDirectory_of_some h hup hne hsome
    rw [createDirectories_of_ne_nil hne, createEach_of_error hfirst he]

theorem createDirectories_of_directory (h : t.WellFormed) (hup : ['.', '.'] ∉ p.parts)
    (hp : p = [] ∨ checkPath p = .ok ()) (hdir : t.entry? (t.routeTo p) = some .directory) :
    t.createDirectories p = (t, .ok ()) := by
  by_cases hne : p = []
  · subst hne
    rfl
  · rw [createDirectories_of_ne_nil hne]
    exact createEach_of_directory h hup (hp.resolve_left hne) hdir

theorem createDirectories_of_checkPath {e : FileError} (hne : p ≠ [])
    (hp : checkPath p = .error e) : t.createDirectories p = (t, .error e) := by
  have he : e ≠ .notFound := by
    rintro rfl
    exact hne (eq_nil_of_checkPath hp)
  have hnot : t.isDirectory p = false := by
    rw [isDirectory, lookup?_of_checkPath hp]
    rfl
  rw [createDirectories_of_ne_nil hne, createEach_of_error (createDirectory_of_checkPath hp) he,
    hnot]
  rfl

theorem checkPath_of_createDirectories (hok : (t.createDirectories p).2 = .ok ()) :
    p = [] ∨ checkPath p = .ok () := by
  by_cases hne : p = []
  · exact .inl hne
  · cases hp : checkPath p with
    | ok => exact .inr rfl
    | error e =>
      rw [createDirectories_of_checkPath hne hp] at hok
      cases hok

/-! ## Where making a directory gets stuck -/

theorem ne_nil_of_lacks (h : t.WellFormed) {stand : Route} {first : Text} {more : Route}
    (hlacks : t.Lacks (t.routeTo p) stand first more) : p ≠ [] := by
  rintro rfl
  have hnone := hlacks.none
  rw [routeTo, show names (Path.parts []) = [] from rfl, List.append_nil, h.origin []] at hnone
  cases hnone

/-- A path that ends in a dot names nothing new. -/
theorem createDirectory_of_dot (h : t.WellFormed) (hup : ['.', '.'] ∉ p.parts) {l : List Text}
    (hparts : p.bare.parts = l ++ [['.']]) : ∃ e, t.createDirectory p = .error e := by
  cases hp : checkPath p with
  | error e => exact ⟨e, createDirectory_of_checkPath hp⟩
  | ok =>
    have hup' := no_ups_of_bare hup hparts
    by_cases hdir : t.entry? (t.origin p ++ names l) = some .directory
    · exact ⟨_, createDirectory_of_directory h hp hparts hup' hdir⟩
    · obtain ⟨e, he, -⟩ := createDirectory_of_not_directory h hp hparts hup' hdir
      exact ⟨e, he⟩

/-- A path to something that is missing has a last name, in the directory of its ancestors. -/
theorem exists_last_name (h : t.WellFormed) {stand : Route} {first : Text} {more : Route}
    (hlacks : t.Lacks (t.routeTo p) stand first more) :
    ∃ name, t.routeTo p = t.origin p ++ names (p.steps.take (p.steps.length - 1)) ++ [name] := by
  rcases List.eq_nil_or_concat' (names p.parts) with hnil | ⟨l, name, hnames⟩
  · have hnone := hlacks.none
    rw [routeTo, hnil, List.append_nil, h.origin p] at hnone
    cases hnone
  · exact ⟨name, by rw [names_ancestors hnames, routeTo, hnames, List.append_assoc]⟩

/-- Nothing is made if the first missing directory has a name that is too long or stands in no
directory, or if it is the last one and the path ends in a dot behind it. -/
theorem createDirectories_of_stuck (h : t.WellFormed) (hup : ['.', '.'] ∉ p.parts) {stand : Route}
    {first : Text} {more : Route} (hlacks : t.Lacks (t.routeTo p) stand first more)
    (hstuck : t.entry? stand = some .directory → first.byteSize ≤ Path.maxNameSize →
      EndsInDot p ∧ more = []) : (t.createDirectories p).1 = t := by
  have hne := ne_nil_of_lacks h hlacks
  cases hp : checkPath p with
  | error e => rw [createDirectories_of_checkPath hne hp]
  | ok =>
    rw [createDirectories_of_ne_nil hne]
    rcases endsInName_or_dot h hup hlacks.none with ⟨l, last, hq⟩ | ⟨hdot, l, hparts, hnames⟩
    · rw [hq.routeTo_eq] at hlacks
      obtain ⟨e, hfirst, he⟩ := hq.createDirectory_refused h hp hlacks fun hdir =>
        hq.not_endsInDot (hstuck hdir.1 hdir.2).1
      rw [createEach_of_error hfirst he]
    · obtain ⟨name, hroute⟩ := exists_last_name h hlacks
      have hfront : t.Lacks (t.origin p ++ names l) stand first more := by rwa [hnames]
      obtain ⟨e, hfirst, hiff⟩ :=
        createDirectory_of_lacks h hp hparts (no_ups_of_bare hup hparts) hfront
      by_cases he : e = .notFound
      · -- the directories above stand, and the second try is the first one again
        obtain ⟨-, rfl⟩ := hstuck (hiff.mp he).1 (hiff.mp he).2
        rw [hroute] at hlacks
        obtain ⟨rfl, -, -⟩ | ⟨more, hmore, -⟩ := hlacks.concat_cases
        · exact kept_cons hfirst (kept_upTo h hup (Nat.sub_le _ 1) hlacks.stands)
        · exact absurd hmore (by simp)
      · rw [createEach_of_error hfirst he]

/-- The first missing directory is made, unless it is the last one and the path ends in a dot behind
it. -/
theorem first_made (h : t.WellFormed) (hup : ['.', '.'] ∉ p.parts) (hp : checkPath p = .ok ())
    {stand : Route} {first : Text} {more : Route} (hlacks : t.Lacks (t.routeTo p) stand first more)
    (hdir : t.entry? stand = some .directory) (hsize : first.byteSize ≤ Path.maxNameSize)
    (hdot : EndsInDot p → more ≠ []) :
    entry? (t.createDirectories p).1 (stand ++ [first]) = some .directory := by
  have habove := builds_upTo h hup (Nat.sub_le p.steps.length 1)
  have hmade : ∀ more,
      t.Lacks (t.origin p ++ names (p.steps.take (p.steps.length - 1))) stand first more →
        entry? (t.createEach (p.upTo (p.steps.length - 1))).1 (stand ++ [first]) =
          some .directory :=
    fun _ => first_made_upTo h hup hp hdir hsize (Nat.sub_le p.steps.length 1)
  rw [createDirectories_of_ne_nil (ne_nil_of_lacks h hlacks)]
  rcases endsInName_or_dot h hup hlacks.none with ⟨l, last, hq⟩ | ⟨hends, l, hparts, hnames⟩
  · rw [names_ancestors hq.names_eq] at habove hmade
    rw [hq.routeTo_eq] at hlacks
    exact first_made_cons h hq hp hlacks hdir hsize habove hmade
  · have hfront : t.Lacks (t.origin p ++ names l) stand first more := by rwa [hnames]
    obtain ⟨e, hfirst, hiff⟩ :=
      createDirectory_of_lacks h hp hparts (no_ups_of_bare hup hparts) hfront
    rw [hiff.mpr ⟨hdir, hsize⟩] at hfirst
    obtain ⟨name, hroute⟩ := exists_last_name h hlacks
    rw [hroute] at hlacks
    obtain ⟨-, -, hmore⟩ | ⟨more', -, hlacks⟩ := hlacks.concat_cases
    · exact absurd hmore (hdot hends)
    · exact stays_cons hup habove hfirst (hmade more' hlacks)

/-- Making the directory of a path that ends in a dot succeeds only if something stands there. -/
theorem some_of_createDirectories_dot (h : t.WellFormed) (hup : ['.', '.'] ∉ p.parts)
    (hdot : EndsInDot p) (hok : (t.createDirectories p).2 = .ok ()) :
    (t.entry? (t.routeTo p)).isSome := by
  by_contra hnot
  have hnone : t.entry? (t.routeTo p) = none := by simpa using hnot
  obtain ⟨stand, first, more, hlacks⟩ := exists_lacks h hnone
  obtain ⟨l, hparts⟩ : ∃ l, p.bare.parts = l ++ [['.']] := List.getLast?_eq_some_iff.mp hdot
  obtain ⟨name, hroute⟩ := exists_last_name h hlacks
  have habove := builds_upTo h hup (Nat.sub_le p.steps.length 1)
  have hfirstOf := firstOfEach t p (p.upTo (p.steps.length - 1))
  rw [createDirectories_of_ne_nil (ne_nil_of_lacks h hlacks)] at hok
  generalize t.createEach (p :: p.upTo (p.steps.length - 1)) = result at hfirstOf hok
  cases hfirstOf with
  | is_made hmade =>
    obtain ⟨e, he⟩ := createDirectory_of_dot h hup hparts
    rw [he] at hmade
    cases hmade
  | is_refused _ _ =>
    rw [stands_of_check h hup hok] at hnone
    cases hnone
  | above_refused _ _ => cases hok
  | is_made_again _ hresult hagain =>
    rw [hresult] at habove
    obtain ⟨e, he⟩ := createDirectory_of_dot habove.wellFormed hup hparts
    rw [he] at hagain
    cases hagain
  | is_refused_again _ hresult _ =>
    rw [hresult] at habove
    have hstands := stands_of_check habove.wellFormed hup hok
    rw [habove.onlyMade.routeTo, hroute, habove.onlyMade.entry?_below, ← hroute, hnone] at hstands
    cases hstands

end

end Lexis.FileTree
