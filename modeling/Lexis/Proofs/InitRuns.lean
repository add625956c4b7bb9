-- What writing a configuration does to a tree: it makes the directory for the file and the missing
-- ones above it, writes the file, and touches nothing else. An error rarely leaves a trace.
import Lexis.Command.Init
import Lexis.Proofs.MadeDirectories

namespace Lexis

/-! ## What a run does to a tree -/

/-- Where the request leads: to the working directory, or where the names of its path say. -/
def InitRequest.route (t : FileTree) (request : InitRequest) : Route :=
  (request.path?.map t.routeTo).getD t.workingDirectory

/-- The directory at a path can only be made in part, or it has no room for the file. On the route
to it `stand` is the last directory that stands, `first` is made, and what comes behind gets stuck:
at the end, if the path ends in a dot and `first` is not the last name, at a name that is too long,
or at the file, the path of which is too long. -/
structure FileTree.Strains (t : FileTree) (p : Path) (route stand : Route) (first : Text)
    (more : Route) : Prop where
  no_nul : '\x00' ∉ p
  size_le : Text.byteSize p ≤ Path.maxSize
  lacks : t.Lacks route stand first more
  directory : t.entry? stand = some .directory
  name_size_le : first.byteSize ≤ Path.maxNameSize
  reached : FileTree.EndsInDot p → more ≠ []
  stuck : FileTree.EndsInDot p ∨ (∃ name ∈ more, Path.maxNameSize < name.byteSize) ∨
    Path.maxSize < Text.byteSize (p.join configFileName)

/-- The directories on the way stand, the file has the standard settings, and the rest is as it
was. -/
structure FileTree.Written (t after : FileTree) (route : Route) : Prop where
  workingDirectory : after.workingDirectory = t.workingDirectory
  file : after.entry? (route ++ [configFileName]) =
    some (.file (Utf8.encode Config.standard.render))
  directories : ∀ r, r <+: route → after.entry? r = some .directory ∧
    (t.entry? r = none ∨ t.entry? r = some .directory)
  others : ∀ r, ¬ r <+: route → r ≠ route ++ [configFileName] → after.entry? r = t.entry? r

/-- What comes of a request for the directory at a path, that leads along the route. -/
structure KeepsToItsFile (t : FileTree) (target : Path) (route : Route) (force : Bool)
    (after : FileTree) (result : Except Failure Path) : Prop where
  wellFormed : after.WellFormed
  written : ∀ p, result = .ok p → p = target.join configFileName ∧ t.Written after route
  failed : ∀ e, result = .error e → after = t ∨
    t.OnlyMade after route ∧ ∃ stand first more, t.Strains target route stand first more
  strained : ∀ stand first more, t.Strains target route stand first more →
    (∃ e, result = .error e) ∧ after.entry? (stand ++ [first]) = some .directory
  present : (t.entry? (route ++ [configFileName])).isSome → force = false → after = t ∧
    ∃ e, result = .error e ∧ (Text.byteSize (target.join configFileName) ≤ Path.maxSize →
      e = .fileOperation ("Configuration file already exists (use --force to overwrite): ".toList ++
        target.join configFileName))

namespace InitRequest

open FileTree
open Lexis.Path (names)

theorem isName_configFileName : IsName configFileName :=
  ⟨by decide, by decide, by decide, by decide⟩

/-! ## Writing the file -/

section

variable {t : FileTree} {target : Path}

/-- The path of the file is the path of its directory and the name, but for a slash at the end. -/
theorem parts_file (target : Path) : ∃ l,
    (target.join configFileName).parts = l ++ [configFileName] ∧
      (∀ part ∈ l, part ∈ target.parts) ∧ names l = names target.parts := by
  obtain ⟨l, k, hparts, hjoin⟩ := Path.parts_join_name target isName_configFileName.no_slash
  refine ⟨l, hjoin, fun part hpart => ?_, ?_⟩
  · rw [hparts]
    exact List.mem_append_left _ hpart
  · rw [hparts, Path.names_append, Path.names_replicate_nil, List.append_nil]

theorem origin_file (t : FileTree) (target : Path) :
    t.origin (target.join configFileName) = t.origin target :=
  origin_of_isAbsolute (Path.isAbsolute_join target isName_configFileName.no_slash) t

/-- What keeps the path of the file from naming anything is its size. -/
theorem long_of_checkPath_file {e : FileError} (hp : target = [] ∨ checkPath target = .ok ())
    (he : checkPath (target.join configFileName) = .error e) :
    Path.maxSize < Text.byteSize (target.join configFileName) := by
  obtain ⟨l, hparts, hl, -⟩ := parts_file target
  by_contra hsize
  have hnul : '\x00' ∉ target := by
    rcases hp with rfl | hp
    · exact List.not_mem_nil
    · exact (checkPath_eq_ok.mp hp).1
  have hok : checkPath (target.join configFileName) = .ok () := by
    refine checkPath_eq_ok.mpr ⟨fun hmem => ?_, fun hempty => ?_, Nat.not_lt.mp hsize⟩
    · rw [← Path.join_parts (target.join configFileName), hparts] at hmem
      rcases Path.mem_join hmem with hslash | ⟨part, hpart, hmem⟩
      · cases hslash
      · rcases List.mem_append.mp hpart with hpart | hpart
        · exact hnul (Path.mem_of_mem_parts (hl part hpart) hmem)
        · rw [List.mem_singleton.mp hpart] at hmem
          exact isName_configFileName.no_nul hmem
    · rw [hempty] at hparts
      exact absurd (List.append_inj' (show [] ++ [[]] = l ++ _ from hparts) rfl).2 (by decide)
  rw [hok] at he
  cases he

/-- The directory above the file stands if the directory for the file does. -/
theorem createDirectories_parent (h : t.WellFormed) (hup : ['.', '.'] ∉ target.parts)
    (hp : target = [] ∨ checkPath target = .ok ())
    (hdir : t.entry? (t.routeTo target) = some .directory) :
    t.createDirectories ((target.join configFileName).parent?.getD []) = (t, .ok ()) := by
  have hsteps : ∀ x ∈ target.steps, x ∈ target.steps := fun _ hx => hx
  have hroute : t.routeTo (Path.ofSteps target.isAbsolute target.steps) = t.routeTo target := by
    rw [routeTo_ofSteps t hsteps, Path.names_steps, routeTo]
  rw [Path.parent?_join target isName_configFileName.no_slash (by decide) (by decide),
    Option.getD_some]
  refine createDirectories_of_directory h (no_ups_ofSteps hup hsteps) ?_ (hroute.symm ▸ hdir)
  rcases hp with rfl | hp
  · exact .inl rfl
  · exact checkPath_ofSteps hp (List.Sublist.refl _)

theorem save_of_ok {written : FileTree} {c : Config} {p : Path}
    (hmade : t.createDirectories (p.parent?.getD []) = (t, .ok ()))
    (hwrite : t.writeFile p (Utf8.encode c.render) = .ok written) :
    save t c p = (written, .ok ()) := by
  unfold save
  simp only [hmade, hwrite]

theorem save_of_error {e : FileError} {c : Config} {p : Path}
    (hmade : t.createDirectories (p.parent?.getD []) = (t, .ok ()))
    (hwrite : t.writeFile p (Utf8.encode c.render) = .error e) :
    save t c p = (t, .error (.files e)) := by
  unfold save
  simp only [hmade, hwrite]

/-- What comes of filling a directory that stands. -/
structure Fills (t : FileTree) (target : Path) (force : Bool) (after : FileTree)
    (result : Except Failure Path) : Prop where
  wellFormed : after.WellFormed
  written : ∀ p, result = .ok p → p = target.join configFileName ∧
    after = t.put (t.routeTo target ++ [configFileName])
      (.file (Utf8.encode Config.standard.render)) ∧
    t.entry? (t.routeTo target ++ [configFileName]) ≠ some .directory ∧
    Text.byteSize (target.join configFileName) ≤ Path.maxSize ∧
    (force = false → t.entry? (t.routeTo target ++ [configFileName]) = none)
  failed : ∀ e, result = .error e → after = t ∧
    ((t.entry? (t.routeTo target ++ [configFileName])).isSome ∨
      Path.maxSize < Text.byteSize (target.join configFileName)) ∧
    (force = false → Text.byteSize (target.join configFileName) ≤ Path.maxSize →
      e = .fileOperation ("Configuration file already exists (use --force to overwrite): ".toList ++
        target.join configFileName))

theorem fill_of_long (h : t.WellFormed) (hup : ['.', '.'] ∉ target.parts)
    (hp : target = [] ∨ checkPath target = .ok ())
    (hdir : t.entry? (t.routeTo target) = some .directory) {e : FileError}
    (he : checkPath (target.join configFileName) = .error e) (force : Bool) :
    fill t force target = (t, .error (.files e)) := by
  have hexists : t.pathExists (target.join configFileName) = false := by
    rw [pathExists, lookup?_of_checkPath he]
    rfl
  have hsave := save_of_error (createDirectories_parent h hup hp hdir)
    (writeFile_of_checkPath he (Utf8.encode Config.standard.render))
  simp [fill, hexists, hsave]

theorem fill_eq (h : t.WellFormed) (hup : ['.', '.'] ∉ target.parts)
    (hp : target = [] ∨ checkPath target = .ok ())
    (hdir : t.entry? (t.routeTo target) = some .directory)
    (hfile : checkPath (target.join configFileName) = .ok ()) (force : Bool) :
    let file := t.routeTo target ++ [configFileName]
    fill t force target =
      if (t.entry? file).isSome && !force then
        (t, .error (.fileOperation
          ("Configuration file already exists (use --force to overwrite): ".toList ++
            target.join configFileName)))
      else if t.entry? file = some .directory then (t, .error (.files .isDirectory))
      else (t.put file (.file (Utf8.encode Config.standard.render)),
        .ok (target.join configFileName)) := by
  intro file
  obtain ⟨l, hparts, hl, hnames⟩ := parts_file target
  have hup' : ['.', '.'] ∉ l := fun hmem => hup (hl _ hmem)
  have hroute : t.origin (target.join configFileName) ++ names l = t.routeTo target := by
    rw [origin_file, hnames, routeTo]
  have hdir' := hroute.symm ▸ hdir
  have hlookup := lookup?_of_directory h hfile hparts hup' isName_configFileName hdir'
  have hwrite := writeFile_of_directory h hfile hparts hup' isName_configFileName hdir'
    (Utf8.encode Config.standard.render)
  rw [hroute] at hlookup hwrite
  have hmade := createDirectories_parent h hup hp hdir
  rw [fill, pathExists, hlookup]
  by_cases hdirectory : t.entry? (t.routeTo target ++ [configFileName]) = some .directory
  · rw [if_pos hdirectory] at hwrite
    simp only [file, hdirectory, if_true, save_of_error hmade hwrite]
  · rw [if_neg hdirectory] at hwrite
    simp only [file, if_neg hdirectory, save_of_ok hmade hwrite]

theorem fills (h : t.WellFormed) (hup : ['.', '.'] ∉ target.parts)
    (hp : target = [] ∨ checkPath target = .ok ())
    (hdir : t.entry? (t.routeTo target) = some .directory) (force : Bool) :
    Fills t target force (fill t force target).1 (fill t force target).2 := by
  cases hfile : checkPath (target.join configFileName) with
  | error e =>
    have hlong := long_of_checkPath_file hp hfile
    rw [fill_of_long h hup hp hdir hfile]
    refine ⟨h, fun p hok => (nomatch hok), fun e' _ => ⟨rfl, .inr hlong, fun _ hsize => ?_⟩⟩
    exact absurd hlong (Nat.not_lt.mpr hsize)
  | ok =>
    rw [fill_eq h hup hp hdir hfile]
    split_ifs with hpresent hdirectory
    · obtain ⟨hsome, -⟩ := Bool.and_eq_true_iff.mp hpresent
      exact ⟨h, fun p hok => (nomatch hok), fun e he =>
        ⟨rfl, .inl hsome, fun _ _ => (Except.error.inj he).symm⟩⟩
    · have hforce : force = true := by simpa [hdirectory] using hpresent
      exact ⟨h, fun p hok => (nomatch hok), fun e he =>
        ⟨rfl, .inl (by rw [hdirectory]; rfl), fun hnot => by rw [hforce] at hnot; cases hnot⟩⟩
    · refine ⟨h.put (fun _ => rfl) isName_configFileName hdir hdirectory,
        fun p hok => ⟨(Except.ok.inj hok).symm, rfl, hdirectory, (checkPath_eq_ok.mp hfile).2.2,
          fun hforce => ?_⟩,
        fun e he => (nomatch he)⟩
      simpa [hforce] using hpresent

/-! ## Making the directory -/

theorem directory_of_file (hsome : (t.entry? (t.routeTo target ++ [configFileName])).isSome) :
    t.entry? (t.routeTo target) = some .directory := by
  by_contra hnot
  rw [entry?_append_of_ne hnot (List.cons_ne_nil _ _)] at hsome
  cases hsome

theorem written_of_put {made : FileTree} (hmade : t.OnlyMade made (t.routeTo target))
    (hdir : made.entry? (t.routeTo target) = some .directory)
    (hfree : made.entry? (t.routeTo target ++ [configFileName]) ≠ some .directory) :
    t.Written (made.put (t.routeTo target ++ [configFileName])
      (.file (Utf8.encode Config.standard.render))) (t.routeTo target) := by
  have hleaf : ∀ name, (Node.file (Utf8.encode Config.standard.render)).child? name = none :=
    fun _ => rfl
  have hentry := entry?_put hleaf hdir hfree
  refine ⟨hmade.workingDirectory, (hentry _).trans (if_pos rfl), fun r hr => ?_, fun r hr hne => ?_⟩
  · have hne : r ≠ t.routeTo target ++ [configFileName] := by
      rintro rfl
      have := hr.length_le
      simp at this
    have hdir' := directory_above hr hdir
    refine ⟨(hentry r).trans ((if_neg hne).trans hdir'), ?_⟩
    rcases hmade.entry r with heq | ⟨-, hnone, -⟩
    · exact .inr (heq.symm.trans hdir')
    · exact .inl hnone
  · rw [hentry, if_neg hne]
    exact (hmade.entry r).resolve_right fun hadded => hr hadded.1

/-- A directory that is made and has no room for the file is one that strains. -/
theorem strains_of_long_path {made : FileTree} (ht : t.WellFormed)
    (hmade : t.OnlyMade made (t.routeTo target)) (h : made.WellFormed)
    (hp : target = [] ∨ checkPath target = .ok ())
    (hdir : made.entry? (t.routeTo target) = some .directory)
    (hdot : EndsInDot target → (t.entry? (t.routeTo target)).isSome)
    (hnone : t.entry? (t.routeTo target) = none)
    (hlong : Path.maxSize < Text.byteSize (target.join configFileName)) :
    ∃ stand first more, t.Strains target (t.routeTo target) stand first more := by
  obtain ⟨stand, first, more, hlacks⟩ := exists_lacks ht hnone
  obtain ⟨hnul, -, hsize⟩ := checkPath_eq_ok.mp (hp.resolve_left (ne_nil_of_lacks ht hlacks))
  have hstand : made.entry? stand = some .directory :=
    directory_above (by rw [hlacks.route_eq]; exact List.prefix_append _ _) hdir
  have hname : IsName first := h.names _ (by rw [hdir]; rfl) first (by rw [hlacks.route_eq]; simp)
  refine ⟨stand, first, more, hnul, hsize, hlacks, ?_, hname.size_le, fun hends => ?_,
    .inr (.inr hlong)⟩
  · rcases hmade.entry stand with heq | ⟨-, hfree, -⟩
    · rw [← heq, hstand]
    · have hstands := hlacks.stands
      rw [hfree] at hstands
      cases hstands
  · have hsome := hdot hends
    rw [hnone] at hsome
    cases hsome

/-- Filling the directory, once it stands, keeps to the file. -/
theorem keeps_of_fill {made : FileTree} (ht : t.WellFormed)
    (hmade : t.OnlyMade made (t.routeTo target)) (h : made.WellFormed)
    (hup : ['.', '.'] ∉ target.parts) (hp : target = [] ∨ checkPath target = .ok ())
    (hdir : made.entry? (t.routeTo target) = some .directory)
    (hsame : (t.entry? (t.routeTo target)).isSome → made = t)
    (hdot : EndsInDot target → (t.entry? (t.routeTo target)).isSome) (force : Bool) :
    KeepsToItsFile t target (t.routeTo target) force (fill made force target).1
      (fill made force target).2 := by
  have hfills := fills h hup hp (hmade.routeTo target ▸ hdir) force
  generalize (fill made force target).1 = after at hfills
  generalize (fill made force target).2 = result at hfills
  obtain ⟨hwellFormed, hwritten, hfailed⟩ := hfills
  rw [hmade.routeTo] at hwritten hfailed
  refine
    { wellFormed := hwellFormed
      written := fun p hok => ?_
      failed := fun e he => ?_
      strained := fun stand first more hstrains => ?_
      present := fun hsome hforce => ?_ }
  · obtain ⟨hpath, rfl, hfree, -⟩ := hwritten p hok
    exact ⟨hpath, written_of_put hmade hdir hfree⟩
  · obtain ⟨rfl, hcause, -⟩ := hfailed e he
    by_cases hroute : (t.entry? (t.routeTo target)).isSome
    · exact .inl (hsame hroute)
    · have hnone : t.entry? (t.routeTo target) = none := by simpa using hroute
      rw [hmade.entry?_below, entry?_append_of_none hnone] at hcause
      exact .inr ⟨hmade, strains_of_long_path ht hmade h hp hdir hdot hnone
        (hcause.resolve_left (by simp))⟩
  · have hroute := hstrains.lacks.route_eq
    have hnone := hstrains.lacks.none
    have hlong : Path.maxSize < Text.byteSize (target.join configFileName) := by
      rcases hstrains.stuck with hends | ⟨name, hname, hlong⟩ | hlong
      · have hsome := hdot hends
        rw [hnone] at hsome
        cases hsome
      · have hshort := (h.names _ (by rw [hdir]; rfl) name (by rw [hroute]; simp [hname])).size_le
        exact absurd hlong (Nat.not_lt.mpr hshort)
      · exact hlong
    cases result with
    | ok p => exact absurd hlong (Nat.not_lt.mpr (hwritten p rfl).2.2.2.1)
    | error e =>
      obtain ⟨rfl, -⟩ := hfailed e rfl
      exact ⟨⟨e, rfl⟩, directory_above ⟨more, by rw [hroute]; simp⟩ hdir⟩
  · obtain rfl := hsame (by rw [directory_of_file hsome]; rfl)
    cases result with
    | ok p =>
      rw [(hwritten p rfl).2.2.2.2 hforce] at hsome
      cases hsome
    | error e =>
      obtain ⟨hafter, -, hcause⟩ := hfailed e rfl
      exact ⟨hafter, e, rfl, hcause hforce⟩

/-- A directory that stands and is not found has a path that is too long. -/
theorem long_of_not_found (h : t.WellFormed) (hup : ['.', '.'] ∉ target.parts) (hne : target ≠ [])
    (hdir : t.entry? (t.routeTo target) = some .directory)
    (hexists : t.pathExists target = false) : Path.maxSize < Text.byteSize target := by
  by_contra hsize
  have hp : checkPath target = .ok () :=
    checkPath_eq_ok.mpr ⟨no_nul_of_stands h (by rw [hdir]; rfl), hne, Nat.not_lt.mp hsize⟩
  have hdirectory := (isDirectory_iff h hup).mpr ⟨hp, hdir⟩
  rw [isDirectory, beq_iff_eq] at hdirectory
  rw [pathExists, hdirectory] at hexists
  cases hexists

/-- Directories that can only be made in part and leave a trace are made up to a dot at the end or
to a name that is too long. -/
theorem strains_of_createDirectories {made : FileTree} {e : FileError} (h : t.WellFormed)
    (hup : ['.', '.'] ∉ target.parts) (hnone : t.entry? (t.routeTo target) = none)
    (hmade : t.createDirectories target = (made, .error e)) :
    made = t ∨ ∃ stand first more, t.Strains target (t.routeTo target) stand first more := by
  obtain ⟨stand, first, more, hlacks⟩ := exists_lacks h hnone
  have hstuck := createDirectories_of_stuck h hup hlacks
  have hkept := keptOnError_createDirectories h hup hnone
  rw [hmade] at hstuck hkept
  by_contra! hcontra
  obtain ⟨hne, hnot⟩ := hcontra
  obtain ⟨hdir, hsize, hreached⟩ : t.entry? stand = some .directory ∧
      first.byteSize ≤ Path.maxNameSize ∧ (EndsInDot target → more ≠ []) := by
    by_contra hfree
    refine hne (hstuck fun hdir hsize => ?_)
    by_contra hends
    exact hfree ⟨hdir, hsize, fun hdot hmore => hends ⟨hdot, hmore⟩⟩
  obtain ⟨hnul, -, hpath⟩ :
      '\x00' ∉ target ∧ target ≠ [] ∧ Text.byteSize target ≤ Path.maxSize := by
    rw [← checkPath_eq_ok]
    cases hp : checkPath target with
    | ok => rfl
    | error e' =>
      rw [createDirectories_of_checkPath (ne_nil_of_lacks h hlacks) hp] at hmade
      exact absurd (Prod.mk.inj hmade).1.symm hne
  refine hnot stand first more ⟨hnul, hpath, hlacks, hdir, hsize, hreached, ?_⟩
  by_contra! hfree
  obtain ⟨hdot, hshort, -⟩ := hfree
  refine hne (hkept hdot (fun name hname => ?_) e rfl)
  have hmem : name ∈ t.routeTo target := List.mem_append_right _ hname
  rw [hlacks.route_eq] at hmem
  rcases List.mem_append.mp hmem with hmem | hmem
  · exact (h.names stand hlacks.stands name hmem).size_le
  · rcases List.mem_cons.mp hmem with rfl | hmem
    · exact hsize
    · exact hshort name hmem

theorem keeps_of_failed {made : FileTree} {e : FileError} (h : t.WellFormed)
    (hup : ['.', '.'] ∉ target.parts) (hexists : t.pathExists target = false)
    (hmade : t.createDirectories target = (made, .error e)) (force : Bool) :
    KeepsToItsFile t target (t.routeTo target) force made (.error (.files e)) := by
  have hbuilds := builds_createDirectories h hup
  have hsome := createDirectories_of_some h hup
  rw [hmade] at hbuilds hsome
  refine
    { wellFormed := hbuilds.wellFormed
      written := fun p hok => (nomatch hok)
      failed := fun e' _ => ?_
      strained := fun stand first more hstrains => ⟨⟨_, rfl⟩, ?_⟩
      present := fun hfile _ => ?_ }
  · by_cases hroute : (t.entry? (t.routeTo target)).isSome
    · exact .inl (hsome hroute)
    · exact (strains_of_createDirectories h hup (by simpa using hroute) hmade).imp_right
        fun hstrains => ⟨hbuilds.onlyMade, hstrains⟩
  · have hp := checkPath_eq_ok.mpr
      ⟨hstrains.no_nul, ne_nil_of_lacks h hstrains.lacks, hstrains.size_le⟩
    have hfirst := first_made h hup hp hstrains.lacks hstrains.directory hstrains.name_size_le
      hstrains.reached
    rwa [hmade] at hfirst
  · have hdir := directory_of_file hfile
    have hne : target ≠ [] := by
      rintro rfl
      cases hmade
    refine ⟨hsome (by rw [hdir]; rfl), _, rfl, fun hsize => ?_⟩
    have hlong := long_of_not_found h hup hne hdir hexists
    have := Path.byteSize_le_join target configFileName
    omega

theorem keeps_of_perform (h : t.WellFormed) (hup : ['.', '.'] ∉ target.parts) (force : Bool) :
    KeepsToItsFile t target (t.routeTo target) force (perform t force target).1
      (perform t force target).2 := by
  rw [perform]
  cases hexists : t.pathExists target with
  | false =>
    rcases hmade : t.createDirectories target with ⟨made, _ | _⟩
    · exact keeps_of_failed h hup hexists hmade force
    · have hbuilds := builds_createDirectories h hup
      have hsome := createDirectories_of_some h hup
      have hp := checkPath_of_createDirectories (t := t) (p := target) (by rw [hmade])
      have hdot := fun hends => some_of_createDirectories_dot h hup hends (by rw [hmade])
      rw [hmade] at hbuilds hsome
      exact keeps_of_fill h hbuilds.onlyMade hbuilds.wellFormed hup hp (hbuilds.stands rfl) hsome
        hdot force
  | true =>
    have hstands : t.entry? (t.routeTo target) ≠ none := fun hnone => by
      rw [pathExists, lookup?_of_none h hup hnone] at hexists
      cases hexists
    cases hdirectory : t.isDirectory target with
    | false =>
      refine
        { wellFormed := h
          written := fun p hok => (nomatch hok)
          failed := fun _ _ => .inl rfl
          strained := fun _ _ _ hstrains => absurd hstrains.lacks.none hstands
          present := fun hfile _ => ?_ }
      have hdir := directory_of_file hfile
      cases hp : checkPath target with
      | error e =>
        rw [pathExists, lookup?_of_checkPath hp] at hexists
        cases hexists
      | ok =>
        rw [(isDirectory_iff h hup).mpr ⟨hp, hdir⟩] at hdirectory
        cases hdirectory
    | true =>
      obtain ⟨hp, hdir⟩ := (isDirectory_iff h hup).mp hdirectory
      exact keeps_of_fill h (.refl t _) h hup (.inr hp) hdir (fun _ => rfl)
        (fun _ => by rw [hdir]; rfl) force

end

/-! ## The law of a request -/

theorem routeTo_target {t : FileTree} (h : t.WellFormed) (request : InitRequest) :
    t.routeTo (request.target t) = request.route t := by
  rw [target, route]
  cases request.path? with
  | some p => rfl
  | none =>
    have hnames : ∀ name ∈ t.workingDirectory, IsName name := h.names _ (by rw [h.here]; rfl)
    have hkept : names t.workingDirectory = t.workingDirectory :=
      List.filter_eq_self.mpr fun name hname => by
        simpa using (isFixedPart_eq_false.mp (hnames name hname).not_fixed).1
    rw [Option.getD_none, currentPath, routeTo,
      Path.names_parts_ofSteps fun name hname => (hnames name hname).no_slash, hkept]
    rfl

theorem no_ups_target {t : FileTree} (h : t.WellFormed) {request : InitRequest}
    (hup : ∀ p ∈ request.path?, ['.', '.'] ∉ p.parts) : ['.', '.'] ∉ (request.target t).parts := by
  rw [target]
  cases hpath : request.path? with
  | some p => exact hup p hpath
  | none =>
    have hnames : ∀ name ∈ t.workingDirectory, IsName name := h.names _ (by rw [h.here]; rfl)
    intro hmem
    rcases Path.mem_parts_ofSteps (fun name hname => (hnames name hname).no_slash) hmem with
      hnil | hmem
    · cases hnil
    · exact (isFixedPart_eq_false.mp (hnames _ hmem).not_fixed).2 rfl

end InitRequest

/-- In every tree, a request without double dots in its path keeps to its file. It fails without a
trace, unless making the missing directory gets stuck behind the first one that is made. Then it
always fails, and leaves that one behind. -/
theorem init_keeps_to_its_file {t : FileTree} (h : t.WellFormed) {request : InitRequest}
    (hup : ∀ p ∈ request.path?, ['.', '.'] ∉ p.parts) :
    KeepsToItsFile t (request.target t) (request.route t) request.force (init t request).tree
      (init t request).result := by
  rw [← InitRequest.routeTo_target h]
  exact InitRequest.keeps_of_perform h (InitRequest.no_ups_target h hup) request.force

theorem init_makes_two_directories_and_the_file :
    let t : FileTree := ⟨.directory [], []⟩
    let request : InitRequest := ⟨some "new/project".toList, false⟩
    t.WellFormed ∧ (∀ p ∈ request.path?, ['.', '.'] ∉ p.parts) ∧
      (init t request).result = .ok "new/project/impt.toml".toList ∧
      KeepsToItsFile t (request.target t) (request.route t) request.force (init t request).tree
        (init t request).result := by
  intro t request
  have h : t.WellFormed := by
    refine ⟨fun r hr => ?_, rfl⟩
    cases r with
    | nil => exact List.forall_mem_nil _
    | cons name r => cases hr
  have hup : ∀ p ∈ request.path?, ['.', '.'] ∉ p.parts := by
    rintro p ⟨⟩
    decide
  exact ⟨h, hup, by decide +kernel, init_keeps_to_its_file h hup⟩

/-- The exceptions are there. A request fails and leaves a directory behind, by a dot at the end, a
long name or a long path, and a file that is present is not reported where its path is too long. -/
theorem strained_paths_are_exceptions :
    let t : FileTree := ⟨.directory [("work".toList, .directory [])], ["work".toList]⟩
    let filled : FileTree := ⟨.directory [("work".toList,
      .directory [(configFileName, .file [])])], ["work".toList]⟩
    let dots : Path := (List.replicate 2044 "./".toList).flatten
    let run (t : FileTree) (p : Path) := init t ⟨some p, false⟩
    let dotted := run t "a/new/.".toList
    let named := run t ("a/".toList ++ List.replicate 256 'n')
    let padded := run t (dots ++ ['a'])
    let hidden := run filled (dots ++ ['.'])
    let made : Route := ["work".toList, ['a']]
    t.entry? made = none ∧
      (dotted.result = .error (.files .notFound) ∧ dotted.tree.entry? made = some .directory) ∧
      (named.result = .error (.files .nameTooLong) ∧ named.tree.entry? made = some .directory) ∧
      (padded.result = .error (.files .nameTooLong) ∧ padded.tree.entry? made = some .directory) ∧
      filled.entry? ["work".toList, configFileName] = some (.file []) ∧
        hidden.result = .error (.files .nameTooLong) := by
  decide +kernel

end Lexis
