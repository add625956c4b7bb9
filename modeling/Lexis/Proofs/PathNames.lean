-- What a path says by its letters alone: its parts, the names among them, and the paths above it.
-- Slashes that are repeated or at the end, and single dots, add no name.
import Lexis.Files.Path
import Lexis.Proofs.Layout
import Mathlib.Algebra.Order.BigOperators.Group.List
import Mathlib.Algebra.Order.Group.Nat
import Mathlib.Algebra.Ring.Nat
import Mathlib.Data.List.TakeWhile

namespace Lexis.Path

/-! ## Parts -/

theorem parts_eq_splitOn (p : Path) : parts p = p.splitOn '/' := by
  induction p with
  | nil => rfl
  | cons c p ih =>
    rw [parts, ih, List.splitOn, List.splitOn, List.splitOnP_cons_eq_if_modifyHead]
    by_cases hc : c = '/'
    · simp [hc]
    · simp [hc]

theorem parts_append (p q : Path) : parts (p ++ '/' :: q) = parts p ++ parts q := by
  simp only [parts_eq_splitOn]
  exact List.splitOnP_append_cons p q rfl

theorem parts_slash (p : Path) : parts ('/' :: p) = [] :: parts p := parts_append [] p

theorem parts_of_no_slash {s : Text} (h : '/' ∉ s) : parts s = [s] := by
  rw [parts_eq_splitOn]
  exact List.splitOnP_eq_singleton fun _ hc => beq_eq_false_iff_ne.mpr fun heq => h (heq ▸ hc)

theorem parts_join {l : List Text} (hne : l ≠ []) (h : ∀ x ∈ l, '/' ∉ x) :
    parts (Text.join ['/'] l) = l := by
  rw [parts_eq_splitOn]
  exact List.splitOn_intercalate '/' h hne

theorem no_slash_of_mem_parts {p : Path} {part : Text} (h : part ∈ parts p) : '/' ∉ part := by
  induction p generalizing part with
  | nil =>
    rw [List.mem_singleton.mp h]
    exact List.not_mem_nil
  | cons c p ih =>
    obtain ⟨first, rest, hp⟩ := List.exists_cons_of_ne_nil (parts_ne_nil p)
    rw [hp] at ih
    rw [parts, hp] at h
    split at h
    · rcases List.mem_cons.mp h with rfl | h
      · exact List.not_mem_nil
      · exact ih h
    · rename_i hc
      rcases List.mem_cons.mp h with rfl | h
      · exact List.not_mem_cons_of_ne_of_not_mem (Ne.symm hc) (ih List.mem_cons_self)
      · exact ih (List.mem_cons_of_mem _ h)

theorem mem_of_mem_parts {p : Path} {part : Text} (h : part ∈ parts p) {c : Char} (hc : c ∈ part) :
    c ∈ p := by
  induction p generalizing part with
  | nil => simp_all [parts]
  | cons d p ih =>
    obtain ⟨first, rest, hp⟩ := List.exists_cons_of_ne_nil (parts_ne_nil p)
    rw [hp] at ih
    rw [parts, hp] at h
    split at h
    · rcases List.mem_cons.mp h with rfl | h
      · cases hc
      · exact List.mem_cons_of_mem _ (ih h hc)
    · rcases List.mem_cons.mp h with rfl | h
      · rcases List.mem_cons.mp hc with rfl | hc
        · exact List.mem_cons_self
        · exact List.mem_cons_of_mem _ (ih List.mem_cons_self hc)
      · exact List.mem_cons_of_mem _ (ih (List.mem_cons_of_mem _ h) hc)

theorem parts_slashes (k : Nat) : parts (List.replicate k '/') = List.replicate (k + 1) [] := by
  induction k with
  | zero => rfl
  | succ k ih => rw [List.replicate_succ, parts_slash, ih, List.replicate_succ (n := k + 1)]

theorem parts_append_slashes (p : Path) (k : Nat) :
    parts (p ++ List.replicate k '/') = parts p ++ List.replicate k [] := by
  cases k with
  | zero => simp
  | succ k => rw [List.replicate_succ, parts_append, parts_slashes]

theorem isAbsolute_of_parts {p : Path} {first : Text} {rest : List Text}
    (h : parts p = first :: rest) (hne : first ≠ []) : p.isAbsolute = false := by
  cases p with
  | nil => rfl
  | cons c p =>
    by_cases hc : c = '/'
    · subst hc
      rw [parts_slash] at h
      exact absurd (List.cons.inj h).1.symm hne
    · simp [isAbsolute, hc]

theorem isAbsolute_append {p : Path} (h : p ≠ []) (q : Path) :
    (p ++ q).isAbsolute = p.isAbsolute := by
  obtain ⟨c, p, rfl⟩ := List.exists_cons_of_ne_nil h
  rfl

/-! ## Names -/

/-- The parts that name something. A part that is empty or a single dot does not. -/
def names (parts : List Text) : List Text :=
  parts.filter fun part => !(part.isEmpty || part == ['.'])

theorem mem_names {l : List Text} {part : Text} :
    part ∈ names l ↔ part ∈ l ∧ part ≠ [] ∧ part ≠ ['.'] := by
  simp [names]

@[simp] theorem names_nil : names [] = [] := rfl

@[simp] theorem names_append (l l' : List Text) : names (l ++ l') = names l ++ names l' :=
  List.filter_append ..

theorem names_prefix {l l' : List Text} (h : l <+: l') : names l <+: names l' := h.filter _

theorem names_cons_skip {part : Text} (h : part = [] ∨ part = ['.']) (l : List Text) :
    names (part :: l) = names l := by
  rcases h with rfl | rfl <;> rfl

theorem names_cons {part : Text} (h : ¬ (part = [] ∨ part = ['.'])) (l : List Text) :
    names (part :: l) = part :: names l := by
  have hkeep : (!(part.isEmpty || part == ['.'])) = true := by simpa using h
  exact List.filter_cons_of_pos hkeep

@[simp] theorem names_names (l : List Text) : names (names l) = names l := by
  simp [names, List.filter_filter]

@[simp] theorem names_replicate_nil (k : Nat) : names (List.replicate k []) = [] := by
  induction k with
  | zero => rfl
  | succ k ih => rw [List.replicate_succ, names_cons_skip (.inl rfl), ih]

theorem steps_of_parts {p : Path} {first : Text} {rest : List Text}
    (h : p.parts = first :: rest) :
    p.steps = (if first.isEmpty then [] else [first]) ++ names rest := by
  rw [steps, h]
  rfl

/-- The steps of a path are its names, after a dot in front that starts a relative path. -/
theorem steps_eq (p : Path) : ∃ lead, (lead = [] ∨ lead = [['.']] ∧ p.isAbsolute = false) ∧
    p.steps = lead ++ names p.parts := by
  obtain ⟨first, rest, hp⟩ := List.exists_cons_of_ne_nil (parts_ne_nil p)
  rw [steps_of_parts hp, hp]
  by_cases hskip : first = [] ∨ first = ['.']
  · rw [names_cons_skip hskip]
    rcases hskip with rfl | rfl
    · exact ⟨[], .inl rfl, rfl⟩
    · exact ⟨[['.']], .inr ⟨rfl, isAbsolute_of_parts hp (by simp)⟩, rfl⟩
  · rw [names_cons hskip]
    have hne : first.isEmpty = false := by simpa using fun heq => hskip (.inl heq)
    exact ⟨[], .inl rfl, by simp [hne]⟩

theorem names_steps (p : Path) : names p.steps = names p.parts := by
  obtain ⟨lead, hlead, heq⟩ := steps_eq p
  rw [heq, names_append, names_names]
  rcases hlead with rfl | ⟨rfl, -⟩ <;> rfl

theorem steps_sublist (p : Path) : p.steps.Sublist p.parts := by
  obtain ⟨first, rest, hp⟩ := List.exists_cons_of_ne_nil (parts_ne_nil p)
  rw [steps_of_parts hp, hp]
  split
  · exact (List.filter_sublist).trans (List.sublist_cons_self _ _)
  · exact (List.filter_sublist).cons_cons first

theorem step_ne_nil {p : Path} {step : Text} (h : step ∈ p.steps) : step ≠ [] := by
  obtain ⟨lead, hlead, heq⟩ := steps_eq p
  rw [heq] at h
  rcases List.mem_append.mp h with h | h
  · rcases hlead with rfl | ⟨rfl, -⟩
    · cases h
    · rw [List.mem_singleton.mp h]
      exact List.cons_ne_nil _ _
  · exact (mem_names.mp h).2.1

theorem step_no_slash {p : Path} {step : Text} (h : step ∈ p.steps) : '/' ∉ step :=
  no_slash_of_mem_parts ((steps_sublist p).mem h)

/-! ## Paths made of steps -/

section

variable {absolute : Bool} {l : List Text}

theorem isAbsolute_ofSteps (hne : ∀ x ∈ l, x ≠ []) (h : ∀ x ∈ l, '/' ∉ x) :
    (ofSteps absolute l).isAbsolute = absolute := by
  cases absolute with
  | true => rfl
  | false =>
    rw [ofSteps, if_neg Bool.false_ne_true, List.nil_append]
    cases l with
    | nil => rfl
    | cons x l =>
      exact isAbsolute_of_parts (parts_join (List.cons_ne_nil x l) h) (hne x List.mem_cons_self)

theorem parts_ofSteps (hl : l ≠ []) (h : ∀ x ∈ l, '/' ∉ x) :
    parts (ofSteps absolute l) = (if absolute then [[]] else []) ++ l := by
  cases absolute with
  | true => exact (parts_slash _).trans (congrArg ([] :: ·) (parts_join hl h))
  | false => exact parts_join hl h

theorem names_parts_ofSteps (h : ∀ x ∈ l, '/' ∉ x) :
    names (parts (ofSteps absolute l)) = names l := by
  by_cases hl : l = []
  · subst hl
    cases absolute <;> rfl
  · rw [parts_ofSteps hl h, names_append]
    cases absolute <;> rfl

theorem mem_parts_ofSteps (h : ∀ x ∈ l, '/' ∉ x) {part : Text}
    (hpart : part ∈ parts (ofSteps absolute l)) : part = [] ∨ part ∈ l := by
  by_cases hl : l = []
  · subst hl
    cases absolute <;> simpa [ofSteps, Text.join, parts] using hpart
  · rw [parts_ofSteps hl h] at hpart
    refine (List.mem_append.mp hpart).imp_left fun hpart => ?_
    cases absolute
    · cases hpart
    · exact List.mem_singleton.mp hpart

theorem mem_join {c : Char} (h : c ∈ Text.join ['/'] l) : c = '/' ∨ ∃ x ∈ l, c ∈ x := by
  induction l with
  | nil => cases h
  | cons x l ih =>
    cases l with
    | nil => exact .inr ⟨x, List.mem_cons_self, by simpa [Text.join] using h⟩
    | cons y l =>
      rw [Text.join, List.intercalate_cons_cons, List.mem_append, List.mem_append,
        List.mem_singleton] at h
      rcases h with (h | h) | h
      · exact .inr ⟨x, List.mem_cons_self, h⟩
      · exact .inl h
      · rcases ih h with hslash | ⟨z, hz, hc⟩
        · exact .inl hslash
        · exact .inr ⟨z, List.mem_cons_of_mem x hz, hc⟩

theorem mem_ofSteps {c : Char} (h : c ∈ ofSteps absolute l) : c = '/' ∨ ∃ x ∈ l, c ∈ x := by
  rcases List.mem_append.mp h with h | h
  · cases absolute
    · cases h
    · exact .inl (List.mem_singleton.mp h)
  · exact mem_join h

end

/-! ## Sizes -/

theorem byteSize_join {l : List Text} (h : l ≠ []) :
    (Text.join ['/'] l).byteSize + 1 = (l.map fun x => x.byteSize + 1).sum := by
  induction l with
  | nil => exact absurd rfl h
  | cons x l ih =>
    cases l with
    | nil => simp [Text.join]
    | cons y l =>
      have := ih (List.cons_ne_nil y l)
      rw [List.map_cons, List.sum_cons, ← this, Text.join, List.intercalate_cons_cons]
      simp only [Text.byteSize_append, Text.byteSize_cons, Text.byteSize_nil, Text.join]
      have hslash : Char.utf8Size '/' = 1 := by decide
      omega

/-- Parts that are left out make a path shorter. -/
theorem byteSize_join_le {l l' : List Text} (h : l.Sublist l') :
    (Text.join ['/'] l).byteSize ≤ (Text.join ['/'] l').byteSize := by
  by_cases hl : l = []
  · subst hl
    exact Nat.zero_le _
  · have hl' : l' ≠ [] := fun heq => hl (List.sublist_nil.mp (heq ▸ h))
    have hsum := (h.map fun x => x.byteSize + 1).sum_le_sum fun _ _ => Nat.zero_le _
    rw [← byteSize_join hl, ← byteSize_join hl'] at hsum
    omega

theorem byteSize_ofSteps_le (p : Path) :
    (ofSteps p.isAbsolute p.steps).byteSize ≤ p.byteSize := by
  have hjoin := join_parts p
  cases p with
  | nil => exact Nat.le_refl _
  | cons c p =>
    by_cases hc : c = '/'
    · subst hc
      have hsteps : steps ('/' :: p) = names (parts p) := steps_of_parts (parts_slash p)
      have hsublist : (names (parts p)).Sublist (parts p) := List.filter_sublist
      have := byteSize_join_le hsublist
      rw [join_parts] at this
      rw [hsteps, show isAbsolute ('/' :: p) = true from rfl, ofSteps, if_pos rfl]
      simp only [Text.byteSize_append, Text.byteSize_cons, Text.byteSize_nil]
      omega
    · have hrelative : isAbsolute (c :: p) = false := by simp [isAbsolute, hc]
      rw [hrelative, ofSteps, if_neg Bool.false_ne_true, List.nil_append]
      conv_rhs => rw [← hjoin]
      exact byteSize_join_le (steps_sublist _)

theorem byteSize_ofSteps_mono {l l' : List Text} (h : l.Sublist l') (absolute : Bool) :
    (ofSteps absolute l).byteSize ≤ (ofSteps absolute l').byteSize := by
  rw [ofSteps, ofSteps, Text.byteSize_append, Text.byteSize_append]
  exact Nat.add_le_add_left (byteSize_join_le h) _

/-! ## The paths above -/

/-- A path without the slashes at its end, unless nothing else is in it. -/
def bare (p : Path) : Path := if p.dropLastSlashes.isEmpty then p else p.dropLastSlashes

theorem exists_slashes (p : Path) :
    ∃ k, p = p.dropLastSlashes ++ List.replicate k '/' := by
  have hslashes : ∀ c ∈ p.reverse.takeWhile (· == '/'), c = '/' := fun c hc => by
    simpa using List.mem_takeWhile_imp (p := (· == '/')) hc
  refine ⟨(p.reverse.takeWhile (· == '/')).length, ?_⟩
  calc p = (p.reverse.takeWhile (· == '/') ++ p.reverse.dropWhile (· == '/')).reverse := by
        rw [List.takeWhile_append_dropWhile, List.reverse_reverse]
    _ = p.dropLastSlashes ++ (p.reverse.takeWhile (· == '/')).reverse := List.reverse_append
    _ = p.dropLastSlashes ++ List.replicate _ '/' := by
        rw [List.eq_replicate_of_mem hslashes, List.reverse_replicate, List.length_replicate]

theorem exists_slashes_bare (p : Path) : ∃ k, p = p.bare ++ List.replicate k '/' := by
  rw [bare]
  split
  · exact ⟨0, (List.append_nil p).symm⟩
  · exact exists_slashes p

theorem parts_bare (p : Path) : ∃ k, p.parts = p.bare.parts ++ List.replicate k [] := by
  obtain ⟨k, hk⟩ := exists_slashes_bare p
  exact ⟨k, (congrArg parts hk).trans (parts_append_slashes _ k)⟩

theorem names_bare (p : Path) : names p.bare.parts = names p.parts := by
  obtain ⟨k, hk⟩ := parts_bare p
  rw [hk, names_append, names_replicate_nil, List.append_nil]

theorem mem_parts_of_bare {p : Path} {part : Text} (h : part ∈ p.bare.parts) : part ∈ p.parts := by
  obtain ⟨k, hk⟩ := parts_bare p
  rw [hk]
  exact List.mem_append_left _ h

theorem bare_ne_nil {p : Path} (h : p ≠ []) : p.bare ≠ [] := by
  rw [bare]
  split
  · exact h
  · rename_i hne
    exact fun heq => hne (by rw [heq]; rfl)

theorem isAbsolute_bare (p : Path) : p.bare.isAbsolute = p.isAbsolute := by
  by_cases hp : p = []
  · subst hp
    rfl
  · obtain ⟨k, hk⟩ := exists_slashes_bare p
    conv_rhs => rw [hk, isAbsolute_append (bare_ne_nil hp)]

/-- A path whose last part is not empty has no slash at its end. -/
theorem bare_eq_self {p : Path} {l : List Text} {last : Text} (h : p.parts = l ++ [last])
    (hne : last ≠ []) : p.bare = p := by
  obtain ⟨k, hk⟩ := exists_slashes_bare p
  cases k with
  | zero => rw [List.replicate_zero, List.append_nil] at hk; exact hk.symm
  | succ k =>
    have hparts := parts_append_slashes p.bare (k + 1)
    rw [← hk, h, List.replicate_succ', ← List.append_assoc] at hparts
    exact absurd (List.append_inj' hparts rfl).2 (by simpa using hne)

theorem last_part_concat (p : Path) {c : Char} (hc : c ≠ '/') :
    ∃ l part, parts (p ++ [c]) = l ++ [part ++ [c]] := by
  induction p with
  | nil => exact ⟨[], [], parts_of_no_slash (by simpa using Ne.symm hc)⟩
  | cons d p ih =>
    obtain ⟨l, part, hp⟩ := ih
    rw [List.cons_append, parts, hp]
    split
    · exact ⟨[] :: l, part, rfl⟩
    · cases l with
      | nil => exact ⟨[], d :: part, rfl⟩
      | cons first l => exact ⟨(d :: first) :: l, part, rfl⟩

/-- Only a path of slashes has an empty last part when the slashes at its end are gone. -/
theorem names_eq_nil_of_bare {p : Path} {l : List Text} (h : p.bare.parts = l ++ [[]]) :
    names p.parts = [] := by
  rcases List.eq_nil_or_concat p.dropLastSlashes with hempty | ⟨q, c, hq⟩
  · obtain ⟨k, hk⟩ := exists_slashes p
    rw [hempty, List.nil_append] at hk
    rw [hk, parts_slashes, names_replicate_nil]
  · have hc : c ≠ '/' := by
      have hfirst : (p.reverse.dropWhile (· == '/')).head? = some c := by
        rw [← List.reverse_reverse (p.reverse.dropWhile (· == '/')), ← dropLastSlashes, hq]
        simp
      have hnot := List.head?_dropWhile_not (· == '/') p.reverse
      rw [hfirst] at hnot
      simpa using hnot
    obtain ⟨l', part, hlast⟩ := last_part_concat q hc
    have hbare : p.bare = q ++ [c] := by simp [bare, hq]
    rw [hbare, hlast] at h
    exact absurd (List.append_inj' h rfl).2 (by simp)

/-- The paths made of the first steps of a path, the longest one first. -/
def upTo (p : Path) (n : Nat) : List Path :=
  (List.range' 1 n).reverse.map fun n => ofSteps p.isAbsolute (p.steps.take n)

theorem ancestors_eq (p : Path) : p.ancestors = p.upTo (p.steps.length - 1) := rfl

theorem upTo_succ (p : Path) (n : Nat) :
    p.upTo (n + 1) = ofSteps p.isAbsolute (p.steps.take (n + 1)) :: p.upTo n := by
  rw [upTo, List.range'_1_concat, List.reverse_append, List.map_append, Nat.add_comm 1 n]
  rfl

/-- A single dot is the first of the steps. -/
theorem eq_nil_of_take_steps {p : Path} {n : Nat} {l : List Text}
    (h : p.steps.take n = l ++ [['.']]) : l = [] ∧ p.isAbsolute = false := by
  obtain ⟨lead, hlead, heq⟩ := steps_eq p
  have hnot : ['.'] ∉ names p.parts := fun hmem => (mem_names.mp hmem).2.2 rfl
  rcases hlead with rfl | ⟨rfl, hrelative⟩
  · rw [heq, List.nil_append] at h
    exact absurd (List.mem_of_mem_take (h ▸ List.mem_append_right _ List.mem_cons_self)) hnot
  · refine ⟨?_, hrelative⟩
    cases l with
    | nil => rfl
    | cons first l =>
      cases n with
      | zero => cases h
      | succ n =>
        rw [heq, List.cons_append, List.take_succ_cons, List.nil_append, List.cons_append] at h
        have hmem : ['.'] ∈ (names p.parts).take n := by
          rw [(List.cons.inj h).2]
          exact List.mem_append_right _ List.mem_cons_self
        exact absurd (List.mem_of_mem_take hmem) hnot

/-- Without the last step, the steps name the directory that a path is in. -/
theorem names_dropLast_steps {p : Path} {l : List Text} {last : Text}
    (h : names p.parts = l ++ [last]) : names p.steps.dropLast = l := by
  obtain ⟨lead, hlead, heq⟩ := steps_eq p
  have hkept : names l = l := List.filter_eq_self.mpr fun part hpart => by
    simpa using (mem_names.mp (h ▸ List.mem_append_left _ hpart)).2
  rw [heq, h, ← List.append_assoc, List.dropLast_concat, names_append, hkept]
  rcases hlead with rfl | ⟨rfl, -⟩ <;> rfl

/-! ## A name in a directory -/

theorem parts_join_name (p : Path) {name : Text} (h : '/' ∉ name) : ∃ l k,
    p.parts = l ++ List.replicate k [] ∧ (p.join name).parts = l ++ [name] := by
  rw [join]
  split
  · rename_i hempty
    rw [List.isEmpty_iff.mp hempty]
    exact ⟨[], 1, rfl, parts_of_no_slash h⟩
  · split
    · rename_i hslash
      obtain ⟨p, rfl⟩ := List.getLast?_eq_some_iff.mp (eq_of_beq hslash)
      refine ⟨parts p, 1, parts_append p [], ?_⟩
      rw [List.append_assoc]
      exact (parts_append p name).trans (by rw [parts_of_no_slash h])
    · exact ⟨parts p, 0, by simp, by rw [parts_append, parts_of_no_slash h]⟩

theorem isAbsolute_join (p : Path) {name : Text} (h : '/' ∉ name) :
    (p.join name).isAbsolute = p.isAbsolute := by
  rw [join]
  split
  · rename_i hempty
    rw [List.isEmpty_iff.mp hempty]
    cases name with
    | nil => rfl
    | cons c name =>
      have hc : c ≠ '/' := fun heq => h (heq ▸ List.mem_cons_self)
      simp [isAbsolute, hc]
  · rename_i hne
    have hne' : p ≠ [] := fun heq => hne (by rw [heq]; rfl)
    split
    · exact isAbsolute_append hne' name
    · exact isAbsolute_append hne' ('/' :: name)

theorem byteSize_le_join (p : Path) (name : Text) : p.byteSize ≤ (p.join name).byteSize := by
  rw [join]
  split
  · rename_i hempty
    rw [List.isEmpty_iff.mp hempty]
    exact Nat.zero_le _
  · split
    · rw [Text.byteSize_append]
      exact Nat.le_add_right _ _
    · rw [Text.byteSize_append]
      exact Nat.le_add_right _ _

theorem steps_join (p : Path) {name : Text} (h : '/' ∉ name) (hne : name ≠ [])
    (hdot : name ≠ ['.']) : (p.join name).steps = p.steps ++ [name] := by
  have hname : names [name] = [name] := names_cons (by simp [hne, hdot]) []
  obtain ⟨l, k, hp, hjoin⟩ := parts_join_name p h
  cases l with
  | nil =>
    rw [steps_of_parts hjoin, if_neg (by simpa using hne)]
    cases k with
    | zero => exact absurd hp (parts_ne_nil p)
    | succ k => rw [steps_of_parts hp, names_replicate_nil]; rfl
  | cons first rest =>
    rw [List.cons_append] at hp hjoin
    rw [steps_of_parts hjoin, steps_of_parts hp, names_append, names_append, hname,
      names_replicate_nil, List.append_nil, List.append_assoc]

/-- The directory of a name in a directory is this directory, without needless slashes and dots. -/
theorem parent?_join (p : Path) {name : Text} (h : '/' ∉ name) (hne : name ≠ [])
    (hdot : name ≠ ['.']) :
    (p.join name).parent? = some (ofSteps p.isAbsolute p.steps) := by
  rw [parent?, steps_join p h hne hdot, isAbsolute_join p h, List.dropLast_concat]
  simp

end Lexis.Path
