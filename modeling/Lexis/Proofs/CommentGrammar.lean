-- The nested grammar of block comments, apart from the reader that counts
-- depth. The reader closes a comment exactly where the grammar does.
import Lexis.Scan.Comment

namespace Lexis

/-! ## The grammar -/

/-- The items of a comment lead from one text to another. An item is a whole block comment, or
a character at which no marker begins. -/
inductive CommentItems : Text → Text → Prop
  | done {t : Text} : CommentItems t t
  | nested {t u v : Text} : CommentItems t ('*' :: '/' :: u) → CommentItems u v →
      CommentItems ('/' :: '*' :: t) v
  | char {c : Char} {t v : Text} : ¬ ['/', '*'] <+: c :: t → ¬ ['*', '/'] <+: c :: t →
      CommentItems t v → CommentItems (c :: t) v

/-- A text that is one whole block comment. -/
def IsBlockComment (t : Text) : Prop := ∃ u, t = '/' :: '*' :: u ∧ CommentItems u ['*', '/']

/-! ## The reader follows the grammar -/

theorem BlockBody.after_after (s t : Text) (b : BlockBody) :
    (b.after t).after s = b.after (s ++ t) := by
  simp [BlockBody.after]

theorem BlockBody.of_after_eq {b : BlockBody} {front text : Text} {rest : Option Text}
    (h : b.after front = ⟨text, rest⟩) : ∃ inner, b = ⟨inner, rest⟩ ∧ text = front ++ inner := by
  simp only [BlockBody.after, BlockBody.mk.injEq] at h
  exact ⟨b.text, by rw [← h.2], h.1.symm⟩

theorem readBlockBody_char {depth : Nat} {c : Char} {r : Text} (hopen : ¬ ['/', '*'] <+: c :: r)
    (hclose : ¬ ['*', '/'] <+: c :: r) :
    readBlockBody depth (c :: r) = (readBlockBody depth r).after [c] := by
  rw [readBlockBody.eq_def]
  split
  · rename_i h; cases h
  · rename_i h; cases h; exact absurd (by simp) hopen
  · rename_i h; cases h; exact absurd (by simp) hclose
  · rename_i h; cases h; exact absurd (by simp) hclose
  · rename_i h; cases h; rfl

/-- Where the reader takes a single character no marker begins. -/
theorem no_marker {depth : Nat} {c : Char} {r : Text}
    (hopen : ∀ t, c = '/' → r = '*' :: t → False)
    (hclose : ∀ t, depth = 0 → c = '*' → r = '/' :: t → False)
    (hclose' : ∀ n t, depth = n + 1 → c = '*' → r = '/' :: t → False) :
    ¬ ['/', '*'] <+: c :: r ∧ ¬ ['*', '/'] <+: c :: r := by
  constructor
  · rintro ⟨t, ht⟩
    simp only [List.cons_append, List.nil_append, List.cons.injEq] at ht
    exact hopen t ht.1.symm ht.2.symm
  · rintro ⟨t, ht⟩
    simp only [List.cons_append, List.nil_append, List.cons.injEq] at ht
    cases depth with
    | zero => exact hclose t rfl ht.1.symm ht.2.symm
    | succ depth => exact hclose' depth t rfl ht.1.symm ht.2.symm

/-- A text that is not empty decides whether a marker begins in front of it. -/
theorem marker_append_iff {a b c : Char} {t rest : Text} (ht : t ≠ []) :
    [a, b] <+: c :: (t ++ rest) ↔ [a, b] <+: c :: t := by
  cases t with
  | nil => exact absurd rfl ht
  | cons d t => simp

theorem readBlockBody_of_items {t v : Text} (h : CommentItems t v) (hv : v ≠ []) (rest : Text)
    (depth : Nat) : ∃ front, t = front ++ v ∧
      readBlockBody depth (t ++ rest) = (readBlockBody depth (v ++ rest)).after front := by
  induction h generalizing depth with
  | done => exact ⟨[], rfl, rfl⟩
  | @nested t u v _ _ ih1 ih2 =>
    obtain ⟨front, hfront, hin⟩ := ih1 (List.cons_ne_nil _ _) (depth + 1)
    obtain ⟨front', hfront', hout⟩ := ih2 hv depth
    refine ⟨'/' :: '*' :: front ++ ['*', '/'] ++ front', by rw [hfront, hfront']; simp, ?_⟩
    simp only [List.cons_append, readBlockBody, hin, hout, BlockBody.after_after]
    simp
  | @char c t v hopen hclose _ ih =>
    obtain ⟨front, hfront, hin⟩ := ih hv depth
    have ht : t ≠ [] := by rw [hfront]; simp [hv]
    refine ⟨c :: front, by rw [hfront, List.cons_append], ?_⟩
    rw [List.cons_append, readBlockBody_char, hin, BlockBody.after_after]
    · rfl
    · rw [marker_append_iff ht]; exact hopen
    · rw [marker_append_iff ht]; exact hclose

theorem readBlockBody_of_isBlockComment {u : Text} (h : IsBlockComment ('/' :: '*' :: u))
    (rest : Text) : readBlockBody 0 (u ++ rest) = ⟨u, some rest⟩ := by
  obtain ⟨_, ⟨⟩, hu⟩ := h
  obtain ⟨front, hfront, hread⟩ := readBlockBody_of_items hu (List.cons_ne_nil _ _) rest 0
  rw [hread, hfront]
  rfl

/-- A whole comment is read as itself, whatever comes after it. -/
theorem readBlockComment_of_isBlockComment {t rest r : Text} (h : IsBlockComment t)
    (ht : t ++ rest = '/' :: '*' :: r) : readBlockComment r = (.plain .comment t, rest) := by
  obtain ⟨u, rfl, -⟩ := id h
  simp only [List.cons_append, List.cons.injEq, true_and] at ht
  subst ht
  simp [readBlockComment, readBlockBody_of_isBlockComment h]

/-! ## The grammar follows the reader -/

/-- A text that closes a comment and a number of comments around it. -/
def Closes : Nat → Text → Prop
  | 0, t => CommentItems t ['*', '/']
  | depth + 1, t => ∃ u, CommentItems t ('*' :: '/' :: u) ∧ Closes depth u

theorem Closes.ne_nil {depth : Nat} {t : Text} (h : Closes depth t) : t ≠ [] := by
  rintro rfl
  cases depth with
  | zero => cases h
  | succ depth =>
    obtain ⟨u, hu, _⟩ := h
    cases hu

theorem Closes.char {depth : Nat} {c : Char} {t : Text} (hopen : ¬ ['/', '*'] <+: c :: t)
    (hclose : ¬ ['*', '/'] <+: c :: t) (h : Closes depth t) : Closes depth (c :: t) := by
  cases depth with
  | zero => exact CommentItems.char hopen hclose h
  | succ depth =>
    obtain ⟨u, hu, hrest⟩ := h
    exact ⟨u, .char hopen hclose hu, hrest⟩

theorem Closes.nested {depth : Nat} {t : Text} (h : Closes (depth + 1) t) :
    Closes depth ('/' :: '*' :: t) := by
  obtain ⟨u, hu, hrest⟩ := h
  cases depth with
  | zero => exact CommentItems.nested hu hrest
  | succ depth =>
    obtain ⟨v, hv, hrest⟩ := hrest
    exact ⟨v, .nested hu hv, hrest⟩

theorem closes_of_readBlockBody {depth : Nat} {r text rest : Text}
    (h : readBlockBody depth r = ⟨text, some rest⟩) : Closes depth text := by
  have happ := readBlockBody_append depth r
  rw [h] at happ
  induction depth, r using readBlockBody.induct generalizing text with
  | case1 depth => simp [readBlockBody] at h
  | case2 depth r ih =>
    rw [readBlockBody] at h
    obtain ⟨inner, hr, rfl⟩ := BlockBody.of_after_eq h
    exact (ih hr (by simpa using happ)).nested
  | case3 r =>
    simp only [readBlockBody, BlockBody.mk.injEq] at h
    rw [← h.1]
    exact .done
  | case4 depth r ih =>
    rw [readBlockBody] at h
    obtain ⟨inner, hr, rfl⟩ := BlockBody.of_after_eq h
    exact ⟨inner, .done, ih hr (by simpa using happ)⟩
  | case5 depth c r hopen hclose hclose' ih =>
    obtain ⟨ho, hc⟩ := no_marker hopen hclose hclose'
    rw [readBlockBody_char ho hc] at h
    obtain ⟨inner, hr, rfl⟩ := BlockBody.of_after_eq h
    simp only [Option.getD_some, List.cons_append, List.nil_append, List.cons.injEq,
      true_and] at happ
    have hin := ih hr happ
    rw [← happ, marker_append_iff hin.ne_nil] at ho hc
    exact hin.char ho hc

theorem isBlockComment_of_readBlockBody {r text rest : Text}
    (h : readBlockBody 0 r = ⟨text, some rest⟩) : IsBlockComment ('/' :: '*' :: text) :=
  ⟨text, rfl, closes_of_readBlockBody h⟩

/-- The text runs out inside a comment exactly when no front of it is a whole comment. -/
theorem rest_readBlockBody_eq_none_iff {r : Text} : (readBlockBody 0 r).rest = none ↔
    ∀ t, t <+: '/' :: '*' :: r → ¬ IsBlockComment t := by
  constructor
  · rintro h t ⟨rest, ht⟩ hblock
    have hread := readBlockComment_of_isBlockComment hblock ht
    simp [readBlockComment, h, Lexeme.plain] at hread
  · intro h
    have happ := readBlockBody_append 0 r
    obtain ⟨text, rest, hb⟩ : ∃ text rest, readBlockBody 0 r = ⟨text, rest⟩ := ⟨_, _, rfl⟩
    cases rest with
    | none => rw [hb]
    | some rest =>
      rw [hb] at happ
      refine absurd (isBlockComment_of_readBlockBody hb) (h _ ⟨rest, ?_⟩)
      rw [← happ]
      rfl

end Lexis
