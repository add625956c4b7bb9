-- The law of the cursor: however it is moved, cloned and put back, it stands between two
-- characters of its source, and its offset, the text ahead and its place agree on where.
import Lexis.Proofs.LexicalGrammar
import Lexis.Proofs.Origins

namespace Lexis

/-! ## Boundaries -/

namespace Text

/-- The offset falls between two characters of the text, or at one of its ends. -/
def IsBoundary (t : Text) (n : Nat) : Prop := ∃ before after, t = before ++ after ∧
  before.byteSize = n

theorem splitAt?_eq_none_iff {n : Nat} {t : Text} : splitAt? n t = none ↔ ¬ t.IsBoundary n := by
  rw [Option.eq_none_iff_forall_ne_some]
  constructor
  · rintro h ⟨before, after, hcut⟩
    exact h _ (splitAt?_eq_some_iff.mpr hcut)
  · rintro h ⟨before, after⟩ hcut
    exact h ⟨before, after, splitAt?_eq_some_iff.mp hcut⟩

theorem byteSize_le_of_isBoundary {n : Nat} {t : Text} (h : t.IsBoundary n) : n ≤ t.byteSize := by
  obtain ⟨before, after, rfl, rfl⟩ := h
  rw [byteSize_append]
  exact Nat.le_add_right _ _

/-- The boundaries of a front of a text are those of the text that lie in the front. -/
theorem isBoundary_front {n : Nat} {front t : Text} :
    front.IsBoundary n ↔ n ≤ front.byteSize ∧ (front ++ t).IsBoundary n := by
  constructor
  · intro h
    refine ⟨byteSize_le_of_isBoundary h, ?_⟩
    obtain ⟨before, after, rfl, hn⟩ := h
    exact ⟨before, after ++ t, List.append_assoc before after t, hn⟩
  · rintro ⟨hle, before, after, hcut, rfl⟩
    rcases List.append_eq_append_iff.mp hcut with ⟨m, hbefore, -⟩ | ⟨m, hfront, -⟩
    · have hm : m = [] := by
        by_contra hne
        have := byteSize_pos hne
        rw [hbefore, byteSize_append] at hle
        omega
      rw [hm, List.append_nil] at hbefore
      exact ⟨front, [], (List.append_nil front).symm, by rw [hbefore]⟩
    · exact ⟨before, m, hfront, rfl⟩

end Text

namespace Cursor

/-! ## Operations -/

/-- What can be done with a cursor in use. A clone is kept, and can be gone back to at any time. -/
inductive Operation where
  | advance
  | advanceBy (n : Nat)
  | eatWhile (p : Char → Bool)
  | matchChar (x : Char)
  | peek (n : Nat)
  | sliceFrom (start : Nat)
  | clone
  | goBack (index : Nat)

/-- Going back is the one operation that may move a cursor against the direction of the text. -/
def Operation.goesOn : Operation → Bool
  | goBack _ => false
  | _ => true

/-- A cursor in use, and the clones made of it, the newest first. -/
structure Session where
  cursor : Cursor
  clones : List Cursor

namespace Session

def start (origin : Position) (source : Text) : Session := ⟨withOrigin origin source, []⟩

/-- The session after an operation. Looking and slicing change nothing, and there is no way back
to a clone that was not made. -/
def perform (s : Session) : Operation → Session
  | .advance => { s with cursor := s.cursor.advance }
  | .advanceBy n => { s with cursor := s.cursor.advanceBy n }
  | .eatWhile p => { s with cursor := s.cursor.eatWhile p }
  | .matchChar x => { s with cursor := (s.cursor.matchChar x).2 }
  | .peek _ => s
  | .sliceFrom _ => s
  | .clone => { s with clones := s.cursor :: s.clones }
  | .goBack index => { s with cursor := s.clones[index]?.getD s.cursor }

def performAll (s : Session) (ops : List Operation) : Session := ops.foldl perform s

end Session

/-! ## Moving over text -/

/-- The second cursor is the first one after it has moved over a text that was ahead. -/
structure MovedOver (c : Cursor) (passed : Text) (c' : Cursor) : Prop where
  ahead : c.rest = passed ++ c'.rest
  stands : c' = c.past passed

namespace MovedOver

variable {c c' c'' : Cursor} {passed more : Text}

theorem of_past {r : Text} (h : c.rest = passed ++ r) : c.MovedOver passed (c.past passed) :=
  ⟨by rw [rest_past h, h], rfl⟩

theorem refl (c : Cursor) : c.MovedOver [] c := ⟨rfl, rfl⟩

theorem trans (h : c.MovedOver passed c') (h' : c'.MovedOver more c'') :
    c.MovedOver (passed ++ more) c'' where
  ahead := by rw [h.ahead, h'.ahead, List.append_assoc]
  stands := by rw [h'.stands, h.stands, past_past]

theorem offset_le (h : c.MovedOver passed c') : c.offset ≤ c'.offset := by
  rw [h.stands]
  exact Nat.le_add_right _ _

end MovedOver

theorem exists_movedOver_advance (c : Cursor) : ∃ passed, c.MovedOver passed c.advance := by
  cases hrest : c.rest with
  | nil =>
    rw [advance_of_nil hrest]
    exact ⟨[], .refl c⟩
  | cons x r =>
    rw [advance_of_cons hrest]
    exact ⟨[x], .of_past hrest⟩

theorem exists_movedOver_advanceBy (c : Cursor) (n : Nat) :
    ∃ passed, c.MovedOver passed (c.advanceBy n) := by
  induction n generalizing c with
  | zero => exact ⟨[], .refl c⟩
  | succ n ih =>
    rw [advanceBy]
    split
    · exact ⟨[], .refl c⟩
    · obtain ⟨first, hfirst⟩ := c.exists_movedOver_advance
      obtain ⟨later, hlater⟩ := ih c.advance
      exact ⟨first ++ later, hfirst.trans hlater⟩

/-- Eating moves over characters of the class, and stops in front of the first other one or at the
end. The sentinel stops it nowhere: it asks for the text ahead. -/
theorem eatWhile_movedOver (p : Char → Bool) (c : Cursor) : ∃ passed,
    c.MovedOver passed (c.eatWhile p) ∧ (∀ x ∈ passed, p x) ∧ Stops p (c.eatWhile p).rest := by
  have hcut : c.rest = c.rest.takeWhile p ++ c.rest.dropWhile p :=
    List.takeWhile_append_dropWhile.symm
  rw [eatWhile_eq]
  refine ⟨c.rest.takeWhile p, .of_past hcut, List.all_eq_true.mp List.all_takeWhile, ?_⟩
  rw [rest_past hcut]
  exact stops_dropWhile p c.rest

theorem matchChar_at_end {c : Cursor} (h : c.isAtEnd = true) (x : Char) :
    c.matchChar x = (false, c) := by
  have hrest : c.rest = [] := List.isEmpty_iff.mp h
  rw [matchChar, hrest]
  rfl

theorem matchChar_before_end {c : Cursor} (h : c.isAtEnd = false) (x : Char) :
    c.matchChar x = if c.current = x then (true, c.advance) else (false, c) := by
  obtain ⟨y, r, hrest⟩ := List.exists_cons_of_ne_nil (List.isEmpty_eq_false_iff.mp h)
  simp [matchChar, current, peek, hrest]

theorem exists_movedOver_matchChar (c : Cursor) (x : Char) :
    ∃ passed, c.MovedOver passed (c.matchChar x).2 := by
  unfold matchChar
  split
  · exact c.exists_movedOver_advance
  · exact ⟨[], .refl c⟩

/-! ## Standing in the source -/

/-- The cursor has come from the start of the source over the text behind it. -/
def Reached (origin : Position) (source behind : Text) (c : Cursor) : Prop :=
  (withOrigin origin source).MovedOver behind c

namespace Reached

variable {origin : Position} {source behind : Text} {c : Cursor}

theorem source_eq (h : c.Reached origin source behind) : c.source = source := by
  rw [h.stands]
  rfl

theorem cut (h : c.Reached origin source behind) : source = behind ++ c.rest := by
  rw [← h.ahead]
  exact (rest_of_cut (List.nil_append source).symm rfl).symm

theorem offset (h : c.Reached origin source behind) : c.offset = behind.byteSize := by
  rw [h.stands]
  exact Nat.zero_add _

theorem location (h : c.Reached origin source behind) :
    c.location = origin.advancedOver behind := by
  rw [h.stands, location_past]
  rfl

theorem splitAt?_offset (h : c.Reached origin source behind) :
    source.splitAt? c.offset = some (behind, c.rest) :=
  Text.splitAt?_eq_some_iff.mpr ⟨h.cut, h.offset.symm⟩

theorem isAtEnd_iff (h : c.Reached origin source behind) :
    c.isAtEnd = true ↔ c.offset = source.byteSize := by
  rw [h.offset, h.cut, Text.byteSize_append, isAtEnd, List.isEmpty_iff]
  constructor
  · intro hrest
    rw [hrest]
    rfl
  · intro hsize
    by_contra hne
    have := Text.byteSize_pos hne
    omega

/-- A slice is cut out of the text behind the cursor. -/
theorem sliceFrom?_eq (h : c.Reached origin source behind) (n : Nat) :
    c.sliceFrom? n = (behind.splitAt? n).map Prod.snd := by
  rw [sliceFrom?, h.source_eq, Text.slice?, h.splitAt?_offset]
  cases hcut : behind.splitAt? n with
  | none => simp [hcut]
  | some parts => simp [hcut]

theorem sliceFrom?_eq_none_iff (h : c.Reached origin source behind) (n : Nat) :
    c.sliceFrom? n = none ↔ c.offset < n ∨ ¬ source.IsBoundary n := by
  rw [h.sliceFrom?_eq, Option.map_eq_none_iff, Text.splitAt?_eq_none_iff,
    Text.isBoundary_front (t := c.rest), ← h.offset, ← h.cut, not_and_or, Nat.not_le]

theorem sliceFrom?_eq_some_iff (h : c.Reached origin source behind) (n : Nat) (text : Text) :
    c.sliceFrom? n = some text ↔
      ∃ before, source = before ++ (text ++ c.rest) ∧ before.byteSize = n := by
  rw [h.sliceFrom?_eq, Option.map_eq_some_iff]
  constructor
  · rintro ⟨⟨before, _⟩, hcut, rfl⟩
    obtain ⟨hbehind, hsize⟩ := Text.splitAt?_eq_some_iff.mp hcut
    refine ⟨before, ?_, hsize⟩
    rw [h.cut, hbehind, List.append_assoc]
  · rintro ⟨before, hsource, hsize⟩
    have hbehind : behind = before ++ text := by
      rw [h.cut, ← List.append_assoc] at hsource
      exact List.append_cancel_right hsource
    exact ⟨(before, text), Text.splitAt?_eq_some_iff.mpr ⟨hbehind, hsize⟩, rfl⟩

end Reached

/-! ## Sessions -/

namespace Session

/-- Each cursor of a session, the clones too, was reached from the start of the source. -/
def AllReached (origin : Position) (source : Text) (s : Session) : Prop :=
  ∀ c ∈ s.cursor :: s.clones, ∃ behind, c.Reached origin source behind

/-- An operation moves the cursor on, or puts it where a clone stands. -/
theorem perform_cases (s : Session) (op : Operation) :
    (∃ passed, s.cursor.MovedOver passed (s.perform op).cursor) ∨
      op.goesOn = false ∧ (s.perform op).cursor ∈ s.clones := by
  cases op with
  | advance => exact .inl s.cursor.exists_movedOver_advance
  | advanceBy n => exact .inl (s.cursor.exists_movedOver_advanceBy n)
  | eatWhile p =>
    obtain ⟨passed, hmoved, -⟩ := eatWhile_movedOver p s.cursor
    exact .inl ⟨passed, hmoved⟩
  | matchChar x => exact .inl (s.cursor.exists_movedOver_matchChar x)
  | peek n => exact .inl ⟨[], .refl _⟩
  | sliceFrom start => exact .inl ⟨[], .refl _⟩
  | clone => exact .inl ⟨[], .refl _⟩
  | goBack index =>
    cases hclone : s.clones[index]? with
    | none => exact .inl ⟨[], by simpa only [perform, hclone] using .refl s.cursor⟩
    | some c =>
      refine .inr ⟨rfl, ?_⟩
      simpa only [perform, hclone, Option.getD_some] using List.mem_of_getElem? hclone

theorem mem_clones_perform {s : Session} {op : Operation} {c : Cursor}
    (h : c ∈ (s.perform op).clones) : c ∈ s.cursor :: s.clones := by
  cases op with
  | clone => exact h
  | _ => exact List.mem_cons_of_mem _ h

variable {origin : Position} {source : Text}

theorem AllReached.perform {s : Session} (h : s.AllReached origin source) (op : Operation) :
    (s.perform op).AllReached origin source := by
  refine List.forall_mem_cons.mpr ⟨?_, fun c hc => h c (mem_clones_perform hc)⟩
  rcases s.perform_cases op with ⟨passed, hmoved⟩ | ⟨-, hclone⟩
  · obtain ⟨behind, hreached⟩ := h s.cursor List.mem_cons_self
    exact ⟨behind ++ passed, MovedOver.trans hreached hmoved⟩
  · exact h _ (List.mem_cons_of_mem _ hclone)

theorem allReached_performAll (origin : Position) (source : Text) (ops : List Operation) :
    ((start origin source).performAll ops).AllReached origin source := by
  induction ops using List.reverseRecOn with
  | nil => exact List.forall_mem_cons.mpr ⟨⟨[], .refl _⟩, fun c hc => nomatch hc⟩
  | append_singleton ops op ih =>
    rw [performAll, List.foldl_append]
    exact AllReached.perform ih op

/-- Without going back a cursor never moves back. -/
theorem offset_le_performAll (s : Session) {ops : List Operation}
    (h : ∀ op ∈ ops, op.goesOn = true) : s.cursor.offset ≤ (s.performAll ops).cursor.offset := by
  induction ops generalizing s with
  | nil => exact Nat.le_refl _
  | cons op ops ih =>
    obtain ⟨hop, hops⟩ := List.forall_mem_cons.mp h
    refine Nat.le_trans ?_ (ih (s.perform op) hops)
    rcases s.perform_cases op with ⟨passed, hmoved⟩ | ⟨hback, -⟩
    · exact hmoved.offset_le
    · rw [hop] at hback
      cases hback

end Session

/-! ## The law -/

/-- The cursor knows where it stands in the source, and what it looks at, eats, matches and slices
there is what the source has there. -/
structure Oriented (origin : Position) (source : Text) (c : Cursor) : Prop where
  boundary : source.IsBoundary c.offset
  in_source : c.offset ≤ source.byteSize
  place : ∃ behind, source.splitAt? c.offset = some (behind, c.rest) ∧
    c.location = origin.advancedOver behind
  at_end : c.isAtEnd = true ↔ c.offset = source.byteSize
  eats : ∀ p, ∃ eaten, c.rest = eaten ++ (c.eatWhile p).rest ∧ (∀ x ∈ eaten, p x) ∧
    ((c.eatWhile p).isAtEnd = true ∨ ∃ x r, (c.eatWhile p).rest = x :: r ∧ p x = false)
  no_match_at_end : c.isAtEnd = true → ∀ x, c.matchChar x = (false, c)
  matches_current : c.isAtEnd = false → ∀ x,
    c.matchChar x = if c.current = x then (true, c.advance) else (false, c)
  slices : ∀ n text, c.sliceFrom? n = some text ↔
    ∃ before, source = before ++ (text ++ c.rest) ∧ before.byteSize = n
  no_slice : ∀ n, c.sliceFrom? n = none ↔ c.offset < n ∨ ¬ source.IsBoundary n

theorem Reached.oriented {origin : Position} {source behind : Text} {c : Cursor}
    (h : c.Reached origin source behind) : c.Oriented origin source where
  boundary := ⟨behind, c.rest, h.cut, h.offset.symm⟩
  in_source := Text.byteSize_le_of_isBoundary ⟨behind, c.rest, h.cut, h.offset.symm⟩
  place := ⟨behind, h.splitAt?_offset, h.location⟩
  at_end := h.isAtEnd_iff
  eats p := by
    obtain ⟨eaten, hmoved, heaten, hstop⟩ := eatWhile_movedOver p c
    refine ⟨eaten, hmoved.ahead, heaten, ?_⟩
    cases hrest : (c.eatWhile p).rest with
    | nil => exact .inl (List.isEmpty_iff.mpr hrest)
    | cons x r =>
      rw [hrest, stops_cons_iff] at hstop
      exact .inr ⟨x, r, rfl, hstop⟩
  no_match_at_end := matchChar_at_end
  matches_current := matchChar_before_end
  slices := h.sliceFrom?_eq_some_iff
  no_slice := h.sliceFrom?_eq_none_iff

/-- The session has a cursor that knows where it stands, and that only going back can move back. -/
structure Session.Sound (origin : Position) (source : Text) (s : Session) : Prop where
  oriented : s.cursor.Oriented origin source
  clones_oriented : ∀ c ∈ s.clones, c.Oriented origin source
  moves_on : ∀ ops : List Operation, (∀ op ∈ ops, op.goesOn = true) →
    s.cursor.offset ≤ (s.performAll ops).cursor.offset

/-- Whatever is done with a cursor, in whatever order, it knows where it stands. -/
theorem cursors_know_where_they_stand (origin : Position) (source : Text) (ops : List Operation) :
    ((Session.start origin source).performAll ops).Sound origin source := by
  have hall := Session.allReached_performAll origin source ops
  refine ⟨?_, fun c hc => ?_, fun more hmore => Session.offset_le_performAll _ hmore⟩
  · obtain ⟨behind, hreached⟩ := hall _ List.mem_cons_self
    exact hreached.oriented
  · obtain ⟨behind, hreached⟩ := hall c (List.mem_cons_of_mem _ hc)
    exact hreached.oriented

end Cursor

end Lexis
