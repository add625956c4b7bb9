-- Text as this library reads and writes it: a list of characters. Offsets
-- into a text count the bytes of its UTF-8 form, so a text can only be cut
-- at an offset that is a character boundary.

namespace Lexis

/-- A text, first character first. -/
abbrev Text := List Char

namespace Text

/-! ## Size and cutting -/

/-- The number of bytes of the UTF-8 form. -/
def byteSize : Text → Nat
  | [] => 0
  | c :: t => c.utf8Size + byteSize t

/-- The parts before and after a byte offset. There are none when the offset
is past the end or inside a character. -/
def splitAt? : Nat → Text → Option (Text × Text)
  | 0, t => some ([], t)
  | _ + 1, [] => none
  | n + 1, c :: t =>
    if c.utf8Size ≤ n + 1 then
      (splitAt? (n + 1 - c.utf8Size) t).map fun (before, after) => (c :: before, after)
    else none

/-- The part between two byte offsets. -/
def slice? (start stop : Nat) (t : Text) : Option Text := do
  let (before, _) ← splitAt? stop t
  let (_, part) ← splitAt? start before
  return part

@[simp] theorem byteSize_nil : byteSize [] = 0 := rfl

@[simp] theorem byteSize_cons (c : Char) (t : Text) :
    byteSize (c :: t) = c.utf8Size + byteSize t := rfl

@[simp] theorem byteSize_append (s t : Text) : byteSize (s ++ t) = byteSize s + byteSize t := by
  induction s with
  | nil => simp
  | cons c s ih => simp only [List.cons_append, byteSize_cons, ih]; omega

theorem byteSize_pos {t : Text} (h : t ≠ []) : 0 < byteSize t := by
  cases t with
  | nil => exact absurd rfl h
  | cons c t =>
    have := c.utf8Size_pos
    simp only [byteSize_cons]
    omega

theorem append_of_splitAt? {n : Nat} {t before after : Text}
    (h : splitAt? n t = some (before, after)) : before ++ after = t := by
  induction n, t using splitAt?.induct generalizing before after with
  | case1 t => simp [splitAt?] at h; simp [← h.1, ← h.2]
  | case2 n => simp [splitAt?] at h
  | case3 n c t hc ih =>
    simp only [splitAt?, hc, if_true, Option.map_eq_some_iff] at h
    obtain ⟨⟨b, a⟩, hba, he⟩ := h
    cases he
    simp [ih hba]
  | case4 n c t hc => simp [splitAt?, hc] at h

/-- Cutting at the size of a front gives that front back. -/
theorem splitAt?_append (s t : Text) : splitAt? (byteSize s) (s ++ t) = some (s, t) := by
  induction s with
  | nil => simp [splitAt?]
  | cons c s ih =>
    have hpos := c.utf8Size_pos
    obtain ⟨n, hn⟩ : ∃ n, byteSize (c :: s) = n + 1 := ⟨byteSize (c :: s) - 1, by simp; omega⟩
    have hle : c.utf8Size ≤ n + 1 := by simp at hn; omega
    have hrest : n + 1 - c.utf8Size = byteSize s := by simp at hn; omega
    rw [hn, List.cons_append, splitAt?]
    simp [hle, hrest, ih]

theorem byteSize_of_splitAt? {n : Nat} {t before after : Text}
    (h : splitAt? n t = some (before, after)) : before.byteSize = n := by
  induction n, t using splitAt?.induct generalizing before after with
  | case1 t =>
    simp only [splitAt?, Option.some.injEq, Prod.mk.injEq] at h
    rw [← h.1]
    rfl
  | case2 n => cases h
  | case3 n c t hc ih =>
    simp only [splitAt?, hc, if_true, Option.map_eq_some_iff] at h
    obtain ⟨⟨b, a⟩, hba, he⟩ := h
    cases he
    rw [byteSize_cons, ih hba]
    exact Nat.add_sub_of_le hc
  | case4 n c t hc => simp [splitAt?, hc] at h

theorem splitAt?_eq_some_iff {n : Nat} {t before after : Text} :
    splitAt? n t = some (before, after) ↔ t = before ++ after ∧ before.byteSize = n := by
  constructor
  · intro h
    exact ⟨(append_of_splitAt? h).symm, byteSize_of_splitAt? h⟩
  · rintro ⟨rfl, rfl⟩
    exact splitAt?_append before after

theorem slice?_append (s t u : Text) :
    slice? (byteSize s) (byteSize s + byteSize t) (s ++ (t ++ u)) = some t := by
  have hstop := splitAt?_append (s ++ t) u
  rw [byteSize_append, List.append_assoc] at hstop
  simp [slice?, hstop, splitAt?_append]

theorem slice?_self (n : Nat) (t : Text) : (slice? n n t).getD [] = [] := by
  cases hcut : splitAt? n t with
  | none => simp [slice?, hcut]
  | some parts =>
    obtain ⟨before, after⟩ := parts
    have hsize := splitAt?_append before []
    rw [List.append_nil, byteSize_of_splitAt? hcut] at hsize
    simp [slice?, hcut, hsize]

/-! ## Numbers and joining -/

/-- The decimal digits of a number. -/
def ofNat (n : Nat) : Text := Nat.toDigits 10 n

/-- The lower-case hexadecimal digits of a number. -/
def hexOfNat (n : Nat) : Text := Nat.toDigits 16 n

/-- The number that decimal digits spell. -/
def decimalValue (digits : Text) : Nat := Nat.ofDigitChars 10 digits 0

theorem decimalValue_ofNat (n : Nat) : decimalValue (ofNat n) = n :=
  Nat.ofDigitChars_toDigits (by decide) (by decide)

/-- A text of one repeated character. -/
def filled (n : Nat) (c : Char) : Text := List.replicate n c

/-- A text set flush right in a column. -/
def padLeft (width : Nat) (pad : Char) (t : Text) : Text :=
  filled (width - t.length) pad ++ t

/-- Texts one after another with a separator between neighbours. -/
def join (separator : Text) (parts : List Text) : Text := List.intercalate separator parts

theorem join_singleton (separator t : Text) : join separator [t] = t :=
  List.intercalate_singleton

theorem join_cons_cons (separator t u : Text) (ts : List Text) :
    join separator (t :: u :: ts) = t ++ (separator ++ join separator (u :: ts)) := by
  rw [join, List.intercalate_cons_cons, List.append_assoc]
  rfl

/-! ## Lines -/

/-- A text without the one carriage return it may end in. -/
def dropReturn (t : Text) : Text :=
  if t.getLast? = some '\r' then t.dropLast else t

end Text

end Lexis
