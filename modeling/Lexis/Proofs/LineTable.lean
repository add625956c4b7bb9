-- The law of the line table. The table is read off the bytes of a text and positions move over its
-- characters; both cut the text into the same lines.
import Lexis.Proofs.Origins
import Lexis.Proofs.Utf8Forms
import Lexis.Text.SourceFile

namespace Lexis

open SourceFile (startsAfterBreaks)

/-! ## One line of a text -/

/-- The text is cut at the line with an index from zero: in front stand the lines before it with
their line feeds, and the line ends at a line feed or with the text. -/
structure CutAtLine (t : Text) (index : Nat) (front line after : Text) : Prop where
  cut : t = front ++ (line ++ after)
  closed : front = [] ∨ ∃ before, front = before ++ ['\n']
  index_eq : front.count '\n' = index
  no_line_feed : '\n' ∉ line
  ends : after = [] ∨ ∃ next, after = '\n' :: next

/-- A text begins with a line. -/
theorem exists_first_line (t : Text) : ∃ line after, t = line ++ after ∧ '\n' ∉ line ∧
    (after = [] ∨ ∃ next, after = '\n' :: next) := by
  by_cases hmem : '\n' ∈ t
  · obtain ⟨line, next, ht, hline⟩ := List.eq_append_cons_of_mem hmem
    exact ⟨line, _, ht, hline, .inr ⟨next, rfl⟩⟩
  · exact ⟨t, [], (List.append_nil t).symm, hmem, .inl rfl⟩

/-- Each index up to the number of line feeds has a line. -/
theorem exists_cutAtLine {t : Text} {index : Nat} (h : index ≤ t.count '\n') :
    ∃ front line after, CutAtLine t index front line after := by
  induction index generalizing t with
  | zero =>
    obtain ⟨line, after, ht, hline, hends⟩ := exists_first_line t
    exact ⟨[], line, after, ht, .inl rfl, rfl, hline, hends⟩
  | succ index ih =>
    have hmem : '\n' ∈ t := List.count_pos_iff.mp (Nat.lt_of_lt_of_le (Nat.succ_pos index) h)
    obtain ⟨first, next, rfl, hfirst⟩ := List.eq_append_cons_of_mem hmem
    rw [List.count_append, List.count_cons_self, List.count_eq_zero_of_not_mem hfirst] at h
    obtain ⟨front, line, after, hcut⟩ := ih (t := next) (by omega)
    refine ⟨first ++ '\n' :: front, line, after, ?_, .inr ?_, ?_, hcut.no_line_feed, hcut.ends⟩
    · rw [hcut.cut, List.append_assoc, List.cons_append]
    · rcases hcut.closed with rfl | ⟨before, rfl⟩
      · exact ⟨first, rfl⟩
      · exact ⟨first ++ '\n' :: before, by rw [List.append_assoc, List.cons_append]⟩
    · rw [List.count_append, List.count_cons_self, hcut.index_eq,
        List.count_eq_zero_of_not_mem hfirst, Nat.zero_add]

/-! ## The table -/

theorem startsAfterBreaks_append (offset : Nat) (s t : Text) :
    startsAfterBreaks offset (s ++ t) =
      startsAfterBreaks offset s ++ startsAfterBreaks (offset + s.byteSize) t := by
  induction s generalizing offset with
  | nil => rfl
  | cons c s ih =>
    rw [List.cons_append, startsAfterBreaks, startsAfterBreaks, Text.byteSize_cons,
      ← Nat.add_assoc, ih]
    split
    · rfl
    · rfl

theorem length_startsAfterBreaks (offset : Nat) (t : Text) :
    (startsAfterBreaks offset t).length = t.count '\n' := by
  induction t generalizing offset with
  | nil => rfl
  | cons c t ih =>
    rw [startsAfterBreaks, List.count_cons]
    by_cases hc : c = '\n'
    · simp [hc, ih]
    · simp [hc, ih]

theorem startsAfterBreaks_of_no_line_feed {t : Text} (h : '\n' ∉ t) (offset : Nat) :
    startsAfterBreaks offset t = [] := by
  rw [← List.length_eq_zero_iff, length_startsAfterBreaks, List.count_eq_zero_of_not_mem h]

theorem SourceFile.lineCount_eq (f : SourceFile) : f.lineCount = f.content.count '\n' + 1 := by
  rw [lineCount, lineStarts, List.length_cons, length_startsAfterBreaks]

theorem splitOn_append (s t : Text) :
    (s ++ '\n' :: t).splitOn '\n' = s.splitOn '\n' ++ t.splitOn '\n' :=
  List.splitOnP_append_cons s t rfl

theorem splitOn_of_no_line_feed {t : Text} (h : '\n' ∉ t) : t.splitOn '\n' = [t] :=
  List.splitOnP_eq_singleton fun _ hc => beq_eq_false_iff_ne.mpr fun heq => h (heq ▸ hc)

theorem length_splitOn (t : Text) : (t.splitOn '\n').length = t.count '\n' + 1 := by
  induction t with
  | nil => rfl
  | cons c t ih =>
    have hcons : (c :: t).splitOn '\n' = if c == '\n' then [] :: t.splitOn '\n'
        else (t.splitOn '\n').modifyHead (c :: ·) := List.splitOnP_cons_eq_if_modifyHead c t
    rw [hcons, List.count_cons]
    by_cases hc : c = '\n'
    · simp [hc, ih]
    · simp [hc, ih]

namespace CutAtLine

variable {f : SourceFile} {index : Nat} {front line after : Text}

/-- The table up to a line. -/
theorem lineStarts_eq (h : CutAtLine f.content index front line after) :
    ∃ starts, starts.length = index ∧ f.lineStarts =
      starts ++ front.byteSize :: startsAfterBreaks (front.byteSize + line.byteSize) after := by
  have hcontent : startsAfterBreaks 0 f.content = startsAfterBreaks 0 front ++
      startsAfterBreaks (front.byteSize + line.byteSize) after := by
    rw [h.cut, startsAfterBreaks_append, startsAfterBreaks_append,
      startsAfterBreaks_of_no_line_feed h.no_line_feed, Nat.zero_add, List.nil_append]
  rw [SourceFile.lineStarts, hcontent]
  rcases h.closed with rfl | ⟨before, rfl⟩
  · exact ⟨[], h.index_eq, rfl⟩
  · refine ⟨0 :: startsAfterBreaks 0 before, ?_, ?_⟩
    · rw [List.length_cons, length_startsAfterBreaks, ← h.index_eq, List.count_append]
      rfl
    · rw [startsAfterBreaks_append, Text.byteSize_append, Nat.zero_add, List.append_assoc]
      rfl

theorem lineStarts_index (h : CutAtLine f.content index front line after) :
    f.lineStarts[index]? = some front.byteSize := by
  obtain ⟨starts, rfl, hstarts⟩ := h.lineStarts_eq
  rw [hstarts, List.getElem?_append_right (Nat.le_refl _), Nat.sub_self]
  rfl

/-- The start of the next line, if there is one. -/
theorem lineStarts_next (h : CutAtLine f.content index front line after) :
    f.lineStarts[index + 1]? =
      (startsAfterBreaks (front.byteSize + line.byteSize) after)[0]? := by
  obtain ⟨starts, rfl, hstarts⟩ := h.lineStarts_eq
  rw [hstarts, List.getElem?_append_right (Nat.le_succ _), Nat.succ_sub (Nat.le_refl _),
    Nat.sub_self]
  rfl

theorem lineStop_eq (h : CutAtLine f.content index front line after) :
    f.lineStop index = front.byteSize + line.byteSize := by
  unfold SourceFile.lineStop
  rw [h.lineStarts_next]
  rcases h.ends with rfl | ⟨next, rfl⟩
  · show f.content.byteSize = _
    rw [h.cut, List.append_nil, Text.byteSize_append]
  · exact Nat.add_sub_cancel _ 1

theorem slice_eq (h : CutAtLine f.content index front line after) :
    f.content.slice? front.byteSize (f.lineStop index) = some line := by
  rw [h.lineStop_eq, h.cut]
  exact Text.slice?_append front line after

theorem line_eq (h : CutAtLine f.content index front line after) :
    f.line (index + 1) = .ok line.dropReturn := by
  unfold SourceFile.line
  simp only [h.lineStarts_index, h.slice_eq]

/-- The line is the piece between line feeds with its index. -/
theorem splitOn_eq {t : Text} (h : CutAtLine t index front line after) :
    (t.splitOn '\n')[index]? = some line := by
  have hhead : ((line ++ after).splitOn '\n')[0]? = some line := by
    rcases h.ends with rfl | ⟨next, rfl⟩
    · rw [List.append_nil, splitOn_of_no_line_feed h.no_line_feed]
      rfl
    · rw [splitOn_append, splitOn_of_no_line_feed h.no_line_feed]
      rfl
  rcases h.closed with rfl | ⟨before, rfl⟩
  · rw [h.cut, ← h.index_eq]
    exact hhead
  · have hlength : (before.splitOn '\n').length = index := by
      rw [length_splitOn, ← h.index_eq, List.count_append]
      rfl
    rw [h.cut, List.append_assoc, List.singleton_append, splitOn_append, ← hlength,
      List.getElem?_append_right (Nat.le_refl _), Nat.sub_self]
    exact hhead

end CutAtLine

/-! ## Places -/

/-- A place stands in the line whose index is the number of line feeds in front of it. -/
theorem exists_line_of_place {t before after : Text} (h : t = before ++ after) :
    ∃ front column rest next, before = front ++ column ∧
      CutAtLine t (before.count '\n') front (column ++ rest) next := by
  -- the line is the last one of the text in front of the place, as far as the next line feed
  obtain ⟨front, column, more, hcut⟩ := exists_cutAtLine (Nat.le_refl (before.count '\n'))
  obtain ⟨rest, next, hafter, hrest, hnext⟩ := exists_first_line after
  have hmore : more = [] := by
    rcases hcut.ends with hmore | ⟨u, rfl⟩
    · exact hmore
    · have hcount := congrArg (List.count '\n') hcut.cut
      rw [List.count_append, List.count_append, List.count_cons_self, hcut.index_eq] at hcount
      omega
  have hbefore : before = front ++ column := by rw [hcut.cut, hmore, List.append_nil]
  refine ⟨front, column, rest, next, hbefore, ?_, hcut.closed, hcut.index_eq, ?_, hnext⟩
  · rw [h, hbefore, hafter]
    simp
  · rw [List.mem_append, not_or]
    exact ⟨hcut.no_line_feed, hrest⟩

theorem Position.line_advancedOver (p : Position) (t : Text) :
    (p.advancedOver t).line = p.line + t.count '\n' := by
  rw [advancedOver_eq_counted]
  rfl

theorem Position.column_advancedOver {t : Text} (h : '\n' ∉ t) (p : Position) :
    (p.advancedOver t).column = p.column + t.length := by
  have hall : t.reverse.takeWhile (· ≠ '\n') = t.reverse :=
    List.takeWhile_eq_self_iff.mpr fun c hc => decide_eq_true fun heq =>
      h (heq ▸ List.mem_reverse.mp hc)
  rw [advancedOver_eq_counted, counted, if_neg h, hall, List.length_reverse]

/-- The column counts the characters since the last line feed. -/
theorem column_of_line {front column : Text}
    (hclosed : front = [] ∨ ∃ before, front = before ++ ['\n']) (hcolumn : '\n' ∉ column) :
    (Position.start.advancedOver (front ++ column)).column = column.length + 1 := by
  rw [Position.advancedOver_append, Position.column_advancedOver hcolumn]
  rcases hclosed with rfl | ⟨before, rfl⟩
  · exact Nat.add_comm 1 _
  · rw [Position.advancedOver_append]
    exact Nat.add_comm 1 _

theorem line_of_place (before : Text) :
    (Position.start.advancedOver before).line = before.count '\n' + 1 := by
  rw [Position.line_advancedOver]
  exact Nat.add_comm 1 _

/-- A place and the table agree: the place stands in its line, and its column counts the characters
from the start of the line. -/
structure StandsInLine (f : SourceFile) (offset : Nat) (p : Position) : Prop where
  line_pos : 1 ≤ p.line
  line_le : p.line ≤ f.lineCount
  column : ∃ start text, f.lineStarts[p.line - 1]? = some start ∧ start ≤ offset ∧
    f.content.slice? start offset = some text ∧ p.column = text.length + 1
  before_next : ∀ next, f.lineStarts[p.line]? = some next → offset < next

theorem standsInLine {f : SourceFile} {before after : Text} (h : f.content = before ++ after) :
    StandsInLine f before.byteSize (Position.start.advancedOver before) := by
  obtain ⟨front, column, rest, next, hbefore, hcut⟩ := exists_line_of_place h
  have hline := line_of_place before
  have hcolumn : '\n' ∉ column := fun hc => hcut.no_line_feed (List.mem_append_left _ hc)
  constructor
  · omega
  · rw [hline, f.lineCount_eq, h, List.count_append]
    omega
  · refine ⟨front.byteSize, column, ?_, ?_, ?_, ?_⟩
    · rw [hline, Nat.add_sub_cancel]
      exact hcut.lineStarts_index
    · rw [hbefore, Text.byteSize_append]
      exact Nat.le_add_right _ _
    · rw [h, hbefore, Text.byteSize_append, List.append_assoc]
      exact Text.slice?_append front column after
    · rw [hbefore, column_of_line hcut.closed hcolumn]
  · intro start hstart
    rw [hline, hcut.lineStarts_next] at hstart
    rcases hcut.ends with rfl | ⟨u, rfl⟩
    · cases hstart
    · obtain rfl : _ + 1 = start := Option.some.inj hstart
      rw [hbefore, Text.byteSize_append, Text.byteSize_append]
      omega

/-! ## The bytes of a text -/

/-- The byte of a line feed is in no form but that of a line feed. -/
theorem eq_line_feed_of_mem_form {c : Char} (h : 10 ∈ String.utf8EncodeChar c) : c = '\n' := by
  have hlate : ∀ {n : Nat}, 0x80 ≤ n → n < 256 → (10 : UInt8) ≠ UInt8.ofNat n := by
    intro n hn hlt heq
    have hten : (10 : UInt8).toNat = n := (Utf8.ofNat_eq_iff hlt 10).mp heq.symm
    rw [← hten] at hn
    exact absurd hn (by decide)
  rcases Utf8.form_cases c with ⟨-, hn, hform⟩ | ⟨-, -, hn, hform⟩ | ⟨-, -, hn, hform⟩ |
    ⟨-, -, hn, hform⟩
  · rw [hform, List.mem_singleton, eq_comm, Utf8.ofNat_eq_iff (by omega)] at h
    rw [← Char.ofNat_toNat c, ← h]
    rfl
  all_goals
    rw [hform] at h
    simp only [List.mem_cons, List.not_mem_nil, or_false] at h
  · rcases h with h | h <;> exact absurd h (hlate (by omega) (by omega))
  · rcases h with h | h | h <;> exact absurd h (hlate (by omega) (by omega))
  · rcases h with h | h | h | h <;> exact absurd h (hlate (by omega) (by omega))

theorem startsAfterBreaks_eq_byte_scan (offset : Nat) (t : Text) :
    startsAfterBreaks offset t =
      (((Utf8.encode t).zipIdx offset).filter (·.1 = 10)).map (·.2 + 1) := by
  induction t generalizing offset with
  | nil => rfl
  | cons c t ih =>
    have hcons : Utf8.encode (c :: t) = String.utf8EncodeChar c ++ Utf8.encode t := rfl
    rw [startsAfterBreaks, hcons, List.zipIdx_append, List.filter_append, List.map_append,
      String.length_utf8EncodeChar, ← ih]
    by_cases hc : c = '\n'
    · rw [hc]
      rfl
    · have hnone : ((String.utf8EncodeChar c).zipIdx offset).filter (·.1 = 10) = [] := by
        refine List.filter_eq_nil_iff.mpr fun x hx hten => hc (eq_line_feed_of_mem_form ?_)
        rw [← of_decide_eq_true hten]
        exact List.fst_mem_of_mem_zipIdx hx
      rw [hnone, if_neg hc]
      rfl

/-! ## Lines -/

/-- Looking a line up by its number gives the piece between line feeds with that number, without
one carriage return at its end. -/
structure LineFound (f : SourceFile) (number : Nat) (text : Text) : Prop where
  found : f.line number = .ok text
  piece : ∃ start line, f.lineStarts[number - 1]? = some start ∧
    f.content.slice? start (f.lineStop (number - 1)) = some line ∧
    (f.content.splitOn '\n')[number - 1]? = some line ∧
    (line = text ++ ['\r'] ∨ (line = text ∧ line.getLast? ≠ some '\r'))

theorem dropReturn_cases (t : Text) :
    t = t.dropReturn ++ ['\r'] ∨ (t = t.dropReturn ∧ t.getLast? ≠ some '\r') := by
  unfold Text.dropReturn
  by_cases h : t.getLast? = some '\r'
  · obtain ⟨front, rfl⟩ := List.getLast?_eq_some_iff.mp h
    rw [if_pos h, List.dropLast_concat]
    exact .inl rfl
  · rw [if_neg h]
    exact .inr ⟨rfl, h⟩

theorem lineFound {f : SourceFile} {number : Nat} (hpos : 1 ≤ number)
    (hle : number ≤ f.lineCount) : ∃ text, LineFound f number text := by
  obtain ⟨index, rfl⟩ : ∃ index, number = index + 1 := ⟨number - 1, by omega⟩
  rw [f.lineCount_eq] at hle
  obtain ⟨front, line, after, hcut⟩ := exists_cutAtLine (Nat.le_of_succ_le_succ hle)
  exact ⟨line.dropReturn, hcut.line_eq, front.byteSize, line, hcut.lineStarts_index,
    hcut.slice_eq, hcut.splitOn_eq, dropReturn_cases line⟩

theorem line_missing {f : SourceFile} {number : Nat} (h : number = 0 ∨ f.lineCount < number) :
    f.line number = .error ⟨number, f.lineCount⟩ := by
  cases number with
  | zero => rfl
  | succ index =>
    have hnone : f.lineStarts[index]? = none := by
      have hlength : f.lineStarts.length = f.lineCount := rfl
      rw [List.getElem?_eq_none_iff]
      omega
    simp only [SourceFile.line, hnone]

/-- The line of a place is found. -/
theorem lineFound_of_place {f : SourceFile} {before after : Text}
    (h : f.content = before ++ after) :
    ∃ text, LineFound f (Position.start.advancedOver before).line text :=
  lineFound (standsInLine h).line_pos (standsInLine h).line_le

/-! ## The law of the table -/

/-- The table of a file and the places in it tell of the same lines. -/
structure LineTable (f : SourceFile) : Prop where
  byte_scan : f.lineStarts =
    0 :: ((Utf8.encode f.content).zipIdx.filter (·.1 = 10)).map (·.2 + 1)
  places : ∀ before after, f.content = before ++ after →
    StandsInLine f before.byteSize (Position.start.advancedOver before)
  count : f.lineCount = f.content.count '\n' + 1
  last : f.lineCount = (Position.start.advancedOver f.content).line
  found : ∀ number, 1 ≤ number → number ≤ f.lineCount → ∃ text, LineFound f number text
  missing : ∀ number, number = 0 ∨ f.lineCount < number →
    f.line number = .error ⟨number, f.lineCount⟩
  tokens : ∀ t ∈ (tokenize f.content).tokens, ∃ text, LineFound f t.start.line text
  errors : ∀ e ∈ (tokenize f.content).errors, ∃ text, LineFound f e.position.line text

/-- Whatever a file holds, its line table and the positions in it agree, and the line of each token
and of each error is found. -/
theorem the_table_and_the_places_agree (f : SourceFile) : LineTable f where
  byte_scan := by rw [SourceFile.lineStarts, startsAfterBreaks_eq_byte_scan]
  places _ _ h := standsInLine h
  count := f.lineCount_eq
  last := by rw [f.lineCount_eq, line_of_place]
  found _ hpos hle := lineFound hpos hle
  missing _ h := line_missing h
  tokens t ht := by
    obtain ⟨⟨before, after, hstart⟩, -⟩ := token_is_recomputed ht
    rw [hstart.advanced]
    exact lineFound_of_place (Text.append_of_splitAt? hstart.cut).symm
  errors e he := by
    obtain ⟨before, after, hcontent, hposition⟩ := error_quotes_source he
    rw [hposition]
    exact lineFound_of_place hcontent

end Lexis
