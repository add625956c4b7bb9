-- The law of the carriage returns: it does not matter whether the lines of a source end in a line
-- feed or in a carriage return and a line feed. The tokens and the errors are the same, at the same
-- lines and columns, unless a string is cut off by the end of its line.
import Lexis.Proofs.BlankComments
import Mathlib.Data.List.Forall2

namespace Lexis

/-! ## Lines that end in a carriage return -/

/-- A text with a carriage return in front of each of its line feeds. -/
def withReturns (t : Text) : Text := t.flatMap fun c => if c = '\n' then ['\r', '\n'] else [c]

/-- The kind and the text of a comment that goes on to the end of its line. -/
def IsLineComment (kind : TokenKind) (text : Text) : Prop := kind = .comment ∧ ['/', '/'] <+: text

/-- The token is a line comment that a line feed follows in the source. -/
def Token.ReachesLineFeed (source : Text) (t : Token) : Prop :=
  IsLineComment t.kind t.lexeme ∧ ∃ rest, Follows source t ('\n' :: rest)

/-- A token of a source, and what it is in the source with carriage returns. A line comment takes
the carriage return at its end along. -/
structure Token.Returned (source : Text) (t t' : Token) : Prop where
  kind : t'.kind = t.kind
  value : t'.value = t.value
  place : t'.start.place = t.start.place
  line_comment : t.ReachesLineFeed source → t'.lexeme = withReturns t.lexeme ++ ['\r']
  lexeme : ¬ t.ReachesLineFeed source → t'.lexeme = withReturns t.lexeme

/-- An error of a source, and what it is in the source with carriage returns. -/
structure LexicalError.Returned (e e' : LexicalError) : Prop where
  kind : e'.kind = e.kind
  place : e'.position.place = e.position.place
  text : e'.text = withReturns e.text

/-- The scans of a source and of the source with carriage returns are alike. -/
structure SameWithReturns (source : Text) (s s' : ScanResult) : Prop where
  tokens : List.Forall₂ (Token.Returned source) s.tokens s'.tokens
  errors : List.Forall₂ LexicalError.Returned s.errors s'.errors

/-! ## Texts with carriage returns -/

@[simp] theorem withReturns_nil : withReturns [] = [] := rfl

@[simp] theorem withReturns_line_feed (t : Text) :
    withReturns ('\n' :: t) = '\r' :: '\n' :: withReturns t := rfl

theorem withReturns_cons {c : Char} (hc : c ≠ '\n') (t : Text) :
    withReturns (c :: t) = c :: withReturns t := by
  simp [withReturns, hc]

@[simp] theorem withReturns_append (s t : Text) :
    withReturns (s ++ t) = withReturns s ++ withReturns t := List.flatMap_append

theorem withReturns_eq_self {t : Text} (h : '\n' ∉ t) : withReturns t = t := by
  induction t with
  | nil => rfl
  | cons c t ih =>
    rw [List.mem_cons, not_or] at h
    rw [withReturns_cons (Ne.symm h.1), ih h.2]

theorem prefix_of_withReturns {short t : Text} (hshort : '\r' ∉ short)
    (h : short <+: withReturns t) : short <+: t := by
  induction t generalizing short with
  | nil => exact h
  | cons c t ih =>
    cases short with
    | nil => exact List.nil_prefix
    | cons d short =>
      rw [List.mem_cons, not_or] at hshort
      by_cases hc : c = '\n'
      · rw [hc, withReturns_line_feed, List.cons_prefix_cons] at h
        exact absurd h.1.symm hshort.1
      · rw [withReturns_cons hc, List.cons_prefix_cons] at h
        exact List.cons_prefix_cons.mpr ⟨h.1, ih hshort.2 h.2⟩

theorem stops_withReturns {p : Char → Bool} {t : Text} (h : Stops p t) (hp : p '\r' = false) :
    Stops p (withReturns t) := by
  cases t with
  | nil => exact h
  | cons c t =>
    by_cases hc : c = '\n'
    · rw [hc, withReturns_line_feed]
      exact stops_cons_iff.mpr hp
    · rw [withReturns_cons hc]
      exact stops_cons_iff.mpr (stops_cons_iff.mp h)

/-- Only a text that begins with a character begins with it when carriage returns are put in. -/
theorem withReturns_eq_cons {c : Char} {t r : Text} (hc : c ≠ '\r')
    (h : withReturns t = c :: r) : ∃ u, t = c :: u ∧ r = withReturns u := by
  cases t with
  | nil => cases h
  | cons d t =>
    by_cases hd : d = '\n'
    · rw [hd, withReturns_line_feed] at h
      exact absurd (List.cons.inj h).1.symm hc
    · rw [withReturns_cons hd] at h
      obtain ⟨rfl, rfl⟩ := List.cons.inj h
      exact ⟨t, rfl, rfl⟩

theorem looksLike_withReturns (rest : Text) : LooksLike rest (withReturns rest) where
  word hstop := stops_withReturns hstop (by decide)
  digit hstop := stops_withReturns hstop (by decide)
  point := by
    constructor
    · intro h
      obtain ⟨r, hr⟩ := List.head?_eq_some_iff.mp h
      obtain ⟨u, rfl, -⟩ := withReturns_eq_cons (by decide) hr
      rfl
    · intro h
      obtain ⟨r, rfl⟩ := List.head?_eq_some_iff.mp h
      rfl
  after_point := by
    intro more' h
    obtain ⟨more, rfl, rfl⟩ := withReturns_eq_cons (by decide) h
    exact ⟨more, rfl, fun hstop => stops_withReturns hstop (by decide)⟩
  reach := by
    intro front short _ _ hno hp
    rcases List.prefix_or_prefix_of_prefix hp (List.prefix_append front _) with hle | ⟨more, rfl⟩
    · exact hle.trans (List.prefix_append front rest)
    · rw [List.prefix_append_right_inj] at hp ⊢
      have hreturn : '\r' ∉ more := fun hmem =>
        List.any_eq_false.mp hno '\r' (List.mem_append_right _ hmem) rfl
      exact prefix_of_withReturns hreturn hp

/-! ## Comments with carriage returns -/

/-- What is read of a block comment, in the text with carriage returns. -/
def BlockBody.returned (b : BlockBody) : BlockBody :=
  ⟨withReturns b.text, b.rest.map withReturns⟩

theorem BlockBody.returned_after (front : Text) (b : BlockBody) :
    (b.after front).returned = b.returned.after (withReturns front) := by
  simp [returned, after]

/-- A carriage return opens and closes no comment, so all markers stand where they stood. -/
theorem readBlockBody_withReturns (depth : Nat) (r : Text) :
    readBlockBody depth (withReturns r) = (readBlockBody depth r).returned := by
  fun_induction readBlockBody depth r with
  | case1 => rfl
  | case2 depth r ih => rw [BlockBody.returned_after, ← ih]; rfl
  | case3 r => rfl
  | case4 depth r ih => rw [BlockBody.returned_after, ← ih]; rfl
  | case5 depth c r hopen hclose hclose' ih =>
    obtain ⟨ho, hc⟩ := no_marker hopen hclose hclose'
    rw [BlockBody.returned_after, ← ih]
    by_cases hn : c = '\n'
    · rw [hn, withReturns_line_feed, readBlockBody_char, readBlockBody_char, BlockBody.after_after]
      · rfl
      all_goals simp
    · rw [withReturns_cons hn, withReturns_cons hn, withReturns_nil, readBlockBody_char]
      all_goals rw [← withReturns_cons hn]
      · exact fun hp => ho (prefix_of_withReturns (by decide) hp)
      · exact fun hp => hc (prefix_of_withReturns (by decide) hp)

theorem isBlockComment_withReturns {t : Text} (h : IsBlockComment t) :
    IsBlockComment (withReturns t) := by
  obtain ⟨u, rfl, -⟩ := id h
  have hread := readBlockBody_withReturns 0 (u ++ [])
  rw [readBlockBody_of_isBlockComment h, List.append_nil] at hread
  exact isBlockComment_of_readBlockBody hread

/-! ## Lexemes with carriage returns -/

def Fault.returned (f : Fault) : Fault := ⟨f.kind, withReturns f.before, withReturns f.text⟩

/-- A lexeme with carriage returns in its text and in the texts of its faults. -/
def Lexeme.returned (l : Lexeme) : Lexeme :=
  ⟨l.kind, withReturns l.text, l.value, l.faults.map Fault.returned⟩

theorem Lexeme.Stands.returned_eq {l : Lexeme} {rest : Text} (h : l.Stands rest)
    (hn : '\n' ∉ l.text) : l.returned = l := by
  have hfaults : ∀ f ∈ l.faults, f.returned = f := by
    intro f hf
    have hplace : '\n' ∉ f.before ∧ '\n' ∉ f.text := by
      rcases h.fault_place hf with ⟨-, more, hmore⟩ | ⟨-, hbefore, hpoint, -⟩
      · rw [← hmore, List.mem_append, List.mem_append, not_or, not_or] at hn
        exact hn.1
      · rw [hbefore, hpoint]
        exact ⟨hn, by decide⟩
    rw [Fault.returned, withReturns_eq_self hplace.1, withReturns_eq_self hplace.2]
  rw [Lexeme.returned, withReturns_eq_self hn, List.map_congr_left hfaults, List.map_id']

theorem no_line_feed_in_line_comment {t : Text} (ht : ∀ c ∈ t, c ≠ '\n') :
    '\n' ∉ '/' :: '/' :: t := by
  simpa using fun hmem => ht _ hmem rfl

/-- A lexeme stands again with carriage returns in it and after it. A string has to be closed, and
a line comment must not take the carriage return of the next line feed. -/
theorem Lexeme.Stands.returned {l : Lexeme} {rest : Text} (h : l.Stands rest)
    (hclosed : ∀ f ∈ l.faults, f.kind ≠ .unterminatedString)
    (hline : IsLineComment l.kind l.text → rest.head? ≠ some '\n') :
    l.returned.Stands (withReturns rest) := by
  by_cases hk : l.kind = .comment
  · have hsame := h.returned_eq
    cases h with
    | word => exact absurd hk (wordKind_ne (by simp) (by simp))
    | @lineComment t _ ht hstop =>
      rcases eq_nil_or_line_feed hstop with rfl | ⟨r, rfl⟩
      · rw [hsame (no_line_feed_in_line_comment ht)]
        exact .lineComment ht hstop
      · exact absurd rfl (hline ⟨rfl, ⟨t, rfl⟩⟩)
    | blockComment hblock => exact .blockComment (isBlockComment_withReturns hblock)
    | @openComment r hopen =>
      have hread : (readBlockBody 0 (withReturns r)).rest = none := by
        rw [readBlockBody_withReturns, BlockBody.returned,
          rest_readBlockBody_eq_none_iff.mpr hopen]
        rfl
      exact .openComment (rest_readBlockBody_eq_none_iff.mp hread)
    | _ => cases hk
  · rw [h.returned_eq (h.no_line_feed hk)]
    refine h.of_looksLike hk (looksLike_withReturns rest) ?_
    rintro ⟨f, hf, hcut⟩
    exact absurd hcut (hclosed f hf)

/-- A line comment that takes the carriage return of the line feed after it along. -/
def Lexeme.extended (l : Lexeme) : Lexeme :=
  { l.returned with text := withReturns l.text ++ ['\r'] }

theorem Lexeme.Stands.extended {l : Lexeme} {rest : Text} (h : l.Stands rest)
    (hl : IsLineComment l.kind l.text) (rest' : Text) : l.extended.Stands ('\n' :: rest') := by
  cases h with
  | word => exact absurd hl.1 (wordKind_ne (by simp) (by simp))
  | @lineComment t _ ht _ =>
    have hsame : Lexeme.extended (.plain .comment ('/' :: '/' :: t)) =
        .plain .comment ('/' :: '/' :: (t ++ ['\r'])) := by
      simp [Lexeme.extended, Lexeme.returned, Lexeme.plain,
        withReturns_eq_self (no_line_feed_in_line_comment ht)]
    rw [hsame]
    refine .lineComment ?_ (stops_cons_iff.mpr rfl)
    intro c hc
    rcases List.mem_append.mp hc with hc | hc
    · exact ht c hc
    · rw [List.mem_singleton.mp hc]
      decide
  | blockComment hblock =>
    obtain ⟨u, rfl, -⟩ := hblock
    exact absurd hl.2 (by simp [Lexeme.plain])
  | openComment => exact absurd hl.2 (by simp [Lexis.openComment])
  | _ => cases hl.1

/-! ## Pieces with carriage returns -/

/-- A piece with carriage returns in it. A line feed alone stays as it is. -/
def Piece.returned : Piece → Piece
  | lexeme l => .lexeme l.returned
  | x => x

/-- The pieces of a text, and those of the text with carriage returns. -/
inductive ReturnedPieces : List Piece → List Piece → Prop
  | nil : ReturnedPieces [] []
  | lineFeed {ps ps' : List Piece} : ReturnedPieces ps ps' →
      ReturnedPieces (.blank '\n' :: ps) (.blank '\r' :: .blank '\n' :: ps')
  | lineComment {l : Lexeme} {ps ps' : List Piece} : IsLineComment l.kind l.text →
      ReturnedPieces ps ps' →
      ReturnedPieces (.lexeme l :: .blank '\n' :: ps) (.lexeme l.extended :: .blank '\n' :: ps')
  | piece {x : Piece} {ps ps' : List Piece} : x.text ≠ ['\n'] →
      (∀ l, x = .lexeme l → IsLineComment l.kind l.text → (textOf ps).head? ≠ some '\n') →
      ReturnedPieces ps ps' → ReturnedPieces (x :: ps) (x.returned :: ps')

theorem Piece.text_returned {x : Piece} (hx : x.text ≠ ['\n']) :
    x.returned.text = withReturns x.text := by
  cases x with
  | lexeme l => rfl
  | blank c =>
    have hc : c ≠ '\n' := fun heq => hx (heq ▸ rfl)
    exact (withReturns_cons hc []).symm
  | stray c =>
    have hc : c ≠ '\n' := fun heq => hx (heq ▸ rfl)
    exact (withReturns_cons hc []).symm

namespace ReturnedPieces

variable {ps ps' : List Piece}

theorem textOf_eq (h : ReturnedPieces ps ps') : textOf ps' = withReturns (textOf ps) := by
  induction h with
  | nil => rfl
  | lineFeed _ ih => rw [textOf_cons, textOf_cons, textOf_cons, withReturns_append, ih]; rfl
  | lineComment _ _ ih =>
    simp only [textOf_cons, withReturns_append, ih, Piece.text, Lexeme.extended, List.append_assoc]
    rfl
  | piece hx _ _ ih => rw [textOf_cons, textOf_cons, withReturns_append, Piece.text_returned hx, ih]

theorem wellLaid (h : ReturnedPieces ps ps') (hps : WellLaid ps)
    (hclosed : ∀ l, .lexeme l ∈ ps → ∀ f ∈ l.faults, f.kind ≠ .unterminatedString) :
    WellLaid ps' := by
  induction h with
  | nil => exact .nil
  | lineFeed _ ih =>
    cases hps with
    | cons _ hrest =>
      have hlaid := ih hrest fun l hl => hclosed l (List.mem_cons_of_mem _ hl)
      exact .cons (.blank rfl) (.cons (.blank rfl) hlaid)
  | lineComment hl _ ih =>
    cases hps with
    | cons hcomment hrest =>
      cases hcomment with
      | lexeme hcomment =>
        cases hrest with
        | cons _ hrest =>
          have hlaid := ih hrest fun l hl =>
            hclosed l (List.mem_cons_of_mem _ (List.mem_cons_of_mem _ hl))
          exact .cons (.lexeme (hcomment.extended hl _)) (.cons (.blank rfl) hlaid)
  | @piece x ps ps' hx hline hps' ih =>
    cases hps with
    | cons hstands hrest =>
      refine .cons ?_ (ih hrest fun l hl => hclosed l (List.mem_cons_of_mem _ hl))
      rw [hps'.textOf_eq]
      cases x with
      | lexeme l =>
        cases hstands with
        | lexeme hstands =>
          exact .lexeme (hstands.returned (hclosed l List.mem_cons_self) (hline l rfl))
      | blank c => exact hstands.of_looksLike (by simp) (looksLike_withReturns _) (by simp)
      | stray c => exact hstands.of_looksLike (by simp) (looksLike_withReturns _) (by simp)

end ReturnedPieces

/-- Only a line feed begins with a line feed. -/
theorem Piece.Stands.eq_line_feed {x : Piece} {rest : Text} (h : x.Stands rest)
    (hhead : x.text.head? = some '\n') : x = .blank '\n' := by
  cases h with
  | blank => exact congrArg Piece.blank (Option.some.inj hhead)
  | @stray c _ hb =>
    rw [Option.some.inj hhead] at hb
    cases hb
  | lexeme hl =>
    obtain ⟨c, t, ht, hb⟩ := hl.first
    rw [Piece.text, ht] at hhead
    rw [Option.some.inj hhead] at hb
    cases hb

theorem WellLaid.of_line_feed {ps : List Piece} (h : WellLaid ps)
    (hhead : (textOf ps).head? = some '\n') : ∃ qs, ps = .blank '\n' :: qs := by
  cases h with
  | nil => cases hhead
  | @cons x qs hx _ =>
    rw [textOf_cons, List.head?_append_of_ne_nil _ hx.text_ne_nil] at hhead
    exact ⟨qs, by rw [hx.eq_line_feed hhead]⟩

/-- The pieces of any text have pieces of the text with carriage returns beside them. -/
theorem WellLaid.returnedPieces {ps : List Piece} (h : WellLaid ps) :
    ∃ ps', ReturnedPieces ps ps' := by
  induction h with
  | nil => exact ⟨[], .nil⟩
  | @cons x ps hx hps ih =>
    obtain ⟨ps', hps'⟩ := ih
    by_cases hfeed : x.text = ['\n']
    · rw [hx.eq_line_feed (by rw [hfeed]; rfl)]
      exact ⟨_, .lineFeed hps'⟩
    · by_cases hline : ∃ l, x = .lexeme l ∧ IsLineComment l.kind l.text ∧
          (textOf ps).head? = some '\n'
      · obtain ⟨l, rfl, hl, hhead⟩ := hline
        obtain ⟨qs, rfl⟩ := hps.of_line_feed hhead
        -- the carriage return in front of this line feed goes to the comment
        cases hps' with
        | lineFeed hqs => exact ⟨_, .lineComment hl hqs⟩
        | piece hne => exact absurd rfl hne
      · exact ⟨_, .piece hfeed (fun l hx hl hhead => hline ⟨l, hx, hl, hhead⟩) hps'⟩

/-! ## Lines and columns -/

theorem Position.line_eq_of_place {p q : Position} (h : p.place = q.place) : p.line = q.line :=
  congrArg Prod.fst h

/-- After a line feed only the line matters. -/
theorem Position.place_line_feed {p q : Position} (h : p.line = q.line) :
    (p.advance '\n').place = (q.advance '\n').place := by
  simp [place, advance, h]

/-- A carriage return in front of a line feed moves nothing behind the line feed. -/
theorem Position.place_withReturns {p q : Position} (h : p.place = q.place) (t : Text) :
    (p.advancedOver t).place = (q.advancedOver (withReturns t)).place := by
  induction t generalizing p q with
  | nil => exact h
  | cons c t ih =>
    by_cases hc : c = '\n'
    · have hline : p.line = q.line := line_eq_of_place h
      rw [hc, withReturns_line_feed]
      exact ih (place_line_feed (q := q.advance '\r') hline)
    · rw [withReturns_cons hc]
      exact ih (place_advance Iff.rfl h)

/-! ## Tokens and errors with carriage returns -/

theorem reachesLineFeed_placed {before : Text} {l : Lexeme} {rest : Text} :
    (l.placed (Position.start.advancedOver before)).ReachesLineFeed (before ++ (l.text ++ rest)) ↔
      IsLineComment l.kind l.text ∧ rest.head? = some '\n' := by
  have hfollows := follows_placed before l rest
  constructor
  · rintro ⟨hl, rest', hrest'⟩
    rw [hfollows.unique hrest']
    exact ⟨hl, rfl⟩
  · rintro ⟨hl, hhead⟩
    obtain ⟨r, rfl⟩ := List.head?_eq_some_iff.mp hhead
    exact ⟨hl, r, hfollows⟩

theorem returned_placed {before : Text} {l : Lexeme} {rest : Text} {q : Position}
    (hline : IsLineComment l.kind l.text → rest.head? ≠ some '\n')
    (hq : (Position.start.advancedOver before).place = q.place) :
    Token.Returned (before ++ (l.text ++ rest)) (l.placed (Position.start.advancedOver before))
      (l.returned.placed q) where
  kind := rfl
  value := rfl
  place := hq.symm
  line_comment hreach := by
    obtain ⟨hl, hhead⟩ := reachesLineFeed_placed.mp hreach
    exact absurd hhead (hline hl)
  lexeme _ := rfl

theorem extended_placed {before : Text} {l : Lexeme} {rest : Text} {q : Position}
    (hl : IsLineComment l.kind l.text) (hhead : rest.head? = some '\n')
    (hq : (Position.start.advancedOver before).place = q.place) :
    Token.Returned (before ++ (l.text ++ rest)) (l.placed (Position.start.advancedOver before))
      (l.extended.placed q) where
  kind := rfl
  value := rfl
  place := hq.symm
  line_comment _ := rfl
  lexeme hreach := absurd (reachesLineFeed_placed.mpr ⟨hl, hhead⟩) hreach

theorem errors_returned {p q : Position} (hq : p.place = q.place) (l : Lexeme) :
    List.Forall₂ LexicalError.Returned (l.faults.map (Fault.placed p))
      (l.returned.faults.map (Fault.placed q)) := by
  rw [Lexeme.returned, List.map_map, List.forall₂_map_left_iff, List.forall₂_map_right_iff,
    List.forall₂_same]
  exact fun f _ => ⟨rfl, (Position.place_withReturns hq f.before).symm, rfl⟩

/-- A line comment and its line feed end at the same place with and without the carriage return. -/
theorem place_extended {p q : Position} (hq : p.place = q.place) (l : Lexeme) :
    ((p.advancedOver l.text).advancedOver ['\n']).place =
      ((q.advancedOver l.extended.text).advancedOver ['\n']).place := by
  have hline := Position.line_eq_of_place (Position.place_withReturns hq l.text)
  have htext : l.extended.text = withReturns l.text ++ ['\r'] := rfl
  rw [htext, Position.advancedOver_append]
  exact Position.place_line_feed hline

namespace ReturnedPieces

variable {ps ps' : List Piece} {source before : Text} {q : Position}

theorem tokens (h : ReturnedPieces ps ps') (hsource : source = before ++ textOf ps)
    (hq : (Position.start.advancedOver before).place = q.place) :
    List.Forall₂ (Token.Returned source) (tokensOf (Position.start.advancedOver before) ps)
      (tokensOf q ps') := by
  induction h generalizing before q with
  | nil => exact .nil
  | @lineFeed ps _ _ ih =>
    have hcut : source = (before ++ ['\n']) ++ textOf ps := by
      rw [hsource, List.append_assoc]
      rfl
    have hnext := Position.place_withReturns hq ['\n']
    rw [← Position.advancedOver_append] at hnext
    have hrest := ih hcut hnext
    rw [Position.advancedOver_append] at hrest
    exact hrest
  | @lineComment l ps _ hl _ ih =>
    have hcut : source = (before ++ (l.text ++ ['\n'])) ++ textOf ps := by
      rw [hsource, List.append_assoc, List.append_assoc]
      rfl
    have hnext : (Position.start.advancedOver (before ++ (l.text ++ ['\n']))).place =
        ((q.advancedOver l.extended.text).advancedOver ['\n']).place := by
      rw [Position.advancedOver_append, Position.advancedOver_append]
      exact place_extended hq l
    have hrest := ih hcut hnext
    rw [Position.advancedOver_append, Position.advancedOver_append] at hrest
    refine .cons ?_ hrest
    rw [hsource]
    exact extended_placed hl rfl hq
  | @piece x ps _ hx hline _ ih =>
    have hcut : source = (before ++ x.text) ++ textOf ps := by
      rw [hsource, List.append_assoc]
      rfl
    have hnext := Position.place_withReturns hq x.text
    rw [← Position.advancedOver_append, ← Piece.text_returned hx] at hnext
    have hrest := ih hcut hnext
    rw [Position.advancedOver_append] at hrest
    refine List.rel_append ?_ hrest
    rw [hsource]
    cases x with
    | blank => exact .nil
    | stray => exact .nil
    | lexeme l => exact .cons (returned_placed (hline l rfl) hq) .nil

theorem errors (h : ReturnedPieces ps ps') {p : Position} (hq : p.place = q.place) :
    List.Forall₂ LexicalError.Returned (errorsOf p ps) (errorsOf q ps') := by
  induction h generalizing p q with
  | nil => exact .nil
  | lineFeed _ ih =>
    exact ih (Position.place_withReturns hq ['\n'])
  | @lineComment l _ _ _ _ ih =>
    exact List.rel_append (errors_returned hq l) (ih (place_extended hq l))
  | @piece x _ _ hx _ _ ih =>
    have hnext := Position.place_withReturns hq x.text
    rw [← Piece.text_returned hx] at hnext
    refine List.rel_append ?_ (ih hnext)
    cases x with
    | blank => exact .nil
    | stray c =>
      have hc : c ≠ '\n' := fun heq => hx (heq ▸ rfl)
      exact .cons ⟨rfl, hq.symm, (withReturns_cons hc []).symm⟩ .nil
    | lexeme l => exact errors_returned hq l

end ReturnedPieces

/-! ## The law of the carriage returns -/

/-- A source in which no string is cut off is the same program with carriage returns in front of
its line feeds. -/
theorem carriage_returns_change_nothing (source : Text)
    (h : ∀ e ∈ (tokenize source).errors, e.kind ≠ .unterminatedString) :
    SameWithReturns source (tokenize source) (tokenize (withReturns source)) := by
  obtain ⟨ps, hps⟩ := (wellLaid_pieces source).returnedPieces
  have hclosed : ∀ l, .lexeme l ∈ pieces source → ∀ f ∈ l.faults, f.kind ≠ .unterminatedString := by
    intro l hl f hf
    obtain ⟨front, back, hcut⟩ := List.append_of_mem hl
    refine h (f.placed (Position.start.advancedOver (textOf front))) ?_
    rw [errors_tokenize]
    exact mem_errorsOf.mpr ⟨front, .lexeme l, back, hcut, List.mem_map_of_mem hf⟩
  have hpieces : pieces (withReturns source) = ps := by
    refine pieces_iff.mpr ⟨?_, hps.wellLaid (wellLaid_pieces source) hclosed⟩
    rw [hps.textOf_eq, textOf_pieces]
  constructor
  · rw [tokens_tokenize, tokens_tokenize, hpieces]
    have hcut : source = [] ++ textOf (pieces source) := (textOf_pieces source).symm
    have htokens := hps.tokens hcut rfl
    have hend := Position.place_withReturns (p := .start) rfl source
    refine List.rel_append htokens (.cons ⟨rfl, rfl, hend.symm, ?_, fun _ => rfl⟩ .nil)
    rintro ⟨⟨hk, -⟩, -⟩
    cases hk
  · rw [errors_tokenize, errors_tokenize, hpieces]
    exact hps.errors rfl

theorem five_lines_with_carriage_returns :
    let source := "x1 // é\n/* a\n*/ 2.#\n\n'b' /*\n".toList
    (∀ e ∈ (tokenize source).errors, e.kind ≠ .unterminatedString) ∧
      (tokenize source).errors.length = 3 ∧
      SameWithReturns source (tokenize source) (tokenize (withReturns source)) := by
  intro source
  have h : ∀ e ∈ (tokenize source).errors, e.kind ≠ .unterminatedString := by decide +kernel
  exact ⟨h, by decide +kernel, carriage_returns_change_nothing source h⟩

end Lexis
