-- The law of the calls: however the calls on one lexer are mixed, its answers are read off the
-- finished scan, and all that matters is how many tokens have been handed out before.
import Lexis.Proofs.LexerRun
import Mathlib.Data.List.Infix

namespace Lexis

/-! ## Calls and replies -/

/-- The calls that a lexer answers. -/
inductive Call where
  | nextToken
  | next
  | drain
  | errors
  | location
deriving DecidableEq, Repr

inductive Reply where
  | token (t : Token)
  | token? (t : Option Token)
  | tokens (ts : List Token)
  | errors (es : List LexicalError)
  | location (p : Position)
deriving DecidableEq, Repr

namespace Reply

/-- The tokens that the reply hands out. -/
def handedOut : Reply → List Token
  | token t => [t]
  | token? t => t.toList
  | tokens ts => ts
  | _ => []

/-- The tokens that the reply hands out as an iterator. -/
def iterated : Reply → List Token
  | token? t => t.toList
  | tokens ts => ts
  | _ => []

end Reply

namespace Lexer

/-- The reply to a call, and the lexer after it. -/
def call (x : Lexer) : Call → Reply × Lexer
  | .nextToken => (.token x.nextToken.1, x.nextToken.2)
  | .next => (.token? x.next?.1, x.next?.2)
  | .drain => (.tokens x.drain.1, x.drain.2)
  | .errors => (.errors x.errors, x)
  | .location => (.location x.location, x)

/-- The replies to calls one after another. -/
def replies (x : Lexer) : List Call → List Reply
  | [] => []
  | c :: calls => (x.call c).1 :: (x.call c).2.replies calls

end Lexer

/-! ## The finished scan -/

/-- A finished scan, with the errors that are found when a number of its tokens is handed out. -/
structure Recording where
  origin : Position
  tokens : List Token
  last : Token
  found : Nat → List LexicalError

namespace Recording

/-- Where a number of tokens ends. -/
def place (r : Recording) : Nat → Position
  | 0 => r.origin
  | n + 1 => (r.tokens[n]?.getD r.last).stop

/-- The reply to a call when a number of tokens has been handed out, and that number after it. -/
def call (r : Recording) (n : Nat) : Call → Reply × Nat
  | .nextToken => (.token (r.tokens[n]?.getD r.last), min (n + 1) r.tokens.length)
  | .next => (.token? r.tokens[n]?, min (n + 1) r.tokens.length)
  | .drain => (.tokens (r.tokens.drop n), r.tokens.length)
  | .errors => (.errors (r.found n), n)
  | .location => (.location (r.place n), n)

def replies (r : Recording) (n : Nat) : List Call → List Reply
  | [] => []
  | c :: calls => (r.call n c).1 :: r.replies (r.call n c).2 calls

/-- The recording is that of the full scan of a source from an origin. -/
structure IsOf (r : Recording) (origin : Position) (source : Text) : Prop where
  origin_eq : r.origin = origin
  tokens_eq : r.tokens = (Lexer.withOrigin origin source).drain.1
  last_eq : r.last = Token.endOfFile (origin.advancedOver source)
  last_only : ∃ body, r.tokens = body ++ [r.last] ∧ ∀ t ∈ body, t.isEndOfFile = false
  found_none : r.found 0 = []
  found_grows : ∀ m n, m ≤ n → r.found m <+: r.found n
  found_all : r.found r.tokens.length = (Lexer.withOrigin origin source).drain.2.errors

/-! ## What a recording hands out -/

/-- One token and the tokens after it are the tokens that are left. -/
theorem toList_append_drop (r : Recording) (n : Nat) :
    r.tokens[n]?.toList ++ r.tokens.drop (min (n + 1) r.tokens.length) = r.tokens.drop n := by
  rcases Nat.lt_or_ge n r.tokens.length with hn | hn
  · rw [List.getElem?_eq_getElem hn, Nat.min_eq_left hn, List.drop_eq_getElem_cons hn]
    rfl
  · rw [List.getElem?_eq_none hn, Nat.min_eq_right (Nat.le_succ_of_le hn), List.drop_length,
      List.drop_eq_nil_of_le hn]
    rfl

/-- A call hands out the next tokens, or the last one once more. -/
theorem handedOut_call (r : Recording) (n : Nat) (c : Call) :
    (r.call n c).1.handedOut ++ r.tokens.drop (r.call n c).2 = r.tokens.drop n ∨
      (r.call n c).1.handedOut ++ r.tokens.drop (r.call n c).2 = r.tokens.drop n ++ [r.last] := by
  have hnext := r.toList_append_drop n
  cases c with
  | nextToken =>
    rcases Nat.lt_or_ge n r.tokens.length with hn | hn
    · rw [List.getElem?_eq_getElem hn] at hnext
      simp only [call, Reply.handedOut, List.getElem?_eq_getElem hn, Option.getD_some]
      exact .inl hnext
    · rw [List.getElem?_eq_none hn] at hnext
      simp only [call, Reply.handedOut, List.getElem?_eq_none hn, Option.getD_none]
      rw [show r.tokens.drop _ = _ from hnext, List.drop_eq_nil_of_le hn]
      exact .inr rfl
  | next => exact .inl hnext
  | drain => exact .inl (by simp [call, Reply.handedOut])
  | errors => exact .inl rfl
  | location => exact .inl rfl

/-- The tokens are handed out in order, and then the last one again and again. -/
theorem handedOut_in_order (r : Recording) (n : Nat) (calls : List Call) :
    (r.replies n calls).flatMap Reply.handedOut <+:
      r.tokens.drop n ++ List.replicate calls.length r.last := by
  induction calls generalizing n with
  | nil => exact List.nil_prefix
  | cons c calls ih =>
    have hrest := (List.prefix_append_right_inj (r.call n c).1.handedOut).mpr (ih (r.call n c).2)
    rw [← List.append_assoc] at hrest
    rw [replies, List.flatMap_cons, List.length_cons]
    rcases r.handedOut_call n c with hone | hone
    · rw [hone] at hrest
      refine hrest.trans ?_
      rw [List.replicate_succ', ← List.append_assoc]
      exact List.prefix_append _ _
    · rw [hone, List.append_assoc] at hrest
      exact hrest

/-- An iterator hands out each token once at most. -/
theorem iterated_sublist (r : Recording) (n : Nat) (calls : List Call) :
    ((r.replies n calls).flatMap Reply.iterated).Sublist (r.tokens.drop n) := by
  induction calls generalizing n with
  | nil => exact List.nil_sublist _
  | cons c calls ih =>
    have hnext := r.toList_append_drop n
    have hrest := ih (r.call n c).2
    rw [replies, List.flatMap_cons]
    cases c with
    | nextToken =>
      rw [← hnext]
      exact hrest.trans (List.sublist_append_right _ _)
    | next =>
      rw [← hnext]
      exact hrest.append_left _
    | drain =>
      have hnone : (r.replies (r.call n .drain).2 calls).flatMap Reply.iterated = [] := by
        have hempty : r.tokens.drop (r.call n .drain).2 = [] := List.drop_length
        rw [hempty] at hrest
        exact List.sublist_nil.mp hrest
      rw [hnone, List.append_nil]
      exact List.Sublist.refl _
    | errors => exact hrest
    | location => exact hrest

end Recording

/-! ## Token by token -/

namespace Lexer

/-- The lexer after a number of tokens. -/
def afterTokens (x : Lexer) : Nat → Lexer
  | 0 => x
  | n + 1 => (x.afterTokens n).nextToken.2

theorem afterTokens_nextToken (x : Lexer) (n : Nat) :
    x.nextToken.2.afterTokens n = x.afterTokens (n + 1) := by
  induction n with
  | zero => rfl
  | succ n ih => rw [afterTokens, ih]; rfl

theorem afterTokens_afterTokens (x : Lexer) (m n : Nat) :
    (x.afterTokens m).afterTokens n = x.afterTokens (m + n) := by
  induction n with
  | zero => rfl
  | succ n ih => rw [afterTokens, ih]; rfl

/-- Draining is handing out token by token. -/
theorem drain_afterTokens (x : Lexer) : x.drain.2 = x.afterTokens x.drain.1.length := by
  fun_induction drain x with
  | case1 => rfl
  | case2 x hx more ih => exact ih.trans (x.afterTokens_nextToken _)

/-- The lexer stands in a scan in front of the token with an index. -/
structure Before (x : Lexer) (s : ScanResult) (stop : Position) (n : Nat) : Prop where
  unfinished : x.finished = false
  tokens : (scanFrom x.location x.rest).tokens = s.tokens.drop n
  errors : x.errors ++ (scanFrom x.location x.rest).errors = s.errors
  stop : x.location.advancedOver x.rest = stop

/-- The lexer stands at the end of a scan. -/
structure Behind (x : Lexer) (s : ScanResult) (stop : Position) : Prop where
  atEnd : x.AtEnd stop
  errors : x.errors = s.errors

theorem AtEnd.drain_eq {x : Lexer} {stop : Position} (h : x.AtEnd stop) : x.drain = ([], x) := by
  rw [drain, dif_pos h.finished]

theorem scanFrom_tokens_ne_nil (p : Position) (t : Text) : (scanFrom p t).tokens ≠ [] := by
  rw [scanFrom_eq]
  exact List.concat_ne_nil _ _

theorem getElem?_of_drop_eq_cons {l rest : List Token} {n : Nat} {t : Token}
    (h : l.drop n = t :: rest) : l[n]? = some t ∧ l.drop (n + 1) = rest := by
  constructor
  · have hfirst : (l.drop n)[0]? = l[n + 0]? := List.getElem?_drop
    rw [h] at hfirst
    exact hfirst.symm
  · rw [← List.tail_drop, h]
    rfl

namespace Before

variable {x : Lexer} {s : ScanResult} {stop : Position} {n : Nat}

theorem drain_eq (h : x.Before s stop n) : x.drain.1 = s.tokens.drop n ∧
    x.drain.2.errors = s.errors := by
  have hdrained := drained h.unfinished
  exact ⟨hdrained.tokens.trans h.tokens, hdrained.errors.trans h.errors⟩

/-- The next token is the one with the index. After it the lexer stands in front of the one
after that, or at the end. -/
theorem step (h : x.Before s stop n) : s.tokens[n]? = some x.nextToken.1 ∧
    (n + 1 < s.tokens.length ∧ x.nextToken.2.Before s stop (n + 1) ∨
      n + 1 = s.tokens.length ∧ x.nextToken.2.Behind s stop) := by
  have htokens := h.tokens
  have hall := h.errors
  cases hlast : x.nextToken.1.isEndOfFile with
  | true =>
    obtain ⟨es, herrors, hscan⟩ := scan_of_last hlast
    rw [hscan] at htokens hall
    obtain ⟨htoken, -⟩ := getElem?_of_drop_eq_cons htokens.symm
    have hlength := congrArg List.length htokens
    rw [List.length_singleton, List.length_drop] at hlength
    refine ⟨htoken, .inr ⟨by omega, ?_, herrors.trans hall⟩⟩
    rw [← h.stop]
    exact atEnd_of_last hlast
  | false =>
    obtain ⟨es, herrors, hstop, hscan⟩ := scan_of_next hlast
    rw [hscan] at htokens hall
    obtain ⟨htoken, hlater⟩ := getElem?_of_drop_eq_cons htokens.symm
    have hmore : s.tokens.drop (n + 1) ≠ [] := by
      rw [hlater]
      exact scanFrom_tokens_ne_nil _ _
    refine ⟨htoken, .inl ⟨?_, ?_⟩⟩
    · have := List.length_pos_iff.mpr hmore
      rw [List.length_drop] at this
      omega
    · exact
        { unfinished := by rw [finished_nextToken, h.unfinished, hlast]; rfl
          tokens := hlater.symm
          errors := by rw [herrors, List.append_assoc]; exact hall
          stop := hstop.trans h.stop }

end Before

/-! ## The calls in any order -/

section

variable (origin : Position) (source : Text)

/-- The recording of the full scan of a source. -/
def recording : Recording where
  origin := origin
  tokens := (scanFrom origin source).tokens
  last := Token.endOfFile (origin.advancedOver source)
  found n := ((withOrigin origin source).afterTokens n).errors

theorem before_first : (withOrigin origin source).Before (scanFrom origin source)
    (origin.advancedOver source) 0 where
  unfinished := rfl
  tokens := by rw [rest_withOrigin]; rfl
  errors := by rw [rest_withOrigin]; rfl
  stop := by rw [rest_withOrigin]; rfl

/-- The lexer after a number of tokens stands in front of the next one, or at the end. -/
theorem afterTokens_stands (n : Nat) (hn : n ≤ (recording origin source).tokens.length) :
    n < (recording origin source).tokens.length ∧ ((withOrigin origin source).afterTokens n).Before
        (scanFrom origin source) (origin.advancedOver source) n ∨
      n = (recording origin source).tokens.length ∧ ((withOrigin origin source).afterTokens n).Behind
        (scanFrom origin source) (origin.advancedOver source) := by
  induction n with
  | zero =>
    exact .inl ⟨List.length_pos_iff.mpr (scanFrom_tokens_ne_nil origin source),
      before_first origin source⟩
  | succ n ih =>
    rcases ih (Nat.le_of_succ_le hn) with ⟨-, hbefore⟩ | ⟨heq, -⟩
    · exact hbefore.step.2
    · omega

theorem afterTokens_all :
    ((withOrigin origin source).afterTokens (recording origin source).tokens.length).Behind
      (scanFrom origin source) (origin.advancedOver source) := by
  rcases afterTokens_stands origin source _ (Nat.le_refl _) with ⟨hlt, -⟩ | ⟨-, hend⟩
  · exact absurd hlt (Nat.lt_irrefl _)
  · exact hend

theorem location_afterTokens (n : Nat) (hn : n ≤ (recording origin source).tokens.length) :
    ((withOrigin origin source).afterTokens n).location = (recording origin source).place n := by
  cases n with
  | zero => rfl
  | succ n =>
    rcases afterTokens_stands origin source n (Nat.le_of_succ_le hn) with ⟨-, hbefore⟩ | ⟨heq, -⟩
    · have htoken : (recording origin source).tokens[n]? = _ := hbefore.step.1
      rw [Recording.place, htoken, afterTokens, location_nextToken]
      rfl
    · omega

/-- Draining a lexer after a number of tokens leaves it where the last token leaves it. -/
theorem drain_afterTokens_of_before {n : Nat} (hn : n < (recording origin source).tokens.length)
    (h : ((withOrigin origin source).afterTokens n).Before (scanFrom origin source)
      (origin.advancedOver source) n) :
    ((withOrigin origin source).afterTokens n).drain = ((recording origin source).tokens.drop n,
      (withOrigin origin source).afterTokens (recording origin source).tokens.length) := by
  have htokens : ((withOrigin origin source).afterTokens n).drain.1 =
      (recording origin source).tokens.drop n := h.drain_eq.1
  refine Prod.ext htokens ?_
  rw [drain_afterTokens, htokens, List.length_drop, afterTokens_afterTokens,
    Nat.add_sub_cancel' (Nat.le_of_lt hn)]

/-- A lexer that has not handed out all tokens answers a call as the recording does. -/
theorem call_before {n : Nat} (hn : n < (recording origin source).tokens.length)
    (h : ((withOrigin origin source).afterTokens n).Before (scanFrom origin source)
      (origin.advancedOver source) n) (c : Call) :
    ((withOrigin origin source).afterTokens n).call c =
      (((recording origin source).call n c).1,
        (withOrigin origin source).afterTokens ((recording origin source).call n c).2) := by
  have htoken : (recording origin source).tokens[n]? = _ := h.step.1
  cases c with
  | nextToken =>
    rw [Recording.call, Nat.min_eq_left hn, htoken]
    rfl
  | next =>
    rw [Recording.call, Nat.min_eq_left hn, htoken, call, next?, h.unfinished]
    rfl
  | drain =>
    rw [Recording.call, call, drain_afterTokens_of_before origin source hn h]
  | errors => rfl
  | location =>
    rw [Recording.call, ← location_afterTokens origin source n (Nat.le_of_lt hn)]
    rfl

/-- A lexer that has handed out all tokens answers a call as the recording does. -/
theorem call_atEnd (c : Call) :
    let n := (recording origin source).tokens.length
    ((withOrigin origin source).afterTokens n).call c =
      (((recording origin source).call n c).1,
        (withOrigin origin source).afterTokens ((recording origin source).call n c).2) := by
  intro n
  have hmin : min (n + 1) (recording origin source).tokens.length = n :=
    Nat.min_eq_right (Nat.le_succ n)
  have hnone : (recording origin source).tokens[n]? = none :=
    List.getElem?_eq_none (Nat.le_refl n)
  have hend : ((withOrigin origin source).afterTokens n).AtEnd _ :=
    (afterTokens_all origin source).atEnd
  cases c with
  | nextToken =>
    rw [Recording.call, hmin, hnone, call, hend.nextToken_eq]
    rfl
  | next =>
    rw [Recording.call, hmin, hnone, call, next?, hend.finished, if_pos rfl]
  | drain =>
    rw [Recording.call, List.drop_length, call, hend.drain_eq]
  | errors => rfl
  | location =>
    rw [Recording.call, ← location_afterTokens origin source n (Nat.le_refl n)]
    rfl

theorem bookmark_le {r : Recording} {n : Nat} (hn : n ≤ r.tokens.length) (c : Call) :
    (r.call n c).2 ≤ r.tokens.length := by
  cases c with
  | nextToken => exact Nat.min_le_right _ _
  | next => exact Nat.min_le_right _ _
  | drain => exact Nat.le_refl _
  | errors => exact hn
  | location => exact hn

theorem replies_afterTokens (calls : List Call) (n : Nat)
    (hn : n ≤ (recording origin source).tokens.length) :
    ((withOrigin origin source).afterTokens n).replies calls =
      (recording origin source).replies n calls := by
  induction calls generalizing n with
  | nil => rfl
  | cons c calls ih =>
    have hcall : ((withOrigin origin source).afterTokens n).call c =
        (((recording origin source).call n c).1,
          (withOrigin origin source).afterTokens ((recording origin source).call n c).2) := by
      rcases afterTokens_stands origin source n hn with ⟨hlt, hbefore⟩ | ⟨rfl, -⟩
      · exact call_before origin source hlt hbefore c
      · exact call_atEnd origin source c
    rw [replies, Recording.replies, hcall, ih _ (bookmark_le hn c)]

theorem errors_grow_with_tokens (x : Lexer) {m n : Nat} (h : m ≤ n) :
    (x.afterTokens m).errors <+: (x.afterTokens n).errors := by
  induction h with
  | refl => exact List.prefix_refl _
  | step _ ih =>
    rw [afterTokens, errors_nextToken]
    exact ih.trans (List.prefix_append _ _)

theorem recording_isOf : (recording origin source).IsOf origin source := by
  refine
    { origin_eq := rfl
      tokens_eq := (tokens_drain_withOrigin origin source).symm
      last_eq := rfl
      last_only := ?_
      found_none := rfl
      found_grows := fun m n h => errors_grow_with_tokens _ h
      found_all := ?_ }
  · have htokens := congrArg ScanResult.tokens (scanFrom_eq origin source)
    refine ⟨tokensOf origin (pieces source), htokens, ?_⟩
    intro t ht
    obtain ⟨front, l, back, hps, rfl⟩ := mem_tokensOf.mp ht
    exact (lexeme_stands_of_pieces hps).isEndOfFile_placed _
  · rw [errors_drain_withOrigin]
    exact (afterTokens_all origin source).errors

end

end Lexer

/-- Whatever calls are made on a lexer, in any order, the replies are read off the finished scan:
the tokens in order, the place where the last of them ends, and a front of the error list that
grows only with the tokens. An iterator hands out each token at most once, and after the last
token there is only that token again, when it is asked for outright. -/
theorem calls_read_off_the_scan (origin : Position) (source : Text) :
    ∃ r : Recording, r.IsOf origin source ∧ ∀ calls : List Call,
      let replies := (Lexer.withOrigin origin source).replies calls
      replies = r.replies 0 calls ∧
      replies.flatMap Reply.handedOut <+: r.tokens ++ List.replicate calls.length r.last ∧
      (replies.flatMap Reply.iterated).Sublist r.tokens := by
  refine ⟨Lexer.recording origin source, Lexer.recording_isOf origin source, ?_⟩
  intro calls replies
  have hreplies : replies = (Lexer.recording origin source).replies 0 calls :=
    Lexer.replies_afterTokens origin source calls 0 (Nat.zero_le _)
  rw [hreplies]
  exact ⟨rfl, (Lexer.recording origin source).handedOut_in_order 0 calls,
    (Lexer.recording origin source).iterated_sublist 0 calls⟩

end Lexis
