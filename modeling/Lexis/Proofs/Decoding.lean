-- The law of decoding. Sources are the texts' UTF-8 forms, with or without one byte-order mark in
-- front. For other bytes, the error tells where the longest text in front ends, and how much of
-- what follows is the front of a character.
import Lexis.Proofs.Utf8Forms
import Lexis.Scan.Tokens

namespace Lexis

namespace Utf8

/-! ## Inside a character -/

/-- The bytes are the front of a character's form, and not the whole of it. -/
def Inside (bytes : List UInt8) : Prop :=
  ∃ c, bytes <+: String.utf8EncodeChar c ∧ bytes ≠ String.utf8EncodeChar c

theorem inside_nil : Inside [] := ⟨'a', List.nil_prefix, by decide⟩

theorem Inside.no_form {bytes : List UInt8} (h : Inside bytes) (c : Char) :
    ¬ String.utf8EncodeChar c <+: bytes := by
  obtain ⟨d, hd, hne⟩ := h
  intro hc
  obtain rfl := forms_prefix_free (hc.trans hd)
  exact hne (hd.eq_of_length_le hc.length_le)

/-- A character that the bytes of a character that has begun fit. -/
def Pending.Fits (p : Pending) (c : Char) : Prop :=
  c.utf8Size = p.taken + p.owed ∧ c.toNat / 64 ^ p.owed = p.value

/-- The bytes are those of the character that has begun, and the next byte is in its range when
some character goes on with it. -/
structure Pending.After (p : Pending) (read : List UInt8) : Prop where
  length_eq : read.length = p.taken
  begun : 1 ≤ p.taken
  unfinished : 1 ≤ p.owed
  room : p.low ≤ p.high
  fits : ∀ c, read <+: String.utf8EncodeChar c ↔ p.Fits c
  range : ∀ b, p.low ≤ b ∧ b ≤ p.high ↔ 0x80 ≤ b ∧ b ≤ 0xBF ∧ ∃ c : Char,
    c.utf8Size = p.taken + p.owed ∧ c.toNat / 64 ^ (p.owed - 1) = 64 * p.value + (b - 0x80)

/-- What a step says of the bytes of a character that have been read. -/
def Step.Tells (read : List UInt8) : Step → Prop
  | .refused => ∀ c, ¬ read <+: String.utf8EncodeChar c
  | .complete c => read = String.utf8EncodeChar c
  | .pending p => p.After read

/-! ## One step -/

theorem exists_char_of_size {n size : Nat} (hvalid : n < 0xD800 ∨ (0xDFFF < n ∧ n < 0x110000))
    (hsize : (size = 1 ∧ n ≤ 0x7F) ∨ (size = 2 ∧ 0x80 ≤ n ∧ n ≤ 0x7FF) ∨
      (size = 3 ∧ 0x800 ≤ n ∧ n ≤ 0xFFFF) ∨ (size = 4 ∧ 0x10000 ≤ n)) :
    ∃ c : Char, c.utf8Size = size ∧ c.toNat = n := by
  obtain ⟨c, rfl⟩ := exists_char hvalid
  have hc := utf8Size_cases c
  exact ⟨c, by omega, rfl⟩

/-- Past the first two bytes of a form, all numbers of six bits can follow. -/
theorem exists_char_of_div {c : Char} {m n : Nat} (hm : m + 2 ≤ c.utf8Size)
    (h : n / 64 ^ m = c.toNat / 64 ^ m) : ∃ d : Char, d.utf8Size = c.utf8Size ∧ d.toNat = n := by
  have hvalid := toNat_valid c
  have hc := utf8Size_cases c
  have hm : m = 0 ∨ m = 1 ∨ m = 2 := by omega
  rcases hm with rfl | rfl | rfl
  · exact exists_char_of_size (by omega) (by omega)
  · exact exists_char_of_size (by omega) (by omega)
  · exact exists_char_of_size (by omega) (by omega)

theorem div_pow_succ (n m : Nat) : n / 64 ^ (m + 1) = n / 64 ^ m / 64 := by
  rw [Nat.div_div_eq_div_mul, ← Nat.pow_succ]

theorem later_byte_free {c : Char} {m x : Nat} (hm : m + 3 ≤ c.utf8Size) (hlow : 0x80 ≤ x)
    (hhigh : x ≤ 0xBF) : ∃ d : Char, d.utf8Size = c.utf8Size ∧
      d.toNat / 64 ^ m = 64 * (c.toNat / 64 ^ (m + 1)) + (x - 0x80) := by
  have hn : 64 ^ m * (64 * (c.toNat / 64 ^ (m + 1)) + (x - 0x80)) / 64 ^ m =
      64 * (c.toNat / 64 ^ (m + 1)) + (x - 0x80) :=
    Nat.mul_div_cancel_left _ (Nat.pow_pos (by decide))
  obtain ⟨d, hsize, hd⟩ := exists_char_of_div (c := c) (m := m + 1)
    (n := 64 ^ m * (64 * (c.toNat / 64 ^ (m + 1)) + (x - 0x80))) hm (by
      rw [div_pow_succ _ m, hn]
      omega)
  exact ⟨d, hsize, by rw [hd, hn]⟩

/-- The numbers that the first two bytes of a form can spell. -/
theorem two_bytes_iff {m x : Nat} :
    (∃ c : Char, c.utf8Size = 1 + (m + 1) ∧ c.toNat / 64 ^ m = x) ↔
      (m = 0 ∧ 0x80 ≤ x ∧ x ≤ 0x7FF) ∨
      (m = 1 ∧ 0x20 ≤ x ∧ x ≤ 0x3FF ∧ (x < 0x360 ∨ 0x37F < x)) ∨
      (m = 2 ∧ 0x10 ≤ x ∧ x ≤ 0x10F) := by
  constructor
  · rintro ⟨c, hsize, rfl⟩
    have hvalid := toNat_valid c
    have hc := utf8Size_cases c
    have hm : m = 0 ∨ m = 1 ∨ m = 2 := by omega
    rcases hm with rfl | rfl | rfl <;> omega
  · intro h
    have hchar : ∃ c : Char, c.utf8Size = 1 + (m + 1) ∧ c.toNat = 64 ^ m * x := by
      rcases h with ⟨rfl, h⟩ | ⟨rfl, h⟩ | ⟨rfl, h⟩
      · exact exists_char_of_size (by omega) (by omega)
      · exact exists_char_of_size (by omega) (by omega)
      · exact exists_char_of_size (by omega) (by omega)
    obtain ⟨c, hsize, hc⟩ := hchar
    exact ⟨c, hsize, by rw [hc, Nat.mul_div_cancel_left _ (Nat.pow_pos (by decide))]⟩

/-- The character that a first byte begins. The byte gives the number of bytes that follow and the
highest bits, and the range of the second byte leaves out what no character has. -/
theorem after_first_byte {b : UInt8} {value m low high : Nat} (hroom : low ≤ high)
    (hb : (m = 0 ∧ b.toNat = 0xC0 + value ∧ value < 0x20) ∨
      (m = 1 ∧ b.toNat = 0xE0 + value ∧ value < 0x10) ∨
      (m = 2 ∧ b.toNat = 0xF0 + value ∧ value < 0x08))
    (hrange : ∀ x, low ≤ x ∧ x ≤ high ↔ 0x80 ≤ x ∧ x ≤ 0xBF ∧
      ((m = 0 ∧ 0x02 ≤ value) ∨
        (m = 1 ∧ (value = 0 → 0xA0 ≤ x) ∧ (value = 0xD → x < 0xA0)) ∨
        (m = 2 ∧ (value = 0 → 0x90 ≤ x) ∧ (4 ≤ value → value = 4 ∧ x < 0x90)))) :
    (⟨value, 1, m + 1, low, high⟩ : Pending).After [b] where
  length_eq := rfl
  begun := Nat.le_refl 1
  unfinished := Nat.succ_pos m
  room := hroom
  fits c := by
    have hc := utf8Size_cases c
    show _ ↔ c.utf8Size = 1 + (m + 1) ∧ c.toNat / 64 ^ (m + 1) = value
    rw [first_byte]
    rcases hb with ⟨rfl, hb⟩ | ⟨rfl, hb⟩ | ⟨rfl, hb⟩ <;> omega
  range x := by
    show _ ↔ 0x80 ≤ x ∧ x ≤ 0xBF ∧ ∃ c : Char,
      c.utf8Size = 1 + (m + 1) ∧ c.toNat / 64 ^ m = 64 * value + (x - 0x80)
    rw [hrange, two_bytes_iff]
    omega

theorem begin_tells (b : UInt8) : (begin b).Tells [b] := by
  have hb := b.toNat_lt
  simp only [begin]
  split_ifs with h1 h2 h3 h4 h5 h6 h7 h8
  · obtain ⟨c, hc⟩ := exists_char (n := b.toNat) (by omega)
    have hsize := utf8Size_cases c
    have hform : [b] <+: String.utf8EncodeChar c := (first_byte c b).mpr (by omega)
    rw [← hc, Char.ofNat_toNat]
    exact hform.eq_of_length (by rw [String.length_utf8EncodeChar, List.length_singleton]; omega)
  · exact after_first_byte (by decide) (by omega) (fun x => by omega)
  · exact after_first_byte (by decide) (by omega) (fun x => by omega)
  · exact after_first_byte (by decide) (by omega) (fun x => by omega)
  · exact after_first_byte (by decide) (by omega) (fun x => by omega)
  · exact after_first_byte (by decide) (by omega) (fun x => by omega)
  · exact after_first_byte (by decide) (by omega) (fun x => by omega)
  · exact after_first_byte (by decide) (by omega) (fun x => by omega)
  · intro c hc
    have hsize := utf8Size_cases c
    rw [first_byte] at hc
    omega

/-- One byte more fits the characters that go on with it. -/
theorem Pending.After.fits_append {p : Pending} {read : List UInt8} (h : p.After read) (b : UInt8)
    (c : Char) : read ++ [b] <+: String.utf8EncodeChar c ↔
      0x80 ≤ b.toNat ∧ b.toNat ≤ 0xBF ∧ c.utf8Size = p.taken + p.owed ∧
        c.toNat / 64 ^ (p.owed - 1) = 64 * p.value + (b.toNat - 0x80) := by
  have howed : p.owed - 1 + 1 = p.owed := Nat.sub_add_cancel h.unfinished
  have hshift := div_pow_succ c.toNat (p.owed - 1)
  rw [append_singleton_prefix_iff, h.fits, Pending.Fits, h.length_eq]
  rw [howed] at hshift
  constructor
  · rintro ⟨⟨hsize, hvalue⟩, hb⟩
    rw [later_byte h.begun (by rw [hsize, howed])] at hb
    omega
  · rintro ⟨hlow, hhigh, hsize, hvalue⟩
    rw [later_byte h.begun (by rw [hsize, howed])]
    omega

theorem Pending.After.next_tells {p : Pending} {read : List UInt8} (h : p.After read) (b : UInt8) :
    (p.next b).Tells (read ++ [b]) := by
  have hbegun := h.begun
  have hunfinished := h.unfinished
  have hlength : (read ++ [b]).length = p.taken + 1 := by
    rw [List.length_append, h.length_eq, List.length_singleton]
  simp only [Pending.next]
  split_ifs with hb howed
  · obtain ⟨hlow, hhigh, c, hsize, hvalue⟩ := (h.range b.toNat).mp hb
    have hform := (h.fits_append b c).mpr ⟨hlow, hhigh, hsize, hvalue⟩
    have hone : p.owed = 1 := Nat.le_antisymm howed hunfinished
    rw [hone, Nat.sub_self, Nat.pow_zero, Nat.div_one] at hvalue
    rw [← hvalue, Char.ofNat_toNat]
    exact hform.eq_of_length (by rw [hlength, String.length_utf8EncodeChar, hsize, hone])
  · obtain ⟨hlow, hhigh, c, hsize, hvalue⟩ := (h.range b.toNat).mp hb
    obtain ⟨m, hm⟩ : ∃ m, p.owed = m + 2 := ⟨p.owed - 2, by omega⟩
    rw [hm] at hsize hvalue
    have hsizes : p.taken + 1 + (m + 1) = c.utf8Size := by omega
    have hrest : p.owed - 1 = m + 1 := by omega
    rw [hrest]
    exact {
      length_eq := hlength
      begun := Nat.succ_pos _
      unfinished := Nat.succ_pos _
      room := by show 0x80 ≤ 0xBF; decide
      fits := fun d => by
        show _ ↔ d.utf8Size = p.taken + 1 + (m + 1) ∧ _
        rw [h.fits_append, and_iff_right hlow, and_iff_right hhigh, hrest, hsizes, hm, hsize]
      range := fun x => by
        show 0x80 ≤ x ∧ x ≤ 0xBF ↔ 0x80 ≤ x ∧ x ≤ 0xBF ∧ ∃ d : Char,
          d.utf8Size = p.taken + 1 + (m + 1) ∧ d.toNat / 64 ^ m = _
        rw [hsizes, ← hvalue]
        exact ⟨fun ⟨hx, hx'⟩ => ⟨hx, hx', later_byte_free (by omega) hx hx'⟩,
          fun ⟨hx, hx', _⟩ => ⟨hx, hx'⟩⟩ }
  · intro c hc
    obtain ⟨hlow, hhigh, hfits⟩ := (h.fits_append b c).mp hc
    exact hb ((h.range b.toNat).mpr ⟨hlow, hhigh, c, hfits⟩)

theorem Pending.After.inside {p : Pending} {read : List UInt8} (h : p.After read) :
    Inside read := by
  obtain ⟨hlow, hhigh, c, hsize, hvalue⟩ := (h.range p.low).mp ⟨Nat.le_refl _, h.room⟩
  have howed : p.owed - 1 + 1 = p.owed := Nat.sub_add_cancel h.unfinished
  have hshift := div_pow_succ c.toNat (p.owed - 1)
  rw [howed] at hshift
  have hfits : p.Fits c := ⟨hsize, by omega⟩
  refine ⟨c, (h.fits c).mpr hfits, fun heq => ?_⟩
  have hlength := congrArg List.length heq
  have hunfinished := h.unfinished
  rw [String.length_utf8EncodeChar, hsize, h.length_eq] at hlength
  omega

theorem Pending.After.ne_nil {p : Pending} {read : List UInt8} (h : p.After read) : read ≠ [] := by
  intro hread
  have hlength := h.length_eq
  rw [hread] at hlength
  exact Nat.ne_of_gt h.begun hlength.symm

/-! ## A whole input -/

@[simp] theorem encode_nil : encode [] = [] := rfl

@[simp] theorem encode_cons (c : Char) (t : Text) :
    encode (c :: t) = String.utf8EncodeChar c ++ encode t := List.flatMap_cons

/-- The bytes on which decoding stops, and the length of the faulty ones that it reports. The length
is absent when the bytes are the front of a character. It is else that of the longest front of a
character among the bytes, or of one byte. -/
structure Stuck (rest : List UInt8) (badLength : Option Nat) : Prop where
  not_at_end : rest ≠ []
  no_form : ∀ c, ¬ String.utf8EncodeChar c <+: rest
  cut_off : badLength = none ↔ Inside rest
  bad : ∀ n, badLength = some n → 1 ≤ n ∧ n ≤ 3 ∧ n ≤ rest.length ∧
    (n = 1 ∨ Inside (rest.take n)) ∧ ∀ front, front <+: rest → Inside front → front.length ≤ n

/-- The result of decoding bytes that stand after a number of sound ones. -/
def Decoded (sound : Nat) (bytes : List UInt8) : Except Malformed Text → Prop
  | .ok t => bytes = encode t
  | .error e => ∃ t rest, bytes = encode t ++ rest ∧ e.validUpTo = sound + (encode t).length ∧
      Stuck rest e.badLength

theorem Decoded.cons {sound : Nat} {read : List UInt8} {c : Char} {bytes : List UInt8}
    {r : Except Malformed Text} (hc : read = String.utf8EncodeChar c)
    (h : Decoded (sound + read.length) bytes r) :
    Decoded sound (read ++ bytes) (r.map (c :: ·)) := by
  subst hc
  cases r with
  | ok t =>
    show _ ++ bytes = encode (c :: t)
    rw [encode_cons, show bytes = encode t from h]
  | error e =>
    obtain ⟨t, rest, rfl, hvalid, hstuck⟩ := h
    refine ⟨c :: t, rest, by rw [encode_cons, List.append_assoc], ?_, hstuck⟩
    rw [hvalid, encode_cons, List.length_append, Nat.add_assoc]

theorem Inside.length_le {bytes : List UInt8} (h : Inside bytes) : bytes.length ≤ 3 := by
  obtain ⟨c, hc, hne⟩ := h
  have hle := hc.length_le
  have hshorter : bytes.length ≠ (String.utf8EncodeChar c).length :=
    fun heq => hne (hc.eq_of_length heq)
  have hsize := utf8Size_cases c
  rw [String.length_utf8EncodeChar] at hle hshorter
  omega

theorem stuck_cut_off {read : List UInt8} (h : Inside read) (hne : read ≠ []) :
    Stuck read none where
  not_at_end := hne
  no_form := h.no_form
  cut_off := iff_of_true rfl h
  bad _ hn := by cases hn

theorem stuck_refused {read bytes : List UInt8} {b : UInt8} (h : Inside read)
    (hb : ∀ c, ¬ read ++ [b] <+: String.utf8EncodeChar c) :
    Stuck (read ++ b :: bytes) (some (max 1 read.length)) := by
  have hread : read <+: read ++ b :: bytes := List.prefix_append _ _
  have hnext : read ++ [b] <+: read ++ b :: bytes := ⟨bytes, by simp⟩
  have hshort : ∀ front c, front <+: read ++ b :: bytes → front <+: String.utf8EncodeChar c →
      front.length ≤ read.length := by
    intro front c hfront hc
    by_contra hlong
    have hle : (read ++ [b]).length ≤ front.length := by
      rw [List.length_append, List.length_singleton]
      omega
    exact hb c ((List.prefix_of_prefix_length_le hnext hfront hle).trans hc)
  have hlength : (read ++ b :: bytes).length = read.length + bytes.length + 1 := by simp; omega
  constructor
  · simp
  · intro c hc
    have hle := hshort _ c hc (List.prefix_refl _)
    exact h.no_form c (List.prefix_of_prefix_length_le hc hread hle)
  · refine iff_of_false (by simp) ?_
    rintro ⟨c, hc, -⟩
    have hle := hshort _ c (List.prefix_refl _) hc
    omega
  · intro n hn
    obtain rfl := Option.some.inj hn
    have hthree := h.length_le
    refine ⟨by omega, by omega, by omega, ?_, ?_⟩
    · by_cases hone : read.length ≤ 1
      · exact .inl (Nat.max_eq_left hone)
      · rw [Nat.max_eq_right (by omega), List.take_left]
        exact .inr h
    · rintro front hfront ⟨c, hc, -⟩
      have hle := hshort front c hfront hc
      omega

theorem Stuck.decoded {rest : List UInt8} {badLength : Option Nat} (h : Stuck rest badLength)
    (sound : Nat) : Decoded sound rest (.error ⟨sound, badLength⟩) :=
  ⟨[], rest, rfl, rfl, h⟩

/-- The bytes are those of the character that has begun, if any. -/
def Begun (read : List UInt8) : Option Pending → Prop
  | none => read = []
  | some p => p.After read

theorem decoded_decodeFrom {bytes read : List UInt8} {state : Option Pending} {sound : Nat}
    (h : Begun read state) : Decoded sound (read ++ bytes) (decodeFrom sound state bytes) := by
  -- by induction on what is left; the bytes of the character that has begun wait in `read`
  induction bytes generalizing read state sound with
  | nil =>
    rw [List.append_nil]
    cases state with
    | none => exact h
    | some p => exact (stuck_cut_off (Pending.After.inside h) (Pending.After.ne_nil h)).decoded sound
  | cons b bytes ih =>
    cases state with
    | none =>
      obtain rfl : read = [] := h
      have hstep := begin_tells b
      rw [decodeFrom]
      cases hb : begin b with
      | refused =>
        rw [hb] at hstep
        exact (stuck_refused inside_nil hstep).decoded sound
      | complete c =>
        rw [hb] at hstep
        show Decoded sound ([b] ++ bytes) _
        exact Decoded.cons hstep (ih (show Begun [] none from rfl))
      | pending p =>
        rw [hb] at hstep
        exact ih (show Begun [b] (some p) from hstep)
    | some p =>
      have hp : p.After read := h
      have hstep := hp.next_tells b
      rw [decodeFrom]
      cases hb : p.next b with
      | refused =>
        rw [hb] at hstep
        have hlength : max 1 read.length = p.taken := by
          rw [hp.length_eq, Nat.max_eq_right hp.begun]
        rw [← hlength]
        exact (stuck_refused hp.inside hstep).decoded sound
      | complete c =>
        rw [hb] at hstep
        have hlength : (read ++ [b]).length = p.taken + 1 := by
          rw [List.length_append, hp.length_eq, List.length_singleton]
        rw [List.append_cons, Nat.add_assoc, ← hlength]
        exact Decoded.cons hstep (ih (show Begun [] none from rfl))
      | pending q =>
        rw [hb] at hstep
        rw [List.append_cons]
        exact ih (show Begun (read ++ [b]) (some q) from hstep)

/-! ## Texts in front -/

theorem prefix_of_encode {t u : Text} {rest : List UInt8}
    (hrest : ∀ c, ¬ String.utf8EncodeChar c <+: rest) (h : encode u <+: encode t ++ rest) :
    u <+: t := by
  induction u generalizing t with
  | nil => exact List.nil_prefix
  | cons d u ih =>
    rw [encode_cons] at h
    have hd := (List.prefix_append _ _).trans h
    cases t with
    | nil => exact absurd hd (hrest d)
    | cons c t =>
      rw [encode_cons, List.append_assoc] at h hd
      have heq : d = c := (List.prefix_or_prefix_of_prefix hd (List.prefix_append _ _)).elim
        forms_prefix_free fun hcd => (forms_prefix_free hcd).symm
      subst heq
      rw [List.prefix_append_right_inj] at h
      exact List.cons_prefix_cons.mpr ⟨rfl, ih h⟩

theorem encode_injective {t u : Text} (h : encode t = encode u) : t = u := by
  have hnil : ∀ c, ¬ String.utf8EncodeChar c <+: [] := inside_nil.no_form
  have htu : t <+: u := prefix_of_encode hnil ⟨[], by rw [h]⟩
  have hut : u <+: t := prefix_of_encode hnil ⟨[], by rw [h]⟩
  exact htu.eq_of_length_le hut.length_le

/-- The offset is that of the longest text in front, and decoding is stuck there. -/
structure Malformed.Describes (e : Malformed) (bytes : List UInt8) : Prop where
  sound : ∃ t, encode t <+: bytes ∧ (encode t).length = e.validUpTo
  longest : ∀ t, encode t <+: bytes → (encode t).length ≤ e.validUpTo
  stuck : Stuck (bytes.drop e.validUpTo) e.badLength

theorem decoded_decode (bytes : List UInt8) : Decoded 0 bytes (decode bytes) :=
  decoded_decodeFrom (show Begun [] none from rfl)

theorem describes_of_decode {bytes : List UInt8} {e : Malformed} (h : decode bytes = .error e) :
    e.Describes bytes := by
  have hdecoded := decoded_decode bytes
  rw [h] at hdecoded
  obtain ⟨t, rest, rfl, hvalid, hstuck⟩ := hdecoded
  rw [Nat.zero_add] at hvalid
  constructor
  · exact ⟨t, List.prefix_append _ _, hvalid.symm⟩
  · intro u hu
    obtain ⟨v, rfl⟩ := prefix_of_encode hstuck.no_form hu
    rw [hvalid]
    simp [encode]
  · rw [hvalid, List.drop_left]
    exact hstuck

theorem decode_eq_ok_iff {bytes : List UInt8} {t : Text} :
    decode bytes = .ok t ↔ bytes = encode t := by
  have hok : ∀ {u}, decode bytes = .ok u → bytes = encode u := by
    intro u hu
    have hdecoded := decoded_decode bytes
    rwa [hu] at hdecoded
  refine ⟨hok, fun ht => ?_⟩
  cases hd : decode bytes with
  | ok u => rw [encode_injective (ht.symm.trans (hok hd))]
  | error e =>
    have he := describes_of_decode hd
    have hle := he.longest t (ht ▸ List.prefix_refl _)
    rw [← ht] at hle
    exact absurd (List.drop_eq_nil_of_le hle) he.stuck.not_at_end

end Utf8

/-! ## The byte-order mark -/

/-- The bytes of a source that are decoded. -/
def bodyOf (bytes : List UInt8) : List UInt8 :=
  if byteOrderMark <+: bytes then bytes.drop 3 else bytes

/-- The number of bytes of the mark in front of a source. -/
def markSize (bytes : List UInt8) : Nat := if byteOrderMark <+: bytes then 3 else 0

/-- A source is decoded, and scanned, when its body is the form of a text. -/
structure SourceDecoding (bytes : List UInt8) : Prop where
  text : ∀ t, decodeSource bytes = .ok t ↔ bodyOf bytes = Utf8.encode t
  failure : (∀ t, bodyOf bytes ≠ Utf8.encode t) → ∃ e, decodeSource bytes = .error e ∧
    e.validUpTo = markSize bytes + e.cause.validUpTo ∧ e.cause.Describes (bodyOf bytes)
  scanned : ∀ t, decodeSource bytes = .ok t → tokenizeBytes bytes = .ok (tokenize t)
  not_scanned : ∀ e, decodeSource bytes = .error e → tokenizeBytes bytes = .error e

/-- The mark in front of a source is dropped once. -/
structure MarkDropped (s : Text) : Prop where
  marked : decodeSource (byteOrderMark ++ Utf8.encode s) = .ok s
  unmarked : s.head? ≠ some '\uFEFF' → decodeSource (Utf8.encode s) = .ok s
  once : decodeSource (Utf8.encode ('\uFEFF' :: '\uFEFF' :: s)) = .ok ('\uFEFF' :: s)

theorem decodeSource_eq (bytes : List UInt8) :
    decodeSource bytes = decodeAfter (markSize bytes) (bodyOf bytes) := by
  unfold decodeSource markSize bodyOf
  simp only [List.isPrefixOf_iff_prefix]
  split_ifs with h
  · rfl
  · rfl

theorem decodeAfter_eq_ok_iff {skipped : Nat} {body : List UInt8} {t : Text} :
    decodeAfter skipped body = .ok t ↔ body = Utf8.encode t := by
  rw [← Utf8.decode_eq_ok_iff]
  unfold decodeAfter
  cases Utf8.decode body with
  | ok u => simp
  | error e => simp

theorem sourceDecoding (bytes : List UInt8) : SourceDecoding bytes where
  text t := by rw [decodeSource_eq, decodeAfter_eq_ok_iff]
  failure hnone := by
    rw [decodeSource_eq]
    unfold decodeAfter
    cases hd : Utf8.decode (bodyOf bytes) with
    | ok t => exact absurd (Utf8.decode_eq_ok_iff.mp hd) (hnone t)
    | error e => exact ⟨_, rfl, rfl, Utf8.describes_of_decode hd⟩
  scanned t ht := by rw [tokenizeBytes, ht]; rfl
  not_scanned e he := by rw [tokenizeBytes, he]; rfl

theorem encode_mark (s : Text) : Utf8.encode ('\uFEFF' :: s) = byteOrderMark ++ Utf8.encode s :=
  Utf8.encode_cons _ s

theorem decodeSource_marked (s : Text) : decodeSource (byteOrderMark ++ Utf8.encode s) = .ok s := by
  have hmark : byteOrderMark <+: byteOrderMark ++ Utf8.encode s := List.prefix_append _ _
  rw [decodeSource_eq, decodeAfter_eq_ok_iff, bodyOf, if_pos hmark]
  rfl

/-- The form of a text has a mark in front when the text has. -/
theorem mark_prefix_encode_iff {s : Text} :
    byteOrderMark <+: Utf8.encode s ↔ s.head? = some '\uFEFF' := by
  constructor
  · intro h
    have hmark : Utf8.encode ['\uFEFF'] <+: Utf8.encode s ++ [] := by
      rw [encode_mark, Utf8.encode_nil, List.append_nil, List.append_nil]
      exact h
    obtain ⟨t, rfl⟩ := Utf8.prefix_of_encode Utf8.inside_nil.no_form hmark
    rfl
  · intro h
    obtain ⟨t, rfl⟩ := List.head?_eq_some_iff.mp h
    rw [encode_mark]
    exact List.prefix_append _ _

theorem markDropped (s : Text) : MarkDropped s where
  marked := decodeSource_marked s
  unmarked hs := by
    rw [decodeSource_eq, decodeAfter_eq_ok_iff, bodyOf, if_neg (mt mark_prefix_encode_iff.mp hs)]
  once := by rw [encode_mark, decodeSource_marked]

/-- Decoding accepts the forms of texts and no other bytes. It reports the first fault of other
bytes, and drops one byte-order mark. -/
theorem decoding_is_exact : (∀ bytes, SourceDecoding bytes) ∧ ∀ s, MarkDropped s :=
  ⟨sourceDecoding, markDropped⟩

/-- A source with a mark can end inside a character. -/
example : decodeSource [0xEF, 0xBB, 0xBF, 0x61, 0xE2, 0x82] = .error ⟨4, 1, none⟩ := rfl

end Lexis
