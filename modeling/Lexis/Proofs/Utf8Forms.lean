-- The bytes of one character. The first byte gives the number of bytes and the highest bits of
-- the character's number, and each byte after it gives six bits more.
import Lexis.Text.Utf8
import Mathlib.Algebra.Ring.Nat
import Mathlib.Data.List.Basic
import Mathlib.Tactic.Common

namespace Lexis.Utf8

/-! ## Bytes -/

theorem ofNat_eq_iff {n : Nat} (h : n < 256) (b : UInt8) : UInt8.ofNat n = b ↔ b.toNat = n := by
  rw [← UInt8.toNat_inj, UInt8.toNat_ofNat', Nat.mod_eq_of_lt h]
  exact eq_comm

theorem append_singleton_prefix_iff {read l : List UInt8} {b : UInt8} :
    read ++ [b] <+: l ↔ read <+: l ∧ l[read.length]? = some b := by
  constructor
  · rintro ⟨rest, rfl⟩
    rw [List.append_assoc]
    exact ⟨List.prefix_append _ _, by simp⟩
  · rintro ⟨⟨rest, rfl⟩, hb⟩
    cases rest with
    | nil => simp at hb
    | cons x rest =>
      have hx : x = b := by simpa using hb
      exact ⟨rest, by rw [hx, List.append_assoc, List.singleton_append]⟩

/-! ## The form of a character -/

/-- The four lengths of a form, each with the numbers that it is for. -/
theorem form_cases (c : Char) :
    (c.utf8Size = 1 ∧ c.toNat ≤ 0x7F ∧ String.utf8EncodeChar c = [UInt8.ofNat c.toNat]) ∨
    (c.utf8Size = 2 ∧ 0x80 ≤ c.toNat ∧ c.toNat ≤ 0x7FF ∧ String.utf8EncodeChar c =
      [UInt8.ofNat (0xC0 + c.toNat / 64), UInt8.ofNat (0x80 + c.toNat % 64)]) ∨
    (c.utf8Size = 3 ∧ 0x800 ≤ c.toNat ∧ c.toNat ≤ 0xFFFF ∧ String.utf8EncodeChar c =
      [UInt8.ofNat (0xE0 + c.toNat / 4096), UInt8.ofNat (0x80 + c.toNat / 64 % 64),
        UInt8.ofNat (0x80 + c.toNat % 64)]) ∨
    (c.utf8Size = 4 ∧ 0x10000 ≤ c.toNat ∧ c.toNat ≤ 0x10FFFF ∧ String.utf8EncodeChar c =
      [UInt8.ofNat (0xF0 + c.toNat / 262144), UInt8.ofNat (0x80 + c.toNat / 4096 % 64),
        UInt8.ofNat (0x80 + c.toNat / 64 % 64), UInt8.ofNat (0x80 + c.toNat % 64)]) := by
  have hvalid : c.toNat < 0xD800 ∨ (0xDFFF < c.toNat ∧ c.toNat < 0x110000) := c.valid
  rw [← String.length_utf8EncodeChar c]
  unfold String.utf8EncodeChar
  rw [show c.val.toNat = c.toNat from rfl]
  generalize c.toNat = v at hvalid
  by_cases h1 : v ≤ 127
  · simp only [h1, if_true]
    exact .inl ⟨rfl, trivial, trivial⟩
  by_cases h2 : v ≤ 2047
  · simp only [h1, h2, if_true, if_false]
    refine .inr (.inl ⟨rfl, by omega, trivial, ?_⟩)
    rw [show v / 64 % 32 + 192 = 192 + v / 64 by omega, Nat.add_comm (v % 64)]
  by_cases h3 : v ≤ 65535
  · simp only [h1, h2, h3, if_true, if_false]
    refine .inr (.inr (.inl ⟨rfl, by omega, trivial, ?_⟩))
    rw [show v / 4096 % 16 + 224 = 224 + v / 4096 by omega, Nat.add_comm (v / 64 % 64),
      Nat.add_comm (v % 64)]
  · simp only [h1, h2, h3, if_false]
    refine .inr (.inr (.inr ⟨rfl, by omega, by omega, ?_⟩))
    rw [show v / 262144 % 8 + 240 = 240 + v / 262144 by omega, Nat.add_comm (v / 4096 % 64),
      Nat.add_comm (v / 64 % 64), Nat.add_comm (v % 64)]

/-- The lengths of forms go by the numbers of characters. -/
theorem utf8Size_cases (c : Char) : (c.utf8Size = 1 ∧ c.toNat ≤ 0x7F) ∨
    (c.utf8Size = 2 ∧ 0x80 ≤ c.toNat ∧ c.toNat ≤ 0x7FF) ∨
    (c.utf8Size = 3 ∧ 0x800 ≤ c.toNat ∧ c.toNat ≤ 0xFFFF) ∨
    (c.utf8Size = 4 ∧ 0x10000 ≤ c.toNat ∧ c.toNat ≤ 0x10FFFF) := by
  rcases form_cases c with ⟨h, hn, -⟩ | ⟨h, hn, hn', -⟩ | ⟨h, hn, hn', -⟩ | ⟨h, hn, hn', -⟩
  · exact .inl ⟨h, hn⟩
  · exact .inr (.inl ⟨h, hn, hn'⟩)
  · exact .inr (.inr (.inl ⟨h, hn, hn'⟩))
  · exact .inr (.inr (.inr ⟨h, hn, hn'⟩))

/-- No number of a character is that of a surrogate. -/
theorem toNat_valid (c : Char) : c.toNat < 0xD800 ∨ (0xDFFF < c.toNat ∧ c.toNat < 0x110000) :=
  c.valid

theorem exists_char {n : Nat} (h : n < 0xD800 ∨ (0xDFFF < n ∧ n < 0x110000)) :
    ∃ c : Char, c.toNat = n := by
  refine ⟨Char.ofNat n, ?_⟩
  unfold Char.ofNat
  rw [dif_pos h]
  rfl

/-- The byte that a form begins with. -/
theorem first_byte (c : Char) (b : UInt8) : [b] <+: String.utf8EncodeChar c ↔
    (c.utf8Size = 1 ∧ b.toNat = c.toNat) ∨ (c.utf8Size = 2 ∧ b.toNat = 0xC0 + c.toNat / 64) ∨
    (c.utf8Size = 3 ∧ b.toNat = 0xE0 + c.toNat / 4096) ∨
    (c.utf8Size = 4 ∧ b.toNat = 0xF0 + c.toNat / 262144) := by
  have hhead : ∀ {n : Nat} {l : List UInt8}, n < 256 →
      ([b] <+: UInt8.ofNat n :: l ↔ b.toNat = n) := fun hn => by
    rw [List.cons_prefix_cons, eq_comm, ofNat_eq_iff hn, and_iff_left List.nil_prefix]
  rcases form_cases c with ⟨h, hn, hform⟩ | ⟨h, hn, hn', hform⟩ | ⟨h, hn, hn', hform⟩ |
    ⟨h, hn, hn', hform⟩
  · rw [hform, hhead (by omega)]
    omega
  · rw [hform, hhead (by omega)]
    omega
  · rw [hform, hhead (by omega)]
    omega
  · rw [hform, hhead (by omega)]
    omega

/-- A byte of a form after its first one. After it, `m` bytes are still to come. -/
theorem later_byte {c : Char} {k m : Nat} (hk : 1 ≤ k) (hsize : c.utf8Size = k + (m + 1))
    (b : UInt8) : (String.utf8EncodeChar c)[k]? = some b ↔
      b.toNat = 0x80 + c.toNat / 64 ^ m % 64 := by
  have hsix : 0x80 + c.toNat / 64 ^ m % 64 < 256 := by omega
  rw [← ofNat_eq_iff hsix]
  rcases form_cases c with ⟨h, -⟩ | ⟨h, -, -, hform⟩ | ⟨h, -, -, hform⟩ | ⟨h, -, -, hform⟩
  · omega
  · obtain ⟨rfl, rfl⟩ : k = 1 ∧ m = 0 := by omega
    simp [hform]
  · have hkm : k = 1 ∧ m = 1 ∨ k = 2 ∧ m = 0 := by omega
    rcases hkm with ⟨rfl, rfl⟩ | ⟨rfl, rfl⟩
    · simp [hform]
    · simp [hform]
  · have hkm : k = 1 ∧ m = 2 ∨ k = 2 ∧ m = 1 ∨ k = 3 ∧ m = 0 := by omega
    rcases hkm with ⟨rfl, rfl⟩ | ⟨rfl, rfl⟩ | ⟨rfl, rfl⟩
    · simp [hform]
    · simp [hform]
    · simp [hform]

/-- No form is the front of another one. -/
theorem forms_prefix_free {c d : Char}
    (h : String.utf8EncodeChar c <+: String.utf8EncodeChar d) : c = d := by
  obtain ⟨rest, hrest⟩ := h
  have hc := ByteArray.utf8DecodeChar?_utf8EncodeChar_append (c := c) (b := rest.toByteArray)
  have hd := ByteArray.utf8DecodeChar?_utf8EncodeChar_append (c := d) (b := ByteArray.empty)
  rw [← List.toByteArray_append, hrest] at hc
  rw [ByteArray.append_empty, hc] at hd
  exact Option.some.inj hd

end Lexis.Utf8
