import Mathlib.Algebra.Group.Nat.Defs

/-! # The order of strings is the order of their bytes

Strings are compared character by character. Comparing the bytes that write them in UTF-8 comes to the same
(`lt_iff_utf8_lt`): a larger code has a larger first byte or as many bytes (`Sized.first_lt_or_eq`), and codes
with the same number of bytes are compared by their digits to the base 64 (`bytes_lt`). -/

namespace StyleBump.Text

/-- The bytes that write a string. -/
def utf8 (s : String) : List UInt8 := s.toUTF8.data.toList

/-- The bytes of a code: a first one that holds a mark and the top of the code, and `k` more with six bits
each. -/
def bytes (mark : Nat) : Nat → Nat → List UInt8
  | 0, n => [.ofNat (n + mark)]
  | k + 1, n => bytes mark k (n / 64) ++ [.ofNat (n % 64 + 128)]

/-- How many bytes follow the first one of a code, and the mark in that one. -/
inductive Sized : Nat → Nat → Nat → Prop
  | one {n : Nat} (h : n ≤ 0x7f) : Sized n 0 0
  | two {n : Nat} (h : 0x7f < n) (h' : n ≤ 0x7ff) : Sized n 1 0xc0
  | three {n : Nat} (h : 0x7ff < n) (h' : n ≤ 0xffff) : Sized n 2 0xe0
  | four {n : Nat} (h : 0xffff < n) (h' : n ≤ 0x10ffff) : Sized n 3 0xf0

theorem Sized.first_lt {n k mark : Nat} (h : Sized n k mark) : n / 64 ^ k + mark < 256 := by
  cases h <;> simp <;> omega

/-- A larger code has a larger first byte, or as many bytes. -/
theorem Sized.first_lt_or_eq {m n k k' mark mark' : Nat} (hm : Sized m k mark) (hn : Sized n k' mark') (h : m < n) :
    m / 64 ^ k + mark < n / 64 ^ k' + mark' ∨ k = k' ∧ mark = mark' := by
  cases hm <;> cases hn <;> simp <;> omega

theorem utf8EncodeChar_eq_bytes (c : Char) :
    ∃ k mark, Sized c.val.toNat k mark ∧ String.utf8EncodeChar c = bytes mark k c.val.toNat := by
  have hc : c.val.toNat ≤ 0x10ffff := by
    rcases c.valid with h | ⟨-, h⟩ <;> omega
  unfold String.utf8EncodeChar
  generalize c.val.toNat = n at hc ⊢
  have h64 : n / 4096 = n / 64 / 64 := by omega
  have h4096 : n / 262144 = n / 64 / 64 / 64 := by omega
  simp only [h64, h4096]
  split
  · exact ⟨0, 0, .one ‹_›, rfl⟩
  split
  · refine ⟨1, 0xc0, .two (by omega) ‹_›, ?_⟩
    rw [Nat.mod_eq_of_lt (by omega : n / 64 < 32)]
    rfl
  split
  · refine ⟨2, 0xe0, .three (by omega) ‹_›, ?_⟩
    rw [Nat.mod_eq_of_lt (by omega : n / 64 / 64 < 16)]
    rfl
  · refine ⟨3, 0xf0, .four (by omega) hc, ?_⟩
    rw [Nat.mod_eq_of_lt (by omega : n / 64 / 64 / 64 < 8)]
    rfl

theorem ofNat_cons_lt {a b : Nat} (h : a < b) (hb : b < 256) (u v : List UInt8) :
    UInt8.ofNat a :: u < UInt8.ofNat b :: v := by
  refine List.cons_lt_cons_iff.2 (.inl ?_)
  rw [UInt8.lt_iff_toNat_lt, UInt8.toNat_ofNat', UInt8.toNat_ofNat']
  omega

theorem bytes_eq_cons (mark k n : Nat) : ∃ u, bytes mark k n = .ofNat (n / 64 ^ k + mark) :: u := by
  induction k generalizing n with
  | zero => exact ⟨[], by rw [bytes, Nat.pow_zero, Nat.div_one]⟩
  | succ k ih =>
    obtain ⟨u, hu⟩ := ih (n / 64)
    refine ⟨u ++ [.ofNat (n % 64 + 128)], ?_⟩
    rw [bytes, hu, Nat.div_div_eq_div_mul, Nat.pow_succ']
    rfl

/-- Codes with the same number of bytes are ordered as their bytes, whatever stands behind these. -/
theorem bytes_lt {mark k m n : Nat} (h : m < n) (hn : n / 64 ^ k + mark < 256) (x y : List UInt8) :
    bytes mark k m ++ x < bytes mark k n ++ y := by
  induction k generalizing m n x y with
  | zero =>
    rw [Nat.pow_zero, Nat.div_one] at hn
    exact ofNat_cons_lt (by omega) hn x y
  | succ k ih =>
    rw [bytes, bytes, List.append_assoc, List.append_assoc]
    rcases Nat.lt_or_eq_of_le (Nat.div_le_div_right (Nat.le_of_lt h) : m / 64 ≤ n / 64) with hlt | heq
    · refine ih hlt ?_ _ _
      rwa [Nat.div_div_eq_div_mul, ← Nat.pow_succ']
    · rw [heq]
      exact List.append_left_lt (ofNat_cons_lt (by omega) (by omega) x y)

theorem utf8EncodeChar_lt {c d : Char} (h : c < d) (x y : List UInt8) :
    String.utf8EncodeChar c ++ x < String.utf8EncodeChar d ++ y := by
  obtain ⟨k, mark, hc, hcb⟩ := utf8EncodeChar_eq_bytes c
  obtain ⟨k', mark', hd, hdb⟩ := utf8EncodeChar_eq_bytes d
  rw [hcb, hdb]
  rcases hc.first_lt_or_eq hd h with hfirst | ⟨rfl, rfl⟩
  · obtain ⟨u, hu⟩ := bytes_eq_cons mark k c.val.toNat
    obtain ⟨v, hv⟩ := bytes_eq_cons mark' k' d.val.toNat
    rw [hu, hv]
    exact ofNat_cons_lt hfirst hd.first_lt _ _
  · exact bytes_lt h hd.first_lt x y

theorem flatMap_utf8_lt {cs ds : List Char} (h : cs < ds) :
    cs.flatMap String.utf8EncodeChar < ds.flatMap String.utf8EncodeChar := by
  induction h with
  | @nil d ds =>
    rw [List.flatMap_nil, List.flatMap_cons]
    cases he : String.utf8EncodeChar d with
    | nil => exact absurd he String.utf8EncodeChar_ne_nil
    | cons b bs => exact List.nil_lt_cons _ _
  | rel h => exact utf8EncodeChar_lt h _ _
  | cons _ ih => exact List.append_left_lt ih

theorem utf8_eq (s : String) : utf8 s = s.toList.flatMap String.utf8EncodeChar := by
  rw [utf8, String.toUTF8_eq_toByteArray, ← String.utf8Encode_toList, List.utf8Encode, List.data_toByteArray]

/-- Strings are ordered as their bytes are. -/
theorem lt_iff_utf8_lt (s t : String) : s < t ↔ utf8 s < utf8 t := by
  have forward {s t : String} (h : s < t) : utf8 s < utf8 t := by
    rw [utf8_eq, utf8_eq]
    exact flatMap_utf8_lt h
  refine ⟨forward, fun h => Decidable.byContradiction fun hst => ?_⟩
  have hts : ¬ t < s := fun hlt => List.lt_asymm h (forward hlt)
  have heq : s = t := String.le_antisymm (String.not_lt.1 hts) (String.not_lt.1 hst)
  rw [heq] at h
  exact List.lt_irrefl _ h

end StyleBump.Text
