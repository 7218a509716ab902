import Mathlib.Data.Nat.Bitwise

/-!
# BitMask — a 32-bit word read as a set of positions

`bit m i` is position `i` of the word `m`. The lemmas push `bit` through
the word operations a mask is maintained with (shift, or, and), so that
a proof about masks is a proof about positions.
-/

namespace BitMask

/-- Position `i` of the mask. -/
def bit (m : UInt32) (i : Nat) : Bool := m.toNat.testBit i

theorem bit_of_ge (m : UInt32) {i : Nat} (h : 32 ≤ i) : bit m i = false :=
  Nat.testBit_lt_two_pow (Nat.lt_of_lt_of_le m.toNat_lt (Nat.pow_le_pow_right (by decide) h))

@[simp] theorem bit_zero (i : Nat) : bit 0 i = false := by simp [bit]

@[simp] theorem bit_one (i : Nat) : bit 1 i = decide (i = 0) := by
  rw [Bool.eq_iff_iff, decide_eq_true_iff]
  exact Nat.testBit_one_eq_true_iff_self_eq_zero

@[simp] theorem bit_or (a b : UInt32) (i : Nat) : bit (a ||| b) i = (bit a i || bit b i) := by
  simp [bit]

@[simp] theorem bit_and (a b : UInt32) (i : Nat) : bit (a &&& b) i = (bit a i && bit b i) := by
  simp [bit]

/-- Words with the same positions are equal. -/
theorem ext {a b : UInt32} (h : ∀ i < 32, bit a i = bit b i) : a = b := by
  apply UInt32.toNat_inj.mp
  apply Nat.eq_of_testBit_eq
  intro i
  rcases Nat.lt_or_ge i 32 with hi | hi
  · exact h i hi
  · exact (bit_of_ge a hi).trans (bit_of_ge b hi).symm

theorem bit_shiftLeft (m n : UInt32) (hn : n.toNat < 32) (i : Nat) :
    bit (m <<< n) i = (decide (n.toNat ≤ i ∧ i < 32) && bit m (i - n.toNat)) := by
  simp only [bit, UInt32.toNat_shiftLeft, Nat.testBit_mod_two_pow, Nat.testBit_shiftLeft,
    Nat.mod_eq_of_lt hn, Bool.decide_and]
  cases decide (i < 32) <;> simp

theorem bit_shiftRight (m n : UInt32) (hn : n.toNat < 32) (i : Nat) :
    bit (m >>> n) i = bit m (i + n.toNat) := by
  simp [bit, UInt32.toNat_shiftRight, Nat.testBit_shiftRight, Nat.mod_eq_of_lt hn, Nat.add_comm]

theorem bit_one_shiftLeft (n : UInt32) (hn : n.toNat < 32) (i : Nat) :
    bit (1 <<< n) i = decide (i = n.toNat) := by
  rw [bit_shiftLeft _ _ hn, bit_one]
  rcases Nat.lt_trichotomy i n.toNat with h | h | h
  · simp [Nat.not_le.mpr h, Nat.ne_of_lt h]
  · simp [h, hn]
  · have : i - n.toNat ≠ 0 := by omega
    simp [this, Nat.ne_of_gt h]

/-- Testing a mask against a one-position word reads that position. -/
theorem and_one_shiftLeft_eq_zero (m n : UInt32) (hn : n.toNat < 32) :
    m &&& (1 <<< n) = 0 ↔ bit m n.toNat = false := by
  constructor
  · intro h
    have := congrArg (bit · n.toNat) h
    simpa [bit_one_shiftLeft n hn] using this
  · intro h
    apply ext
    intro i _
    rw [bit_and, bit_one_shiftLeft n hn, bit_zero]
    by_cases hi : i = n.toNat
    · simp [hi, h]
    · simp [hi]

/-- Shifting a position down to the bottom and masking it reads it. -/
theorem shiftRight_and_one (m n : UInt32) (hn : n.toNat < 32) :
    (m >>> n) &&& 1 = if bit m n.toNat then 1 else 0 := by
  apply ext
  intro i _
  rw [bit_and, bit_shiftRight m n hn, bit_one]
  by_cases hi : i = 0
  · subst hi
    cases h : bit m n.toNat <;> simp [h]
  · split <;> simp [hi]

end BitMask
