import Mathlib.Algebra.BigOperators.Intervals
import Mathlib.Algebra.Module.Basic
import Mathlib.Algebra.Module.BigOperators
import Mathlib.Tactic.FieldSimp
import Mathlib.Tactic.Ring

/-!
# Elimination — linear systems solved in three sweeps

A system whose Schur complements are known need not be eliminated entry by
entry: with `S k` the complement after `k` steps, the rows are cleared
below the diagonal (`forward`), divided by the pivots, and cleared above the
diagonal (`backward`). The unknowns may be in any module over the field.

The complements of a Cauchy matrix stay of its form: one factor for each row
and one for each column change (`rowGen`, `colGen`), so all of them are
found in quadratic time.
-/

namespace Elimination

open Finset

variable {F V : Type*} [Field F] [AddCommGroup V] [Module F V]

/-! ## The sweeps -/

/-- Clear column `j` below the diagonal. -/
def below (l : ℕ → ℕ → F) (j : ℕ) (r : ℕ → V) (i : ℕ) : V :=
  if j < i then r i - l i j • r j else r i

/-- Clear column `j` above the diagonal. -/
def above (u : ℕ → ℕ → F) (j : ℕ) (r : ℕ → V) (i : ℕ) : V :=
  if i < j then r i - u i j • r j else r i

/-- The columns from the first on. -/
def forward (l : ℕ → ℕ → F) : ℕ → (ℕ → V) → ℕ → V
  | 0, r => r
  | k + 1, r => below l k (forward l k r)

/-- The columns from the last on. -/
def backward (u : ℕ → ℕ → F) : ℕ → (ℕ → V) → ℕ → V
  | 0, r => r
  | j + 1, r => backward u j (above u j r)

/-! ## The complements -/

/-- The Schur complements of an `n` by `n` matrix `S 0`. -/
structure Complements (S : ℕ → ℕ → ℕ → F) (n : ℕ) : Prop where
  pivot : ∀ k < n, S k k k ≠ 0
  step : ∀ k i j, k < i → i < n → k < j → j < n →
    S (k + 1) i j = S k i j - S k i k / S k k k * S k k j

/-- The multipliers below the diagonal. -/
def lower (S : ℕ → ℕ → ℕ → F) (i j : ℕ) : F := S j i j / S j j j

/-- The multipliers above the diagonal. -/
def upper (S : ℕ → ℕ → ℕ → F) (i j : ℕ) : F := S i i j / S i i i

variable {S : ℕ → ℕ → ℕ → F} {n : ℕ} {r z : ℕ → V}

/-- After `k` columns, row `i` has lost its first `min i k` unknowns. -/
theorem Complements.forward_eq (h : Complements S n)
    (hr : ∀ i < n, r i = ∑ j ∈ range n, S 0 i j • z j) {k : ℕ} (hk : k ≤ n) {i : ℕ} (hi : i < n) :
    forward (lower S) k r i = ∑ j ∈ Ico (min i k) n, S (min i k) i j • z j := by
  induction k generalizing i with
  | zero => rw [Nat.min_zero, ← range_eq_Ico]; exact hr i hi
  | succ k ih =>
      have hkn : k < n := hk
      show below (lower S) k (forward (lower S) k r) i = _
      rw [below]
      by_cases hki : k < i
      · have hrow := ih hkn.le hi
        have hpiv := ih hkn.le hkn
        rw [Nat.min_eq_right hki.le] at hrow
        rw [Nat.min_self] at hpiv
        rw [if_pos hki, Nat.min_eq_right hki, hrow, hpiv, smul_sum, ← sum_sub_distrib,
          sum_eq_sum_Ico_succ_bot hkn]
        have hhead : S k i k • z k - lower S i k • S k k k • z k = 0 := by
          rw [smul_smul, lower, div_mul_cancel₀ _ (h.pivot k hkn), sub_self]
        rw [hhead, zero_add]
        refine sum_congr rfl fun j hj => ?_
        obtain ⟨hkj, hjn⟩ := mem_Ico.mp hj
        rw [smul_smul, ← sub_smul, h.step k i j hki hi hkj hjn, lower]
      · have hmin : min i (k + 1) = min i k := by omega
        rw [if_neg hki, hmin]
        exact ih hkn.le hi

/-- Above `m`, row `i` has lost its unknowns from `m` on. -/
theorem backward_eq {u : ℕ → ℕ → F} (hu : ∀ i < n, u i i = 1) {m : ℕ} (hm : m ≤ n)
    (hr : ∀ i < n, r i = ∑ j ∈ Ico i (max m (i + 1)), u i j • z j) {i : ℕ} (hi : i < n) :
    backward u m r i = z i := by
  induction m generalizing r with
  | zero =>
      show r i = z i
      rw [hr i hi, Nat.zero_max, Nat.Ico_succ_singleton, sum_singleton, hu i hi, one_smul]
  | succ m ih =>
      have hrm : r m = z m := by
        rw [hr m hm, Nat.max_self, Nat.Ico_succ_singleton, sum_singleton, hu m hm, one_smul]
      refine ih (Nat.le_of_succ_le hm) fun i hi => ?_
      rw [above]
      by_cases him : i < m
      · rw [if_pos him, hr i hi, hrm, max_eq_left (by omega), max_eq_left (by omega),
          sum_Ico_succ_top him.le, add_sub_cancel_right]
      · rw [if_neg him, hr i hi, max_eq_right (by omega), max_eq_right (by omega)]

/-- **The three sweeps solve the system.** -/
theorem Complements.solve (h : Complements S n)
    (hr : ∀ i < n, r i = ∑ j ∈ range n, S 0 i j • z j) {i : ℕ} (hi : i < n) :
    backward (upper S) n (fun i => (S i i i)⁻¹ • forward (lower S) n r i) i = z i := by
  refine backward_eq (fun i hi => div_self (h.pivot i hi)) le_rfl (fun i hi => ?_) hi
  rw [h.forward_eq hr le_rfl hi, Nat.min_eq_left hi.le, max_eq_left hi, smul_sum]
  refine sum_congr rfl fun j _ => ?_
  rw [smul_smul, upper, div_eq_inv_mul]

/-! ## Cauchy matrices -/

variable (x y w : ℕ → F)

/-- The factor of row `i` after `k` steps. -/
def rowGen : ℕ → ℕ → F
  | 0, _ => 1
  | k + 1, i => rowGen k i * ((x i - x k) / (x i - y k))

/-- The factor of column `j` after `k` steps. -/
def colGen : ℕ → ℕ → F
  | 0, _ => 1
  | k + 1, j => colGen k j * ((y j - y k) / (y j - x k))

/-- The complements of the matrix with the entries `w j / (x i - y j)`. -/
def cauchy (k i j : ℕ) : F := rowGen x y k i * colGen x y k j * w j / (x i - y j)

variable {x y w}

/-- Rows and columns that can be told apart, and no column that is zero. -/
structure Apart (x y w : ℕ → F) (n : ℕ) : Prop where
  rows : ∀ i < n, ∀ j < n, x i = x j → i = j
  cols : ∀ i < n, ∀ j < n, y i = y j → i = j
  cross : ∀ i < n, ∀ j < n, x i ≠ y j
  weights : ∀ j < n, w j ≠ 0

theorem Apart.rowGen_ne_zero (h : Apart x y w n) {k i : ℕ} (hk : k ≤ i) (hi : i < n) :
    rowGen x y k i ≠ 0 := by
  induction k with
  | zero => exact one_ne_zero
  | succ k ih =>
      refine mul_ne_zero (ih (by omega)) (div_ne_zero ?_ ?_)
      · exact sub_ne_zero.mpr fun hx => absurd (h.rows i hi k (by omega) hx) (by omega)
      · exact sub_ne_zero.mpr (h.cross i hi k (by omega))

theorem Apart.colGen_ne_zero (h : Apart x y w n) {k j : ℕ} (hk : k ≤ j) (hj : j < n) :
    colGen x y k j ≠ 0 := by
  induction k with
  | zero => exact one_ne_zero
  | succ k ih =>
      refine mul_ne_zero (ih (by omega)) (div_ne_zero ?_ ?_)
      · exact sub_ne_zero.mpr fun hy => absurd (h.cols j hj k (by omega) hy) (by omega)
      · exact sub_ne_zero.mpr (h.cross k (by omega) j hj).symm

/-- **The complements of a Cauchy matrix are Cauchy matrices** with other
factors. -/
theorem Apart.complements (h : Apart x y w n) : Complements (cauchy x y w) n where
  pivot k hk := div_ne_zero
    (mul_ne_zero (mul_ne_zero (h.rowGen_ne_zero le_rfl hk) (h.colGen_ne_zero le_rfl hk))
      (h.weights k hk)) (sub_ne_zero.mpr (h.cross k hk k hk))
  step k i j hki hi hkj hj := by
    have hk : k < n := hki.trans hi
    have hij : x i - y j ≠ 0 := sub_ne_zero.mpr (h.cross i hi j hj)
    have hik : x i - y k ≠ 0 := sub_ne_zero.mpr (h.cross i hi k hk)
    have hkj' : x k - y j ≠ 0 := sub_ne_zero.mpr (h.cross k hk j hj)
    have hjk : y j - x k ≠ 0 := sub_ne_zero.mpr (h.cross k hk j hj).symm
    have hkk : x k - y k ≠ 0 := sub_ne_zero.mpr (h.cross k hk k hk)
    have hg := h.rowGen_ne_zero le_rfl hk
    have hb := h.colGen_ne_zero le_rfl hk
    have hw := h.weights k hk
    simp only [cauchy, rowGen, colGen]
    field_simp
    ring

/-- A multiplier below the diagonal takes the factors of two rows only. -/
theorem Apart.lower_eq (h : Apart x y w n) {k i : ℕ} (hki : k < i) (hi : i < n) :
    lower (cauchy x y w) i k
      = rowGen x y k i / (x i - y k) / (rowGen x y k k / (x k - y k)) := by
  have hk : k < n := hki.trans hi
  have hik : x i - y k ≠ 0 := sub_ne_zero.mpr (h.cross i hi k hk)
  have hkk : x k - y k ≠ 0 := sub_ne_zero.mpr (h.cross k hk k hk)
  have hg := h.rowGen_ne_zero le_rfl hk
  have hb := h.colGen_ne_zero le_rfl hk
  have hw := h.weights k hk
  simp only [lower, cauchy]
  field_simp

/-- A multiplier above it, the factors of two columns. -/
theorem Apart.upper_eq (h : Apart x y w n) {k j : ℕ} (hkj : k < j) (hj : j < n) :
    upper (cauchy x y w) k j
      = colGen x y k j / (x k - y j) / (colGen x y k k / (x k - y k) * w k) * w j := by
  have hk : k < n := hkj.trans hj
  have hkj' : x k - y j ≠ 0 := sub_ne_zero.mpr (h.cross k hk j hj)
  have hkk : x k - y k ≠ 0 := sub_ne_zero.mpr (h.cross k hk k hk)
  have hg := h.rowGen_ne_zero le_rfl hk
  have hb := h.colGen_ne_zero le_rfl hk
  have hw := h.weights k hk
  simp only [upper, cauchy]
  field_simp

theorem Apart.pivot_eq (h : Apart x y w n) {k : ℕ} (hk : k < n) :
    cauchy x y w k k k
      = (x k - y k) * (rowGen x y k k / (x k - y k) * (colGen x y k k / (x k - y k) * w k)) := by
  have hkk : x k - y k ≠ 0 := sub_ne_zero.mpr (h.cross k hk k hk)
  rw [cauchy]
  field_simp

end Elimination
