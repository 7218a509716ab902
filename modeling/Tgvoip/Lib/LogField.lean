import Mathlib.Algebra.Field.Defs
import Mathlib.Algebra.Group.Hom.Defs
import Mathlib.Algebra.Ring.Defs
import Mathlib.Logic.Function.Iterate
import Mathlib.Algebra.Group.Hom.Instances

/-!
# LogField — a field given by logarithms

An additive group in which every element but zero is reached from `one` by
repeating one additive map `next`. Elements are multiplied by adding their
logarithms, which is what tables of logarithms do; additivity of `next` is
all the distributive law needs.
-/

structure LogField (V : Type*) [AddCommGroup V] where
  one : V
  /-- Multiplication by the generator. -/
  next : V →+ V
  log : V → ℕ
  period : ℕ
  one_ne_zero : one ≠ 0
  period_pos : 0 < period
  next_period : next^[period] one = one
  next_log : ∀ v, v ≠ 0 → next^[log v] one = v

namespace LogField

variable {V : Type*} [AddCommGroup V] (f : LogField V)

/-- The power of the generator. -/
def exp (n : ℕ) : V := f.next^[n] f.one

theorem next_exp (m n : ℕ) : f.next^[m] (f.exp n) = f.exp (m + n) :=
  (Function.iterate_add_apply f.next m n f.one).symm

theorem next_zero (n : ℕ) : f.next^[n] 0 = 0 := iterate_map_zero f.next n

theorem exp_log {v : V} (hv : v ≠ 0) : f.exp (f.log v) = v := f.next_log v hv

theorem exp_period_mul (n : ℕ) : f.exp (f.period * n) = f.one := by
  induction n with
  | zero => rfl
  | succ n ih =>
      rw [Nat.mul_succ, Nat.add_comm, ← next_exp, ih]
      exact f.next_period

theorem exp_ne_zero (n : ℕ) : f.exp n ≠ 0 := by
  intro h
  have hle : n ≤ f.period * n := Nat.le_mul_of_pos_left n f.period_pos
  have h1 : f.exp (f.period * n) = 0 := by
    rw [← Nat.sub_add_cancel hle, ← next_exp, h, next_zero]
  exact f.one_ne_zero ((f.exp_period_mul n).symm.trans h1)

/-- Two powers of `next` that agree at `one` agree everywhere. -/
theorem next_congr {m n : ℕ} (h : f.exp m = f.exp n) (v : V) : f.next^[m] v = f.next^[n] v := by
  by_cases hv : v = 0
  · rw [hv, next_zero, next_zero]
  · rw [← f.exp_log hv, next_exp, next_exp, Nat.add_comm m, Nat.add_comm n, ← next_exp,
      ← next_exp, h]

theorem exp_add_period (n : ℕ) : f.exp (n + f.period) = f.exp n := by
  rw [← next_exp, exp, f.next_period, exp]

variable [DecidableEq V]

def mul (x y : V) : V := if x = 0 then 0 else f.next^[f.log x] y

def inv (x : V) : V := if x = 0 then 0 else f.exp (f.period * f.log x - f.log x)

theorem mul_of_ne_zero {x : V} (hx : x ≠ 0) (y : V) : f.mul x y = f.next^[f.log x] y := if_neg hx

theorem zero_mul (y : V) : f.mul 0 y = 0 := if_pos rfl

theorem mul_zero (x : V) : f.mul x 0 = 0 := by
  unfold mul
  split
  · rfl
  · exact f.next_zero _

theorem mul_next (x y : V) : f.mul x (f.next y) = f.next (f.mul x y) := by
  unfold mul
  split
  · exact (map_zero f.next).symm
  · exact (Function.iterate_succ_apply f.next _ y).symm.trans (Function.iterate_succ_apply' ..)

theorem mul_eq_exp {x y : V} (hx : x ≠ 0) (hy : y ≠ 0) :
    f.mul x y = f.exp (f.log x + f.log y) := by
  rw [mul_of_ne_zero f hx, ← next_exp, exp_log f hy]

theorem mul_ne_zero {x y : V} (hx : x ≠ 0) (hy : y ≠ 0) : f.mul x y ≠ 0 := by
  rw [mul_eq_exp f hx hy]
  exact f.exp_ne_zero _

theorem mul_comm (x y : V) : f.mul x y = f.mul y x := by
  by_cases hx : x = 0
  · rw [hx, zero_mul, mul_zero]
  · by_cases hy : y = 0
    · rw [hy, zero_mul, mul_zero]
    · rw [mul_eq_exp f hx hy, mul_eq_exp f hy hx, Nat.add_comm]

theorem one_mul (y : V) : f.mul f.one y = y := by
  rw [mul_of_ne_zero f f.one_ne_zero]
  exact f.next_congr (n := 0) (f.exp_log f.one_ne_zero) y

theorem mul_assoc (x y z : V) : f.mul (f.mul x y) z = f.mul x (f.mul y z) := by
  by_cases hx : x = 0
  · rw [hx, zero_mul, zero_mul, zero_mul]
  · by_cases hy : y = 0
    · rw [hy, mul_zero, zero_mul, mul_zero]
    · have hxy : f.exp (f.log (f.mul x y)) = f.exp (f.log x + f.log y) := by
        rw [exp_log f (f.mul_ne_zero hx hy), mul_eq_exp f hx hy]
      rw [mul_of_ne_zero f (f.mul_ne_zero hx hy), f.next_congr hxy z, mul_of_ne_zero f hx,
        mul_of_ne_zero f hy, Function.iterate_add_apply]

theorem mul_add (x y z : V) : f.mul x (y + z) = f.mul x y + f.mul x z := by
  unfold mul
  split
  · exact (add_zero 0).symm
  · exact iterate_map_add f.next _ y z

theorem mul_inv {x : V} (hx : x ≠ 0) : f.mul x (f.inv x) = f.one := by
  have hle : f.log x ≤ f.period * f.log x := Nat.le_mul_of_pos_left _ f.period_pos
  rw [mul_of_ne_zero f hx, inv, if_neg hx, next_exp, Nat.add_sub_cancel' hle, exp_period_mul]

/-- **Tables of logarithms make a field.** -/
@[reducible] def field : Field V where
  mul := f.mul
  one := f.one
  inv := f.inv
  mul_assoc := f.mul_assoc
  mul_comm := f.mul_comm
  one_mul := f.one_mul
  mul_one x := (f.mul_comm x f.one).trans (f.one_mul x)
  zero_mul := f.zero_mul
  mul_zero := f.mul_zero
  left_distrib := f.mul_add
  right_distrib x y z := by
    show f.mul (x + y) z = f.mul x z + f.mul y z
    rw [f.mul_comm, f.mul_add, f.mul_comm z x, f.mul_comm z y]
  exists_pair_ne := ⟨f.one, 0, f.one_ne_zero⟩
  mul_inv_cancel _ hx := f.mul_inv hx
  inv_zero := if_pos rfl
  nnqsmul := _
  nnqsmul_def _ _ := rfl
  qsmul := _
  qsmul_def _ _ := rfl

end LogField
