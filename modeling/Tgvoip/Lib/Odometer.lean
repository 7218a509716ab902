import Mathlib.Algebra.BigOperators.Group.List.Basic
import Mathlib.Data.Int.Notation
import Mathlib.Tactic.Ring

/-!
# Odometer — readings of a counter that wraps

A counter with `m` values that is read again and again, the last reading
first. The distances between neighbouring readings, taken modulo `m`, add
up to the way from the first reading to the last, with a full turn for
each time the counter went back (`sum_dists`).
-/

namespace Odometer

variable {m a b : ℕ} {rs : List ℕ}

/-- From the reading `a` on to the reading `b`. -/
def dist (m a b : ℕ) : ℕ := (m - a + b) % m

/-- The distances between neighbours. -/
def dists (m : ℕ) : List ℕ → List ℕ
  | b :: a :: rs => dist m a b :: dists m (a :: rs)
  | _ => []

/-- How often the counter went back. -/
def turns : List ℕ → ℕ
  | b :: a :: rs => (if b < a then 1 else 0) + turns (a :: rs)
  | _ => 0

/-- How far the counter came, from the first of the readings to the last. -/
def advance (m : ℕ) (rs : List ℕ) : ℤ :=
  (rs.head?.getD 0 : ℤ) - rs.getLast?.getD 0 + m * turns rs

theorem dist_add (ha : a < m) (hb : b < m) : dist m a b + a = b + if b < a then m else 0 := by
  unfold dist
  split_ifs with hback
  · rw [Nat.mod_eq_of_lt (by omega)]
    omega
  · rw [(by omega : m - a + b = b - a + m), Nat.add_mod_right, Nat.mod_eq_of_lt (by omega)]
    omega

theorem advance_cons (m a b : ℕ) (rs : List ℕ) : advance m (b :: a :: rs) =
    (b : ℤ) - a + (if b < a then m else 0 : ℕ) + advance m (a :: rs) := by
  unfold advance
  rw [turns, List.head?_cons, List.head?_cons, List.getLast?_cons_cons]
  split_ifs
  · push_cast
    dsimp only [Option.getD_some]
    ring
  · push_cast
    dsimp only [Option.getD_some]
    ring

/-- **The distances telescope.** -/
theorem sum_dists (h : ∀ r ∈ rs, r < m) : ((dists m rs).sum : ℤ) = advance m rs := by
  induction rs with
  | nil => simp [dists, advance, turns]
  | cons b rs ih =>
      cases rs with
      | nil => simp [dists, advance, turns]
      | cons a rs =>
          have hrest := ih fun r hr => h r (List.mem_cons_of_mem b hr)
          have hdist := dist_add (h a (by simp)) (h b (by simp))
          rw [dists, List.sum_cons, advance_cons, ← hrest]
          omega

/-- The last distances are those between the last readings. -/
theorem take_dists (m n : ℕ) (rs : List ℕ) : (dists m rs).take n = dists m (rs.take (n + 1)) := by
  induction rs generalizing n with
  | nil => simp [dists]
  | cons b rs ih =>
      cases rs with
      | nil => simp [dists]
      | cons a rs =>
          cases n with
          | zero => simp [dists]
          | succ n =>
              rw [dists, List.take_succ_cons, ih]
              rfl

end Odometer
