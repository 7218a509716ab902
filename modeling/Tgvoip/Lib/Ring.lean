import Mathlib.Algebra.BigOperators.Fin
import Mathlib.Algebra.Group.Fin.Basic
import Mathlib.Data.Nat.ModEq
import Mathlib.Logic.Function.Basic

/-!
# Ring — positions of a circular buffer

`n` slots in a circle, addressed by a base slot and a distance. A proof
about a circular buffer is a proof about distances below `n`: there
`pos base` is injective (`pos_inj`) and onto (`exists_pos`). `clear` is
the loop that empties the slots from one position up to another and
`clearWithin` the same loop that may also not get there (`clearWithin_eq`
says that it does), `filled` the loop that counts those that are not
empty: `filled_eq` says which distances it counts, `stored_eq` writes the
number of all filled slots as a sum over the same distances.
-/

namespace Ring

variable {n : ℕ} [NeZero n] {β : Type*}

/-- The slot at distance `k` from `base`. -/
def pos (base : Fin n) (k : ℕ) : Fin n := base + Fin.ofNat n k

@[simp] theorem pos_zero (base : Fin n) : pos base 0 = base := by
  simp [pos]

theorem pos_val (base : Fin n) (k : ℕ) : (pos base k).val = (base.val + k) % n := by
  simp [pos, Fin.val_add]

theorem pos_add (base : Fin n) (j k : ℕ) : pos (pos base j) k = pos base (j + k) := by
  apply Fin.ext
  rw [pos_val, pos_val, pos_val, Nat.mod_add_mod, Nat.add_assoc]

/-- A full turn leads back. -/
@[simp] theorem pos_add_size (base : Fin n) (k : ℕ) : pos base (k + n) = pos base k := by
  apply Fin.ext
  rw [pos_val, pos_val, ← Nat.add_assoc, Nat.add_mod_right]

theorem pos_inj (base : Fin n) {j k : ℕ} (hj : j < n) (hk : k < n) :
    pos base j = pos base k ↔ j = k := by
  refine ⟨fun h => ?_, fun h => by rw [h]⟩
  have hv : base.val + j ≡ base.val + k [MOD n] := by
    have := congrArg Fin.val h
    rwa [pos_val, pos_val] at this
  have hm : j % n = k % n := Nat.ModEq.add_left_cancel' _ hv
  rwa [Nat.mod_eq_of_lt hj, Nat.mod_eq_of_lt hk] at hm

/-- Positions at one distance from different bases differ. -/
theorem pos_left_inj {a b : Fin n} (k : ℕ) : pos a k = pos b k ↔ a = b :=
  add_left_inj (Fin.ofNat n k)

theorem exists_pos (base i : Fin n) : ∃ k < n, pos base k = i := by
  refine ⟨(i - base).val, (i - base).isLt, ?_⟩
  simp [pos]

theorem pos_succ (base : Fin n) (k : ℕ) : pos base (k + 1) = pos (base + 1) k := by
  have hone : base + 1 = pos base 1 := rfl
  rw [hone, pos_add, Nat.add_comm]

/-- Less than a turn away is another slot. -/
theorem ne_pos_succ (base : Fin n) {k : ℕ} (hk : k + 1 < n) : base ≠ pos base (k + 1) := by
  intro h
  rw [← pos_zero base, pos_add, pos_inj base (by omega) (by omega)] at h
  omega

/-- Empty the slots from `offset` on, up to `stop`; `fuel` bounds the
rounds. -/
def clear (stop : Fin n) : ℕ → Fin n → (Fin n → Option β) → (Fin n → Option β)
  | 0, _, slots => slots
  | fuel + 1, offset, slots =>
      if offset = stop then slots
      else clear stop fuel (offset + 1) (Function.update slots offset none)

/-- The loop empties the slots at distance below `j` and no other: a circle's
worth of fuel is enough. -/
theorem clear_spec (j : ℕ) (hj : j < n) (fuel : ℕ) (hf : j ≤ fuel) (base : Fin n)
    (slots : Fin n → Option β) (i : Fin n) :
    clear (pos base j) fuel base slots i =
      if ∃ k < j, pos base k = i then none else slots i := by
  induction j generalizing fuel base slots with
  | zero => cases fuel <;> simp [clear]
  | succ j ih =>
      obtain ⟨fuel, rfl⟩ : ∃ m, fuel = m + 1 := ⟨fuel - 1, by omega⟩
      have hex : (∃ k < j + 1, pos base k = i) ↔ i = base ∨ ∃ k < j, pos (base + 1) k = i := by
        constructor
        · rintro ⟨k, hk, rfl⟩
          cases k with
          | zero => exact Or.inl (pos_zero base)
          | succ k => exact Or.inr ⟨k, by omega, (pos_succ base k).symm⟩
        · rintro (rfl | ⟨k, hk, rfl⟩)
          · exact ⟨0, by omega, pos_zero _⟩
          · exact ⟨k + 1, by omega, pos_succ base k⟩
      rw [clear, if_neg (ne_pos_succ base hj), pos_succ, ih (by omega) fuel (by omega)]
      by_cases hk : ∃ k < j, pos (base + 1) k = i
      · rw [if_pos hk, if_pos (hex.mpr (Or.inr hk))]
      · rw [if_neg hk]
        by_cases hi : i = base
        · rw [if_pos (hex.mpr (Or.inl hi)), hi, Function.update_self]
        · rw [if_neg fun h => (hex.mp h).elim hi hk, Function.update_of_ne hi]

/-- The same loop as an attempt: nothing where `rounds` rounds do not reach
`stop`. -/
def clearWithin (stop : Fin n) : ℕ → Fin n → (Fin n → Option β) → Option (Fin n → Option β)
  | 0, offset, slots => if offset = stop then some slots else none
  | rounds + 1, offset, slots =>
      if offset = stop then some slots
      else clearWithin stop rounds (offset + 1) (Function.update slots offset none)

/-- **The loop ends**: from any slot the walk meets `stop` within a circle. -/
theorem clearWithin_pos (j : ℕ) (hj : j < n) {rounds fuel : ℕ} (hr : j ≤ rounds) (hf : j ≤ fuel)
    (base : Fin n) (slots : Fin n → Option β) :
    clearWithin (pos base j) rounds base slots = some (clear (pos base j) fuel base slots) := by
  induction j generalizing rounds fuel base slots with
  | zero => cases rounds <;> cases fuel <;> simp [clear, clearWithin]
  | succ j ih =>
      obtain ⟨rounds, rfl⟩ : ∃ m, rounds = m + 1 := ⟨rounds - 1, by omega⟩
      obtain ⟨fuel, rfl⟩ : ∃ m, fuel = m + 1 := ⟨fuel - 1, by omega⟩
      have hne := ne_pos_succ base hj
      rw [clearWithin, clear, if_neg hne, if_neg hne, pos_succ]
      exact ih (by omega) (by omega) (by omega) (base + 1) _

theorem clearWithin_eq (stop : Fin n) {rounds : ℕ} (hr : n ≤ rounds) (base : Fin n)
    (slots : Fin n → Option β) :
    clearWithin stop rounds base slots = some (clear stop n base slots) := by
  obtain ⟨j, hj, rfl⟩ := exists_pos base stop
  exact clearWithin_pos j hj (by omega) (by omega) base slots

/-- Clearing only ever removes. -/
theorem clear_sub (stop : Fin n) (fuel : ℕ) (base : Fin n) (slots : Fin n → Option β) (i : Fin n)
    {b : β} (h : clear stop fuel base slots i = some b) : slots i = some b := by
  induction fuel generalizing base slots with
  | zero => exact h
  | succ fuel ih =>
      rw [clear] at h
      split at h
      · exact h
      · have hu := ih _ _ h
        by_cases hi : i = base
        · rw [hi, Function.update_self] at hu
          cases hu
        · rwa [Function.update_of_ne hi] at hu

/-- How many slots from `offset` on, up to `stop`, are not empty. -/
def filled (stop : Fin n) (slots : Fin n → Option β) : ℕ → Fin n → ℕ
  | 0, _ => 0
  | fuel + 1, offset =>
      if offset = stop then 0
      else (if (slots offset).isSome then 1 else 0) + filled stop slots fuel (offset + 1)

theorem filled_le (stop : Fin n) (slots : Fin n → Option β) (fuel : ℕ) (base : Fin n) :
    filled stop slots fuel base ≤ fuel := by
  induction fuel generalizing base with
  | zero => exact Nat.le_refl 0
  | succ fuel ih =>
      have hrest := ih (base + 1)
      rw [filled]
      split_ifs <;> omega

theorem filled_eq_zero {stop : Fin n} {slots : Fin n → Option β} (fuel : ℕ) (base : Fin n)
    (h : ∀ k < fuel, pos base k ≠ stop → slots (pos base k) = none) :
    filled stop slots fuel base = 0 := by
  induction fuel generalizing base with
  | zero => rfl
  | succ fuel ih =>
      rw [filled]
      split
      · rfl
      · rename_i hne
        have hbase : slots base = none := by
          have hzero := h 0 (Nat.succ_pos fuel)
          rw [pos_zero] at hzero
          exact hzero hne
        have hrest : ∀ k < fuel, pos (base + 1) k ≠ stop → slots (pos (base + 1) k) = none := by
          intro k hk
          have hone : base + 1 = pos base 1 := rfl
          rw [hone, pos_add]
          exact h (1 + k) (by omega)
        rw [hbase, ih (base + 1) hrest]
        rfl

/-- The loop counts the slots at distance below that of its end. -/
theorem filled_eq (slots : Fin n → Option β) (fuel : ℕ) {j : ℕ} (hj : j < n) (hf : j ≤ fuel)
    (base : Fin n) :
    filled (pos base j) slots fuel base =
      ∑ k ∈ Finset.range j, if (slots (pos base k)).isSome then 1 else 0 := by
  induction j generalizing fuel base with
  | zero => cases fuel <;> simp [filled]
  | succ j ih =>
      obtain ⟨fuel, rfl⟩ : ∃ m, fuel = m + 1 := ⟨fuel - 1, by omega⟩
      rw [filled, if_neg (ne_pos_succ base hj), pos_succ, ih fuel (by omega) (by omega),
        Finset.sum_range_succ', pos_zero, Nat.add_comm]
      simp only [pos_succ]

/-- How many slots are not empty. -/
def stored (slots : Fin n → Option β) : ℕ :=
  (Finset.univ.filter fun i => (slots i).isSome).card

/-- The filled slots, counted by their distance from any base. -/
theorem stored_eq (slots : Fin n → Option β) (base : Fin n) :
    stored slots = ∑ k ∈ Finset.range n, if (slots (pos base k)).isSome then 1 else 0 := by
  have hpos : ∀ i : Fin n, Equiv.addLeft base i = pos base i := fun i => by simp [pos]
  rw [stored, Finset.card_filter, ← Equiv.sum_comp (Equiv.addLeft base)]
  simp only [hpos]
  exact Fin.sum_univ_eq_sum_range
    (fun k => if (slots (pos base k)).isSome then 1 else 0) n

omit [NeZero n] in
theorem stored_le (slots : Fin n → Option β) : stored slots ≤ n :=
  (Finset.card_filter_le _ _).trans (by simp)

omit [NeZero n] in
theorem stored_eq_zero {slots : Fin n → Option β} : stored slots = 0 ↔ ∀ i, slots i = none := by
  simp [stored, Finset.filter_eq_empty_iff]

end Ring
