import Mathlib.Algebra.BigOperators.Fin
import Mathlib.Algebra.Order.BigOperators.Group.Finset

/-!
# SlotTable — accounting over a table of slots

A table is a function `Fin n → σ`, changed one slot at a time. A `total`
adds up a weight over all slots; after a change it is off by the weights
of the old and the new slot. A table in which at most one slot in use has
a given key keeps this when a slot falls out of use, and when one is
taken for a key that no slot in use has.
-/

namespace SlotTable

universe u v w

variable {n : ℕ} {σ : Type u} {M : Type v} {κ : Type w}

def total [AddCommMonoid M] (weight : σ → M) (table : Fin n → σ) : M := ∑ i, weight (table i)

/-- What the new slot weighs comes in, what the old one weighed goes. -/
theorem total_update [AddCommMonoid M] (weight : σ → M) (table : Fin n → σ) (i : Fin n) (s : σ) :
    total weight (Function.update table i s) + weight (table i) = total weight table + weight s := by
  have hupdate : (fun j => weight (Function.update table i s j))
      = Function.update (fun j => weight (table j)) i (weight s) := by
    funext j
    by_cases hj : j = i
    · subst hj; simp
    · simp [hj]
  rw [total, total, hupdate, Finset.sum_update_of_mem (Finset.mem_univ i),
    Finset.sdiff_singleton_eq_erase, add_assoc, Finset.sum_erase_add _ _ (Finset.mem_univ i), add_comm]

theorem total_le (weight : σ → ℕ) (table : Fin n → σ) {m : ℕ} (h : ∀ s, weight s ≤ m) :
    total weight table ≤ n * m := by
  simpa [total] using Finset.sum_le_card_nsmul Finset.univ (fun i => weight (table i)) m
    fun i _ => h (table i)

/-- At most one slot in use has a given key. -/
def Unique (used : σ → Prop) (key : σ → κ) (table : Fin n → σ) : Prop :=
  ∀ i j, used (table i) → used (table j) → key (table i) = key (table j) → i = j

variable {used : σ → Prop} {key : σ → κ} {table : Fin n → σ}

theorem Unique.free (h : Unique used key table) (i : Fin n) {s : σ} (hs : ¬ used s) :
    Unique used key (Function.update table i s) := by
  intro j k hj hk hkey
  by_cases hji : j = i
  · subst hji
    rw [Function.update_self] at hj
    exact absurd hj hs
  · by_cases hki : k = i
    · subst hki
      rw [Function.update_self] at hk
      exact absurd hk hs
    · rw [Function.update_of_ne hji] at hj hkey
      rw [Function.update_of_ne hki] at hk hkey
      exact h j k hj hk hkey

theorem Unique.fill (h : Unique used key table) (i : Fin n) {s : σ}
    (hfresh : ∀ j, used (table j) → key (table j) ≠ key s) :
    Unique used key (Function.update table i s) := by
  intro j k hj hk hkey
  by_cases hji : j = i
  · by_cases hki : k = i
    · rw [hji, hki]
    · subst hji
      rw [Function.update_self] at hkey
      rw [Function.update_of_ne hki] at hk hkey
      exact absurd hkey.symm (hfresh k hk)
  · rw [Function.update_of_ne hji] at hj hkey
    by_cases hki : k = i
    · subst hki
      rw [Function.update_self] at hkey
      exact absurd hkey (hfresh j hj)
    · rw [Function.update_of_ne hki] at hk hkey
      exact h j k hj hk hkey

end SlotTable
