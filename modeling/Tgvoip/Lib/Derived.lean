import Mathlib.Data.Set.Image

/-!
# Derived — sets that grow by what is derived from their members

`grow P f S` adds to `S` the image of those members that `P` selects. Two
such steps come out the same in either order if the derivations commute
and neither changes what the other selects (`grow_comm`).
-/

namespace Derived

variable {α : Type*} {P Q : α → Prop} {f g : α → α} {S : Set α} {a : α}

/-- `S` with what `f` makes of its members with `P`. -/
def grow (P : α → Prop) (f : α → α) (S : Set α) : Set α := S ∪ f '' {x ∈ S | P x}

theorem mem_grow : a ∈ grow P f S ↔ a ∈ S ∨ ∃ x ∈ S, P x ∧ f x = a := by
  simp [grow, and_assoc]

/-- What is selected among the grown set, if the derivation keeps the selection. -/
theorem exists_mem_grow (h : ∀ x, P x → (Q (f x) ↔ Q x)) :
    (∃ x ∈ grow P f S, Q x) ↔ ∃ x ∈ S, Q x := by
  constructor
  · rintro ⟨a, ha, hQ⟩
    rcases mem_grow.mp ha with ha | ⟨x, hx, hP, rfl⟩
    · exact ⟨a, ha, hQ⟩
    · exact ⟨x, hx, (h x hP).mp hQ⟩
  · rintro ⟨x, hx, hQ⟩
    exact ⟨x, mem_grow.mpr (.inl hx), hQ⟩

theorem grow_subset_comm (hfg : ∀ x, P x → Q x → f (g x) = g (f x))
    (hP : ∀ x, Q x → (P (g x) ↔ P x)) (hQ : ∀ x, P x → (Q (f x) ↔ Q x)) :
    grow P f (grow Q g S) ⊆ grow Q g (grow P f S) := by
  intro a ha
  rcases mem_grow.mp ha with ha | ⟨x, hx, hPx, rfl⟩
  · rcases mem_grow.mp ha with ha | ⟨x, hx, hQx, rfl⟩
    · exact mem_grow.mpr (.inl (mem_grow.mpr (.inl ha)))
    · exact mem_grow.mpr (.inr ⟨x, mem_grow.mpr (.inl hx), hQx, rfl⟩)
  · rcases mem_grow.mp hx with hx | ⟨y, hy, hQy, rfl⟩
    · exact mem_grow.mpr (.inl (mem_grow.mpr (.inr ⟨x, hx, hPx, rfl⟩)))
    · -- derived twice: the other order makes the same of it
      have hPy := (hP y hQy).mp hPx
      refine mem_grow.mpr (.inr ⟨f y, mem_grow.mpr (.inr ⟨y, hy, hPy, rfl⟩), ?_, ?_⟩)
      · exact (hQ y hPy).mpr hQy
      · exact (hfg y hPy hQy).symm

/-- **The order of two derivations does not matter.** -/
theorem grow_comm (hfg : ∀ x, P x → Q x → f (g x) = g (f x))
    (hP : ∀ x, Q x → (P (g x) ↔ P x)) (hQ : ∀ x, P x → (Q (f x) ↔ Q x)) :
    grow P f (grow Q g S) = grow Q g (grow P f S) :=
  Set.Subset.antisymm (grow_subset_comm hfg hP hQ)
    (grow_subset_comm (fun x hQx hPx => (hfg x hPx hQx).symm) hQ hP)

end Derived
