import Mathlib.Data.List.Sort

/-!
# StableQueue — a list ordered by a key, and by age where the keys are equal

An element is put before the first one with a greater key. If each element
carries a stamp, and a new one is stamped last, the list stays ordered by
key and stamp: elements with the same key leave in the order they came in.
-/

namespace StableQueue

variable {α κ : Type*} [LinearOrder κ] (key : α → κ) (stamp : α → ℕ)

/-- `a` before the first element that has a greater key. -/
def put (a : α) (l : List α) : List α := l.orderedInsert (fun a b => key a < key b) a

/-- `a` is to leave before `b`. -/
def Before (a b : α) : Prop := key a < key b ∨ (key a = key b ∧ stamp a < stamp b)

def Ordered (l : List α) : Prop := l.Pairwise (Before key stamp)

variable {key stamp} {a b : α} {l : List α}

@[simp] theorem put_nil (a : α) : put key a [] = [a] := rfl

theorem put_cons (a b : α) (l : List α) :
    put key a (b :: l) = if key a < key b then a :: b :: l else b :: put key a l := rfl

theorem put_perm (key : α → κ) (a : α) (l : List α) : (put key a l).Perm (a :: l) :=
  List.perm_orderedInsert _ a l

theorem mem_put : b ∈ put key a l ↔ b = a ∨ b ∈ l := List.mem_orderedInsert _

theorem Before.key_le (h : Before key stamp a b) : key a ≤ key b := by
  rcases h with h | h
  · exact le_of_lt h
  · exact le_of_eq h.1

/-- **The order is kept**, if the new element is the youngest. -/
theorem Ordered.put (h : Ordered key stamp l) (hlast : ∀ b ∈ l, stamp b < stamp a) :
    Ordered key stamp (put key a l) := by
  induction l with
  | nil => exact List.pairwise_singleton _ _
  | cons b l ih =>
      obtain ⟨hb, hl⟩ := List.pairwise_cons.mp h
      rw [put_cons]
      split_ifs with hlt
      · refine List.pairwise_cons.mpr ⟨fun c hc => .inl ?_, h⟩
        rcases List.mem_cons.mp hc with rfl | hc
        · exact hlt
        · exact hlt.trans_le (hb c hc).key_le
      · refine List.pairwise_cons.mpr ⟨fun c hc => ?_,
          ih hl fun c hc => hlast c (List.mem_cons_of_mem b hc)⟩
        rcases mem_put.mp hc with rfl | hc
        · rcases lt_or_eq_of_le (not_lt.mp hlt) with hless | heq
          · exact .inl hless
          · exact .inr ⟨heq, hlast b List.mem_cons_self⟩
        · exact hb c hc

theorem Ordered.filter (h : Ordered key stamp l) (p : α → Bool) :
    Ordered key stamp (l.filter p) :=
  List.Pairwise.filter p h

end StableQueue
