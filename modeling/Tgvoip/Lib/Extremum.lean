import Mathlib.Order.Defs.Unbundled

/-!
# Extremum — one pass for a least or greatest element

The loop keeps the first element and gives it up for a later one that beats
it. `beats` need not be total: where it is a strict order, what is kept at
the end is an element of the list that no other one beats.
-/

namespace Extremum

variable {α : Type*} (beats : α → α → Prop) [DecidableRel beats]

/-- What is kept after the rest of the list. -/
def scan (kept : α) (l : List α) : α :=
  l.foldl (fun kept x => if beats x kept then x else kept) kept

/-- The element of a whole list; an empty one has none. -/
def pick : List α → Option α
  | [] => none
  | first :: rest => some (scan beats first rest)

variable {beats}

@[simp] theorem scan_nil (kept : α) : scan beats kept [] = kept := rfl

theorem scan_cons (kept x : α) (l : List α) :
    scan beats kept (x :: l) = scan beats (if beats x kept then x else kept) l := rfl

/-- What nothing beats is kept. -/
theorem scan_eq_self {l : List α} {kept : α} (h : ∀ x ∈ l, ¬ beats x kept) :
    scan beats kept l = kept := by
  induction l with
  | nil => rfl
  | cons x l ih =>
      rw [scan_cons, if_neg (h x List.mem_cons_self)]
      exact ih fun y hy => h y (List.mem_cons_of_mem _ hy)

theorem scan_mem (l : List α) (kept : α) : scan beats kept l ∈ kept :: l := by
  induction l generalizing kept with
  | nil => exact List.mem_singleton_self kept
  | cons x l ih =>
      rw [scan_cons]
      rcases List.mem_cons.mp (ih (if beats x kept then x else kept)) with h | h
      · rw [h]
        split
        · exact List.mem_cons_of_mem _ List.mem_cons_self
        · exact List.mem_cons_self
      · exact List.mem_cons_of_mem _ (List.mem_cons_of_mem _ h)

/-- What does not beat the kept element does not beat what it is given up
for. -/
theorem not_beats_scan [IsStrictOrder α beats] (l : List α) (kept : α) {y : α}
    (hy : y ∈ l ∨ ¬ beats y kept) : ¬ beats y (scan beats kept l) := by
  induction l generalizing kept with
  | nil => exact hy.resolve_left List.not_mem_nil
  | cons x l ih =>
      rw [scan_cons]
      apply ih
      by_cases hx : beats x kept
      · rw [if_pos hx]
        rcases hy with hy | hy
        · rcases List.mem_cons.mp hy with rfl | hy
          · exact .inr (irrefl y)
          · exact .inl hy
        · exact .inr fun hyx => hy (IsTrans.trans _ _ _ hyx hx)
      · rw [if_neg hx]
        rcases hy with hy | hy
        · rcases List.mem_cons.mp hy with rfl | hy
          · exact .inr hx
          · exact .inl hy
        · exact .inr hy

/-- Where something else is kept in the end, nothing beats that: a second pass keeps it. -/
theorem scan_scan [IsStrictOrder α beats] (l : List α) (kept : α) :
    scan beats (scan beats kept l) l = scan beats kept l :=
  scan_eq_self fun _ hx => not_beats_scan l kept (.inl hx)

/-- **A list with elements has one that none of them beats**, and the pass
finds it. -/
theorem exists_pick [IsStrictOrder α beats] {l : List α} (hl : l ≠ []) :
    ∃ m, pick beats l = some m ∧ m ∈ l ∧ ∀ x ∈ l, ¬ beats x m := by
  cases l with
  | nil => exact absurd rfl hl
  | cons first rest =>
      refine ⟨scan beats first rest, rfl, scan_mem rest first, fun x hx => ?_⟩
      apply not_beats_scan
      rcases List.mem_cons.mp hx with rfl | hx
      · exact .inr (irrefl x)
      · exact .inl hx

end Extremum
