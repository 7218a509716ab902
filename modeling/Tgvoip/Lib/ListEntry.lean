import Mathlib.Data.List.Basic

/-!
# ListEntry — a list of which one entry is changed

A table kept as a list is written entry by entry, with `List.modify`. The
lemmas say what the table answers after such a write: at a position, when
it is searched for a key, when the entries of a kind are listed, and when a
part of each entry is read that the write leaves alone.
-/

namespace ListEntry

variable {α β : Type} {p : α → Bool} {f : α → α} {l : List α} {i : ℕ}

/-! ## At a position -/

theorem getElem?_modify {a : α} (ha : l[i]? = some a) (j : ℕ) :
    (l.modify i f)[j]? = if i = j then some (f a) else l[j]? := by
  by_cases hij : i = j
  · subst hij
    rw [List.getElem?_modify_eq, if_pos rfl, ha]
    rfl
  · rw [List.getElem?_modify_ne _ _ hij, if_neg hij]

/-- An entry of the changed list is one of the old list, or the one that was changed. -/
theorem mem_modify {x : α} (hx : x ∈ l.modify i f) : x ∈ l ∨ ∃ a ∈ l, x = f a := by
  obtain ⟨j, hj⟩ := List.mem_iff_getElem?.mp hx
  rw [List.getElem?_modify] at hj
  obtain ⟨a, ha, rfl⟩ := Option.map_eq_some_iff.mp hj
  have hmem : a ∈ l := List.mem_of_getElem? ha
  split
  · exact .inr ⟨a, hmem, rfl⟩
  · exact .inl hmem

/-- What the change leaves alone of each entry. -/
theorem map_modify {g : α → β} (h : ∀ a, l[i]? = some a → g (f a) = g a) :
    (l.modify i f).map g = l.map g := by
  apply List.ext_getElem?
  intro j
  rw [List.getElem?_map, List.getElem?_map, List.getElem?_modify]
  by_cases hij : i = j
  · subst hij
    cases ha : l[i]? with
    | none => rfl
    | some a => simp [h a ha]
  · simp [hij]

/-! ## Searching -/

/-- The entry found is the one that is changed. -/
theorem find?_modify (hi : l.findIdx? p = some i) (hf : ∀ a, p (f a) = p a) :
    (l.modify i f).find? p = (l.find? p).map f := by
  induction l generalizing i with
  | nil => cases hi
  | cons a l ih =>
      rw [List.findIdx?_cons] at hi
      by_cases ha : p a = true
      · rw [if_pos ha] at hi
        cases hi
        rw [List.modify_zero_cons, List.find?_cons_of_pos (by rw [hf, ha]),
          List.find?_cons_of_pos ha]
        rfl
      · rw [if_neg ha] at hi
        obtain ⟨j, hj, rfl⟩ := Option.map_eq_some_iff.mp hi
        rw [List.modify_succ_cons, List.find?_cons_of_neg ha, List.find?_cons_of_neg ha]
        exact ih hj

/-! ## The entries of a kind -/

/-- Changing an entry that is not of the kind. -/
theorem filter_modify_of_not (h : ∀ a, l[i]? = some a → p a = false ∧ p (f a) = false) :
    (l.modify i f).filter p = l.filter p := by
  induction l generalizing i with
  | nil => rw [List.modify_nil]
  | cons b l ih =>
      cases i with
      | zero =>
          obtain ⟨hb, hfb⟩ := h b rfl
          rw [List.modify_zero_cons, List.filter_cons_of_neg (by simp [hfb]),
            List.filter_cons_of_neg (by simp [hb])]
      | succ i => rw [List.modify_succ_cons, List.filter_cons, List.filter_cons, ih h]

/-- Changing the one entry of the kind. -/
theorem filter_modify_of_single {a : α} (ha : l[i]? = some a) (hp : p a = true)
    (hfp : p (f a) = true) (hone : (l.filter p).length ≤ 1) :
    (l.modify i f).filter p = [f a] := by
  induction l generalizing i with
  | nil => cases ha
  | cons b l ih =>
      cases i with
      | zero =>
          cases ha
          rw [List.filter_cons_of_pos hp, List.length_cons] at hone
          have hrest : l.filter p = [] := List.length_eq_zero_iff.mp (by omega)
          rw [List.modify_zero_cons, List.filter_cons_of_pos hfp, hrest]
      | succ i =>
          have hmem : a ∈ l.filter p := List.mem_filter.mpr ⟨List.mem_of_getElem? ha, hp⟩
          have hpos := List.length_pos_of_mem hmem
          have hb : ¬ p b = true := by
            intro hb
            rw [List.filter_cons_of_pos hb, List.length_cons] at hone
            omega
          rw [List.filter_cons_of_neg hb] at hone
          rw [List.modify_succ_cons, List.filter_cons_of_neg hb]
          exact ih ha hone

end ListEntry
