import Mathlib.Data.Nat.Notation
import Mathlib.Logic.Basic

/-!
# Tape — an unbounded list of cells with a cursor

What a growing output buffer is for. A cell that was never written holds
nothing; the cursor may be moved over such cells. `write_patch` is the law
of a length that is written behind its contents: leave one cell, write the
contents, go back, fill the cell and go forward again.
-/

structure Tape (α : Type*) where
  cells : ℕ → Option α := fun _ => none
  cursor : ℕ := 0

namespace Tape

variable {α : Type*}

@[ext] theorem ext {t u : Tape α} (hcells : t.cells = u.cells) (hcursor : t.cursor = u.cursor) :
    t = u := by
  cases t
  cases u
  subst hcells hcursor
  rfl

/-- Write from the cursor on. -/
def write (t : Tape α) (as : List α) : Tape α where
  cells := fun i =>
    if t.cursor ≤ i ∧ i < t.cursor + as.length then as[i - t.cursor]? else t.cells i
  cursor := t.cursor + as.length

def advance (t : Tape α) (n : ℕ) : Tape α := { t with cursor := t.cursor + n }

def rewind (t : Tape α) (n : ℕ) : Tape α := { t with cursor := t.cursor - n }

def reset (t : Tape α) : Tape α := { t with cursor := 0 }

@[simp] theorem cursor_write (t : Tape α) (as : List α) :
    (t.write as).cursor = t.cursor + as.length := rfl

@[simp] theorem cursor_advance (t : Tape α) (n : ℕ) : (t.advance n).cursor = t.cursor + n := rfl

@[simp] theorem cursor_rewind (t : Tape α) (n : ℕ) : (t.rewind n).cursor = t.cursor - n := rfl

@[simp] theorem cells_advance (t : Tape α) (n : ℕ) : (t.advance n).cells = t.cells := rfl

@[simp] theorem cells_rewind (t : Tape α) (n : ℕ) : (t.rewind n).cells = t.cells := rfl

theorem cells_write_of_mem (t : Tape α) (as : List α) {i : ℕ} (hi : i < as.length) :
    (t.write as).cells (t.cursor + i) = as[i]? := by
  show (if t.cursor ≤ t.cursor + i ∧ t.cursor + i < t.cursor + as.length then
    as[t.cursor + i - t.cursor]? else _) = _
  rw [if_pos ⟨by omega, by omega⟩, Nat.add_sub_cancel_left]

theorem cells_write_cursor (t : Tape α) (a : α) (as : List α) :
    (t.write (a :: as)).cells t.cursor = some a :=
  t.cells_write_of_mem (a :: as) (i := 0) (Nat.zero_lt_succ _)

theorem cells_write_of_not_mem (t : Tape α) (as : List α) {i : ℕ}
    (hi : ¬ (t.cursor ≤ i ∧ i < t.cursor + as.length)) : (t.write as).cells i = t.cells i :=
  if_neg hi

@[simp] theorem write_nil (t : Tape α) : t.write [] = t := by
  ext1
  · funext i
    exact t.cells_write_of_not_mem [] (by simp only [List.length_nil]; omega)
  · rfl

/-- Writing in two parts. -/
theorem write_write (t : Tape α) (as bs : List α) : (t.write as).write bs = t.write (as ++ bs) := by
  ext1
  · funext i
    by_cases hbs : t.cursor + as.length ≤ i ∧ i < t.cursor + as.length + bs.length
    · obtain ⟨k, rfl⟩ : ∃ k, i = t.cursor + as.length + k :=
        ⟨i - (t.cursor + as.length), by omega⟩
      have hsecond := (t.write as).cells_write_of_mem bs (i := k) (by omega)
      have hwhole := t.cells_write_of_mem (as ++ bs) (i := as.length + k)
        (by rw [List.length_append]; omega)
      rw [cursor_write] at hsecond
      rw [hsecond, Nat.add_assoc, hwhole, List.getElem?_append_right (by omega),
        Nat.add_sub_cancel_left]
    · rw [cells_write_of_not_mem _ _ hbs]
      by_cases has : t.cursor ≤ i ∧ i < t.cursor + as.length
      · obtain ⟨k, rfl⟩ : ∃ k, i = t.cursor + k := ⟨i - t.cursor, by omega⟩
        rw [t.cells_write_of_mem as (by omega),
          t.cells_write_of_mem (as ++ bs) (by rw [List.length_append]; omega),
          List.getElem?_append_left (by omega)]
      · rw [cells_write_of_not_mem _ _ has,
          cells_write_of_not_mem _ _ (by rw [List.length_append]; omega)]
  · simp [write, Nat.add_assoc]

/-- **Patching**: a cell is left out, filled behind what follows it, and the
cursor is put back. -/
theorem write_patch (t : Tape α) (a : α) (as : List α) :
    ((((t.advance 1).write as).rewind (as.length + 1)).write [a]).advance as.length =
      t.write (a :: as) := by
  have hback : (((t.advance 1).write as).rewind (as.length + 1)).cursor = t.cursor := by
    simp only [cursor_rewind, cursor_write, cursor_advance]
    omega
  ext1
  · funext i
    rw [cells_advance]
    by_cases hi : i = t.cursor
    · subst hi
      have hcell := cells_write_cursor (((t.advance 1).write as).rewind (as.length + 1)) a []
      rw [hback] at hcell
      rw [hcell, cells_write_cursor]
    · rw [cells_write_of_not_mem _ _ (by rw [hback, List.length_singleton]; omega), cells_rewind]
      by_cases has : t.cursor + 1 ≤ i ∧ i < t.cursor + 1 + as.length
      · obtain ⟨k, rfl⟩ : ∃ k, i = t.cursor + 1 + k := ⟨i - (t.cursor + 1), by omega⟩
        have hcell := (t.advance 1).cells_write_of_mem as (i := k) (by omega)
        have hwhole := t.cells_write_of_mem (a :: as) (i := k + 1)
          (by rw [List.length_cons]; omega)
        rw [cursor_advance] at hcell
        rw [hcell, Nat.add_assoc, Nat.add_comm 1 k, hwhole, List.getElem?_cons_succ]
      · rw [cells_write_of_not_mem _ _ has, cells_advance,
          cells_write_of_not_mem _ _ (by rw [List.length_cons]; omega)]
  · simp only [cursor_advance, cursor_write, hback, List.length_cons, List.length_nil]
    omega

end Tape
