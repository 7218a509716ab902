import Mathlib.Algebra.BigOperators.Fin
import Mathlib.Algebra.Field.Rat
import Mathlib.Data.Fintype.Pi
import Mathlib.Data.List.FinRange
import Mathlib.Data.List.OfFn
import Mathlib.Data.UInt

/-!
# HistoricBuffer — the last values of a series

`tools/utils.h`. A ring of `size` slots, all zero at first; `add` writes
over the oldest one. Iterating over the buffer visits the slots, in use or
not, so a reader that must skip the unused ones asks for a non-zero value.
-/

namespace Tgvoip

structure HistoricBuffer (α : Type) (size : ℕ) where
  data : Fin size → α
  offset : Fin size
  deriving DecidableEq

namespace HistoricBuffer

variable {α : Type} {size : ℕ}

def new [Zero α] [NeZero size] : HistoricBuffer α size where
  data := fun _ => 0
  offset := 0

def add (b : HistoricBuffer α size) (el : α) : HistoricBuffer α size where
  data := Function.update b.data b.offset el
  offset := ⟨(b.offset + 1) % size, Nat.mod_lt _ b.offset.pos⟩

def reset [Zero α] (b : HistoricBuffer α size) : HistoricBuffer α size where
  data := fun _ => 0
  offset := ⟨0, b.offset.pos⟩

/-- The slots, in the order of iteration. -/
def slots (b : HistoricBuffer α size) : List α := List.ofFn b.data

def nonZeroAverage (b : HistoricBuffer ℚ size) : ℚ :=
  let nonZero := b.slots.filter (· ≠ 0)
  if nonZero.length = 0 then 0 else nonZero.sum / nonZero.length

/-- `operator[]`: the value at 0 is the last one added. -/
def get (b : HistoricBuffer α size) (i : ℕ) : α :=
  b.data ⟨(b.offset + size - i - 1) % size, Nat.mod_lt _ b.offset.pos⟩

/-- `Average(firstN)`. -/
def average (b : HistoricBuffer ℤ size) (firstN : ℕ) : ℚ :=
  ((List.range firstN).map fun i => (b.get i : ℚ)).sum / firstN

/-- `Average()`. -/
def averageAll (b : HistoricBuffer UInt32 size) : ℚ := ((b.slots.map UInt32.toNat).sum : ℕ) / size

/-- `Average()` of a buffer of floats. -/
def averageFloat (b : HistoricBuffer ℚ size) : ℚ := b.slots.sum / size

def max (b : HistoricBuffer ℤ size) : ℤ := b.slots.max?.getD 0

@[simp] theorem get_add_zero (b : HistoricBuffer α size) (el : α) : (b.add el).get 0 = el := by
  have hlt := b.offset.isLt
  have hback : ((b.offset + 1) % size + size - 0 - 1) % size = b.offset := by
    rcases Nat.lt_or_ge (b.offset + 1) size with hinner | hwrap
    · rw [Nat.mod_eq_of_lt hinner, (by omega : b.offset + 1 + size - 0 - 1 = b.offset + size),
        Nat.add_mod_right, Nat.mod_eq_of_lt hlt]
    · rw [(by omega : (b.offset : ℕ) + 1 = size), Nat.mod_self, Nat.mod_eq_of_lt (by omega)]
      omega
  simp only [get, add, hback]
  exact Function.update_self ..

/-- An older value is one further back. -/
theorem get_add_succ (b : HistoricBuffer α size) (el : α) {i : ℕ} (hi : i + 1 < size) :
    (b.add el).get (i + 1) = b.get i := by
  have hlt := b.offset.isLt
  have hback : ((b.offset + 1) % size + size - (i + 1) - 1) % size =
      (b.offset + size - i - 1) % size := by
    rcases Nat.lt_or_ge (b.offset + 1) size with hinner | hwrap
    · rw [Nat.mod_eq_of_lt hinner,
        (by omega : b.offset + 1 + size - (i + 1) - 1 = b.offset + size - i - 1)]
    · rw [(by omega : (b.offset : ℕ) + 1 = size), Nat.mod_self,
        (by omega : b.offset + size - i - 1 = 0 + size - (i + 1) - 1 + size), Nat.add_mod_right]
  have hne : (⟨(b.offset + size - i - 1) % size, Nat.mod_lt _ b.offset.pos⟩ : Fin size) ≠
      b.offset := by
    intro heq
    have hval : (b.offset + size - i - 1) % size = b.offset := congrArg Fin.val heq
    rcases Nat.lt_or_ge i b.offset with hin | hout
    · rw [(by omega : (b.offset : ℕ) + size - i - 1 = b.offset - i - 1 + size), Nat.add_mod_right,
        Nat.mod_eq_of_lt (by omega)] at hval
      omega
    · rw [Nat.mod_eq_of_lt (by omega)] at hval
      omega
  simp only [get, add, hback]
  exact Function.update_of_ne hne ..

@[simp] theorem get_reset [Zero α] (b : HistoricBuffer α size) (i : ℕ) : b.reset.get i = 0 := rfl

/-- Every slot is that many values back. -/
theorem exists_place (offset j : Fin size) : ∃ i < size, (offset + size - i - 1) % size = j := by
  have hlt := offset.isLt
  have hj := j.isLt
  refine ⟨(offset + size - j - 1) % size, Nat.mod_lt _ offset.pos, ?_⟩
  rcases Nat.lt_or_ge j offset with hin | hout
  · rw [(by omega : (offset : ℕ) + size - j - 1 = offset - j - 1 + size), Nat.add_mod_right,
      Nat.mod_eq_of_lt (by omega : (offset : ℕ) - j - 1 < size),
      (by omega : (offset : ℕ) + size - (offset - j - 1) - 1 = j + size), Nat.add_mod_right,
      Nat.mod_eq_of_lt hj]
  · rw [Nat.mod_eq_of_lt (by omega : (offset : ℕ) + size - j - 1 < size),
      (by omega : (offset : ℕ) + size - (offset + size - j - 1) - 1 = j), Nat.mod_eq_of_lt hj]

/-- The slots are the values, in another order. -/
theorem slots_perm (b : HistoricBuffer α size) : b.slots.Perm ((List.range size).map b.get) := by
  let place (i : Fin size) : Fin size :=
    ⟨(b.offset + size - i - 1) % size, Nat.mod_lt _ b.offset.pos⟩
  have honto : Function.Surjective place := by
    intro j
    obtain ⟨i, hi, hplace⟩ := exists_place b.offset j
    exact ⟨⟨i, hi⟩, Fin.ext hplace⟩
  have hvalues : (List.range size).map b.get =
      List.ofFn (b.data ∘ Equiv.ofBijective place (Finite.surjective_iff_bijective.mp honto)) := by
    refine List.ext_getElem (by simp) fun i _ _ => ?_
    simp only [List.getElem_map, List.getElem_range, List.getElem_ofFn]
    rfl
  rw [hvalues, slots]
  exact (Equiv.Perm.ofFn_comp_perm _ b.data).symm

theorem exists_get_of_mem {b : HistoricBuffer α size} {a : α} (h : a ∈ b.slots) :
    ∃ i < size, b.get i = a := by
  obtain ⟨i, hi, ha⟩ := List.mem_map.mp (b.slots_perm.mem_iff.mp h)
  exact ⟨i, List.mem_range.mp hi, ha⟩

/-- A sum over the slots is one over the values, the last one first. -/
theorem sum_slots {M : Type*} [AddCommMonoid M] (b : HistoricBuffer α size) (f : α → M) :
    (b.slots.map f).sum = ∑ i ∈ Finset.range size, f (b.get i) := by
  rw [(b.slots_perm.map f).sum_eq, List.map_map]
  rfl

/-- The buffer has the last values of a series, which is written with the last one
first. -/
def Holds [Zero α] (b : HistoricBuffer α size) (values : List α) : Prop :=
  ∀ i < size, b.get i = values[i]?.getD 0

theorem holds_new [Zero α] [NeZero size] : (new : HistoricBuffer α size).Holds [] :=
  fun _ _ => rfl

theorem Holds.add [Zero α] {b : HistoricBuffer α size} {values : List α} (hb : b.Holds values)
    (el : α) : (b.add el).Holds (el :: values) := by
  intro i hi
  cases i with
  | zero => exact get_add_zero b el
  | succ i =>
      rw [get_add_succ b el hi, hb i (by omega)]
      rfl

/-- Values that were never added do not count. -/
theorem sum_range_getD {M : Type*} [AddCommMonoid M] [Zero α] {f : α → M} (hf : f 0 = 0)
    (values : List α) (n : ℕ) :
    ∑ i ∈ Finset.range n, f (values[i]?.getD 0) = ((values.take n).map f).sum := by
  induction values generalizing n with
  | nil => simp [hf]
  | cons v values ih =>
      cases n with
      | zero => rfl
      | succ n =>
          rw [Finset.sum_range_succ', List.take_succ_cons, List.map_cons, List.sum_cons, add_comm,
            ← ih]
          rfl

theorem Holds.sum_slots {M : Type*} [AddCommMonoid M] [Zero α] {b : HistoricBuffer α size}
    {values : List α} (hb : b.Holds values) {f : α → M} (hf : f 0 = 0) :
    (b.slots.map f).sum = ((values.take size).map f).sum := by
  rw [HistoricBuffer.sum_slots, ← sum_range_getD hf]
  apply Finset.sum_congr rfl
  intro i hi
  rw [hb i (Finset.mem_range.mp hi)]

theorem max_eq_zero {b : HistoricBuffer ℤ size} (h : ∀ i < size, b.get i = 0) : b.max = 0 := by
  unfold max
  cases hmax : b.slots.max? with
  | none => rfl
  | some a =>
      obtain ⟨i, hi, rfl⟩ := exists_get_of_mem (List.max?_mem hmax)
      exact h i hi

theorem mem_slots_reset [Zero α] {b : HistoricBuffer α size} {a : α} (h : a ∈ b.reset.slots) :
    a = 0 := by
  obtain ⟨_, h⟩ := List.mem_ofFn.mp h
  exact h.symm

theorem mem_slots_new [Zero α] [NeZero size] {a : α}
    (h : a ∈ (new : HistoricBuffer α size).slots) : a = 0 := by
  obtain ⟨_, h⟩ := List.mem_ofFn.mp h
  exact h.symm

/-- A slot holds the value just added or an older one. -/
theorem mem_slots_add {b : HistoricBuffer α size} {el a : α} (h : a ∈ (b.add el).slots) :
    a = el ∨ a ∈ b.slots := by
  simp only [slots, add, List.mem_ofFn] at h ⊢
  obtain ⟨i, rfl⟩ := h
  by_cases hi : i = b.offset
  · subst hi
    exact .inl (Function.update_self ..)
  · exact .inr ⟨i, (Function.update_of_ne hi ..).symm⟩

end HistoricBuffer

end Tgvoip
