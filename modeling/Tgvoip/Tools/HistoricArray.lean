import Mathlib.Algebra.BigOperators.Group.List.Basic
import Mathlib.Data.List.FinRange
import Mathlib.Data.Rat.Cast.Order
import Tgvoip.Lib.Extremum
import Tgvoip.Lib.Fallible
import Tgvoip.Tools.HistoricBuffer

/-!
# HistoricArray — the index arithmetic of `HistoricBuffer`

`tools/utils.h`. `offset` is a `ptrdiff_t` and an index is a `size_t`:
their difference is computed without a sign and read with one, and the
size is added where it came out negative. Both types are `w` bits here.
An access outside the array is no result (`read`), and so is an index that
the assertion refuses, so that a result is a statement about the indices.

`HistoricBuffer` is the same buffer with its offset below `size` by its
type. `Refines` connects the two: over every run of `Add` and `Reset` the
array is such a buffer, which holds the values added last (`run_holds`).

An average is computed in the type the buffer names for it. `AverageType`
has the operations it uses and no laws; `Exact` is where they are those of
the rationals.
-/

namespace Tgvoip

/-- The sizes an array can have: not 0, and counted by a `ptrdiff_t`. -/
abbrev ArraySize (w : ℕ) := { n : ℕ // 0 < n ∧ 2 * n < 2 ^ w }

/-- What `AVG_T` is used for: its zero, the addition of an element, a
division that it may not have a result for, and the conversion of a count. -/
structure AverageType (T A : Type) where
  zero : A
  add : A → T → A
  div : A → A → Option A
  cast : ℕ → A

/-- The mean of some rationals. -/
def meanOf (l : List ℚ) : ℚ := l.sum / l.length

namespace AverageType

variable {T A : Type} {t : AverageType T A} {value : T → ℚ} {amount : A → ℚ}

/-- The mean of a list as `AVG_T` computes it: added up from the front and
divided by the length. -/
def mean (t : AverageType T A) (l : List T) : Option A :=
  t.div (l.foldl t.add t.zero) (t.cast l.length)

/-- A type that loses nothing: its operations are those of the rationals its
values stand for. -/
structure Exact (t : AverageType T A) (value : T → ℚ) (amount : A → ℚ) : Prop where
  zero : amount t.zero = 0
  add : ∀ a x, amount (t.add a x) = amount a + value x
  div : ∀ a n, 0 < n → ∃ q, t.div a (t.cast n) = some q ∧ amount q = amount a / n

theorem Exact.foldl (h : t.Exact value amount) (l : List T) (a : A) :
    amount (l.foldl t.add a) = amount a + (l.map value).sum := by
  induction l generalizing a with
  | nil => simp
  | cons x l ih => rw [List.foldl_cons, ih, h.add, List.map_cons, List.sum_cons, add_assoc]

theorem Exact.mean (h : t.Exact value amount) {l : List T} (hl : 0 < l.length) :
    ∃ q, t.mean l = some q ∧ amount q = meanOf (l.map value) := by
  obtain ⟨q, hq, hamount⟩ := h.div (l.foldl t.add t.zero) l.length hl
  refine ⟨q, hq, ?_⟩
  rw [hamount, h.foldl, h.zero, zero_add, meanOf, List.length_map]

end AverageType

structure HistoricArray (w : ℕ) (T : Type) (size : ArraySize w) where
  data : Fin size.1 → T
  offset : BitVec w

namespace HistoricArray

variable {w : ℕ} {T A : Type} {size : ArraySize w}

def new [Zero T] : HistoricArray w T size where
  data := fun _ => 0
  offset := 0

/-- `Size()`, as a `size_t`. -/
def sizeT (size : ArraySize w) : BitVec w := .ofNat w size.1

/-- `data[i]`. -/
def read (b : HistoricArray w T size) (i : BitVec w) : Option T :=
  if h : i.toNat < size.1 then some (b.data ⟨i.toNat, h⟩) else none

def add (b : HistoricArray w T size) (el : T) : Option (HistoricArray w T size) :=
  if h : b.offset.toNat < size.1 then
    some {
      data := Function.update b.data ⟨b.offset.toNat, h⟩ el
      offset := (b.offset + 1) % sizeT size }
  else none

def reset [Zero T] (_ : HistoricArray w T size) : HistoricArray w T size where
  data := fun _ => 0
  offset := 0

/-- `operator[]`. -/
def get (b : HistoricArray w T size) (i : BitVec w) : Option T :=
  if i < sizeT size then
    let back := b.offset - i - 1
    b.read (if back.toInt < 0 then sizeT size + back else back)
  else none

/-- `Average(firstN)`. -/
def average (b : HistoricArray w T size) (t : AverageType T A) (firstN : BitVec w) : Option A := do
  let avg ← (List.range firstN.toNat).foldlM
    (fun avg i => (b.get (.ofNat w i)).map (t.add avg)) t.zero
  t.div avg (t.cast firstN.toNat)

/-- `Average()`. -/
def averageAll (b : HistoricArray w T size) (t : AverageType T A) : Option A :=
  t.div ((List.ofFn b.data).foldl t.add t.zero) (t.cast size.1)

def min [LT T] [DecidableLT T] (b : HistoricArray w T size) : Option T :=
  Extremum.pick (· < ·) (List.ofFn b.data)

def max [LT T] [DecidableLT T] (b : HistoricArray w T size) : Option T :=
  Extremum.pick (· > ·) (List.ofFn b.data)

/-! ## The index -/

theorem toNat_sizeT (size : ArraySize w) : (sizeT size).toNat = size.1 := by
  have := size.2
  rw [sizeT, BitVec.toNat_ofNat, Nat.mod_eq_of_lt (by omega)]

theorem toNat_one (size : ArraySize w) : (1 : BitVec w).toNat = 1 := by
  have hfit : 1 < 2 ^ w := by
    have := size.2
    omega
  simp [Nat.mod_eq_of_lt hfit]

/-- The difference without a sign: below zero it comes out near `2 ^ w`. -/
theorem toNat_sub_sub_one (size : ArraySize w) (offset i : BitVec w) :
    (offset - i - 1).toNat =
      if i.toNat + 1 ≤ offset.toNat then offset.toNat - i.toNat - 1
      else 2 ^ w + offset.toNat - i.toNat - 1 := by
  have hfit := size.2
  rw [BitVec.toNat_sub, BitVec.toNat_sub, toNat_one size, Nat.add_mod_mod]
  split
  · have hturns : 2 ^ w - 1 + (2 ^ w - i.toNat + offset.toNat) =
        offset.toNat - i.toNat - 1 + 2 ^ w + 2 ^ w := by omega
    rw [hturns, Nat.add_mod_right, Nat.add_mod_right, Nat.mod_eq_of_lt (by omega)]
  · have hturn : 2 ^ w - 1 + (2 ^ w - i.toNat + offset.toNat) =
        2 ^ w + offset.toNat - i.toNat - 1 + 2 ^ w := by omega
    rw [hturn, Nat.add_mod_right, Nat.mod_eq_of_lt (by omega)]

/-- **The wrap-around through negative values** is the distance back from
the offset, on the circle. -/
theorem toNat_back {offset i : BitVec w} (ho : offset.toNat < size.1) (hi : i.toNat < size.1) :
    (if (offset - i - 1).toInt < 0 then sizeT size + (offset - i - 1) else offset - i - 1).toNat =
      (offset.toNat + size.1 - i.toNat - 1) % size.1 := by
  have hfit := size.2
  have hback := toNat_sub_sub_one size offset i
  have hneg := @BitVec.toInt_neg_iff w (offset - i - 1)
  by_cases hle : i.toNat + 1 ≤ offset.toNat
  · rw [if_pos hle] at hback
    have hplain : offset.toNat + size.1 - i.toNat - 1 =
        offset.toNat - i.toNat - 1 + size.1 := by omega
    rw [if_neg (by rw [hneg]; omega), hback, hplain, Nat.add_mod_right, Nat.mod_eq_of_lt (by omega)]
  · rw [if_neg hle] at hback
    have hturn : size.1 + (2 ^ w + offset.toNat - i.toNat - 1) =
        offset.toNat + size.1 - i.toNat - 1 + 2 ^ w := by omega
    rw [if_pos (by rw [hneg]; omega), BitVec.toNat_add, toNat_sizeT, hback, hturn, Nat.add_mod_right,
      Nat.mod_eq_of_lt (by omega), Nat.mod_eq_of_lt (by omega)]

/-! ## The buffer it refines -/

/-- The offset lies in the array, and the array is that of the buffer. -/
structure Refines (b : HistoricArray w T size) (abs : HistoricBuffer T size.1) : Prop where
  data : b.data = abs.data
  offset : b.offset.toNat = abs.offset

section
variable {b : HistoricArray w T size} {abs : HistoricBuffer T size.1}

instance : NeZero size.1 := ⟨Nat.ne_of_gt size.2.1⟩

theorem Refines.inside (h : b.Refines abs) : b.offset.toNat < size.1 := by
  rw [h.offset]
  exact abs.offset.isLt

theorem refines_new [Zero T] : (new : HistoricArray w T size).Refines HistoricBuffer.new where
  data := rfl
  offset := by simp [new, HistoricBuffer.new]

theorem refines_reset [Zero T] (b : HistoricArray w T size) (abs : HistoricBuffer T size.1) :
    b.reset.Refines abs.reset where
  data := rfl
  offset := by simp [reset, HistoricBuffer.reset]

/-- `Add` writes into the array and moves the offset round. -/
theorem Refines.add (h : b.Refines abs) (el : T) :
    ∃ b', b.add el = some b' ∧ b'.Refines (abs.add el) := by
  have hin := h.inside
  have hfit := size.2
  refine ⟨_, dif_pos hin, ?_, ?_⟩
  · have hplace : (⟨b.offset.toNat, hin⟩ : Fin size.1) = abs.offset := Fin.ext h.offset
    simp only [HistoricBuffer.add, hplace, h.data]
  · have hlt : (abs.offset : ℕ) + 1 < 2 ^ w := by
      have := abs.offset.isLt
      omega
    simp only [HistoricBuffer.add, BitVec.toNat_umod, BitVec.toNat_add, toNat_one size, toNat_sizeT,
      h.offset, Nat.mod_eq_of_lt hlt]

/-- An index below the size is in the array, where the buffer looks. -/
theorem Refines.get (h : b.Refines abs) {i : BitVec w} (hi : i.toNat < size.1) :
    b.get i = some (abs.get i.toNat) := by
  have hlt : i < sizeT size := by rwa [BitVec.lt_def, toNat_sizeT]
  have hback := toNat_back h.inside hi
  rw [HistoricArray.get, if_pos hlt, read, dif_pos (hback ▸ Nat.mod_lt _ size.2.1)]
  simp only [HistoricBuffer.get, hback, h.data, h.offset]

/-- The loop adds up what the buffer reads, the newest first. -/
theorem Refines.average (h : b.Refines abs) {t : AverageType T A} {firstN : BitVec w}
    (hn : firstN.toNat ≤ size.1) :
    b.average t firstN = t.mean ((List.range firstN.toNat).map abs.get) := by
  have hfit := size.2
  have hround : ∀ a c, ∀ i ∈ List.range firstN.toNat, a = c →
      ∃ a', (b.get (.ofNat w i)).map (t.add a) = pure a' ∧ a' = t.add c (abs.get i) := by
    rintro a _ i hi rfl
    have hlt := List.mem_range.mp hi
    have hi' : (BitVec.ofNat w i).toNat = i := by
      rw [BitVec.toNat_ofNat, Nat.mod_eq_of_lt (by omega)]
    rw [h.get (by omega), hi']
    exact ⟨_, rfl, rfl⟩
  obtain ⟨sum, hsum, hfold⟩ := Fallible.exists_foldlM hround (rfl : t.zero = t.zero)
  rw [HistoricArray.average, hsum, hfold, AverageType.mean, List.foldl_map, List.length_map,
    List.length_range]
  rfl

theorem Refines.slots (h : b.Refines abs) : List.ofFn b.data = abs.slots := by
  rw [HistoricBuffer.slots, h.data]

end

/-! ## What it holds -/

/-- The values added last, newest first, with 0 for those that are missing. -/
def recent [Zero T] (values : List T) (n : ℕ) : List T :=
  (List.range n).map fun i => values[i]?.getD 0

theorem map_get_eq_recent [Zero T] {size : ℕ} {abs : HistoricBuffer T size} {values : List T}
    (h : abs.Holds values) {n : ℕ} (hn : n ≤ size) :
    (List.range n).map abs.get = recent values n :=
  List.map_congr_left fun i hi => h i (Nat.lt_of_lt_of_le (List.mem_range.mp hi) hn)

/-- The array is a buffer that holds the values of a series. -/
def Holds [Zero T] (b : HistoricArray w T size) (values : List T) : Prop :=
  ∃ abs : HistoricBuffer T size.1, b.Refines abs ∧ abs.Holds values

section
variable [Zero T] {b : HistoricArray w T size} {values : List T}

theorem Holds.get (h : b.Holds values) {i : BitVec w} (hi : i.toNat < size.1) :
    b.get i = some (values[i.toNat]?.getD 0) := by
  obtain ⟨abs, href, hholds⟩ := h
  rw [href.get hi, hholds i.toNat hi]

/-- The array holds the same entries, in another order. -/
theorem Holds.perm (h : b.Holds values) : (List.ofFn b.data).Perm (recent values size.1) := by
  obtain ⟨abs, href, hholds⟩ := h
  rw [href.slots, ← map_get_eq_recent hholds (Nat.le_refl _)]
  exact abs.slots_perm

end

/-- There is a first element for the extremes. -/
theorem ofFn_data_ne_nil (b : HistoricArray w T size) : List.ofFn b.data ≠ [] := by
  have := size.2.1
  rw [Ne, List.ofFn_eq_nil_iff]
  omega

/-! ## Averages -/

section
variable [Zero T] {b : HistoricArray w T size} {values : List T} {t : AverageType T A}

theorem Holds.average (h : b.Holds values) {firstN : BitVec w} (hn : firstN.toNat ≤ size.1) :
    b.average t firstN = t.mean (recent values firstN.toNat) := by
  obtain ⟨abs, href, hholds⟩ := h
  rw [href.average hn, map_get_eq_recent hholds hn]

theorem Holds.averageAll (h : b.Holds values) :
    ∃ order, order.Perm (recent values size.1) ∧ b.averageAll t = t.mean order := by
  refine ⟨_, h.perm, ?_⟩
  rw [HistoricArray.averageAll, AverageType.mean, List.length_ofFn]

end

/-! ## Runs -/

inductive HistoricOp (T : Type) where
  | add (el : T)
  | reset

def step [Zero T] (b : HistoricArray w T size) : HistoricOp T → Option (HistoricArray w T size)
  | .add el => b.add el
  | .reset => some b.reset

def run [Zero T] (ops : List (HistoricOp T)) : Option (HistoricArray w T size) :=
  ops.foldlM step new

/-- The values added since the last reset, newest first. -/
def history (ops : List (HistoricOp T)) : List T :=
  ops.foldl (fun values op => match op with | .add el => el :: values | .reset => []) []

section
variable [Zero T]

/-- **The step lemma.** -/
theorem Holds.step {b : HistoricArray w T size} {values : List T} (h : b.Holds values)
    (op : HistoricOp T) :
    ∃ b', b.step op = some b' ∧
      b'.Holds (match op with | .add el => el :: values | .reset => []) := by
  obtain ⟨abs, href, hholds⟩ := h
  cases op with
  | add el =>
      obtain ⟨b', hadd, href'⟩ := href.add el
      exact ⟨b', hadd, abs.add el, href', hholds.add el⟩
  | reset => exact ⟨b.reset, rfl, abs.reset, refines_reset b abs, fun i _ => abs.get_reset i⟩

/-- **The run lemma**: no write leaves the array. -/
theorem run_holds (ops : List (HistoricOp T)) :
    ∃ b : HistoricArray w T size, run ops = some b ∧ b.Holds (history ops) :=
  Fallible.exists_foldlM (R := Holds) (fun _ _ op _ h => h.step op)
    ⟨.new, refines_new, HistoricBuffer.holds_new⟩

end

/-! ## The sliding window -/

/-- A reader sees a window on the values: the entries, the averages in the
order the loops add them up, the exact means where nothing is lost, and the
extremes. -/
structure Window [Zero T] [LT T] [DecidableLT T] (b : HistoricArray w T size) (values : List T) :
    Prop where
  get : ∀ i : BitVec w, i.toNat < size.1 → b.get i = some (values[i.toNat]?.getD 0)
  average : ∀ (A : Type) (t : AverageType T A) (firstN : BitVec w), firstN.toNat ≤ size.1 →
    b.average t firstN = t.mean (recent values firstN.toNat)
  averageAll : ∀ (A : Type) (t : AverageType T A),
    ∃ order, order.Perm (recent values size.1) ∧ b.averageAll t = t.mean order
  exact : ∀ (A : Type) (t : AverageType T A) (value : T → ℚ) (amount : A → ℚ),
    t.Exact value amount → ∀ firstN : BitVec w, 0 < firstN.toNat → firstN.toNat ≤ size.1 →
      ∃ q, b.average t firstN = some q ∧
        amount q = meanOf ((recent values firstN.toNat).map value)
  exactAll : ∀ (A : Type) (t : AverageType T A) (value : T → ℚ) (amount : A → ℚ),
    t.Exact value amount → ∃ q, b.averageAll t = some q ∧
      amount q = meanOf ((recent values size.1).map value)
  min : ∃ m, b.min = some m ∧ m ∈ recent values size.1 ∧ ∀ x ∈ recent values size.1, ¬ x < m
  max : ∃ m, b.max = some m ∧ m ∈ recent values size.1 ∧ ∀ x ∈ recent values size.1, ¬ m < x

section
variable [Zero T] {b : HistoricArray w T size} {values : List T}

@[simp] theorem length_recent (values : List T) (n : ℕ) : (recent values n).length = n := by
  simp [recent]

theorem Holds.exactAll (h : b.Holds values) {t : AverageType T A} {value : T → ℚ}
    {amount : A → ℚ} (ht : t.Exact value amount) :
    ∃ q, b.averageAll t = some q ∧ amount q = meanOf ((recent values size.1).map value) := by
  obtain ⟨order, hperm, hall⟩ := h.averageAll (t := t)
  have hlength : order.length = size.1 := by rw [hperm.length_eq, length_recent]
  obtain ⟨q, hq, hamount⟩ := ht.mean (hlength ▸ size.2.1)
  refine ⟨q, hall.trans hq, ?_⟩
  rw [hamount, meanOf, meanOf, (hperm.map value).sum_eq, (hperm.map value).length_eq]

variable [LT T] [DecidableLT T] [IsStrictOrder T (· < ·)]

theorem Holds.min (h : b.Holds values) :
    ∃ m, b.min = some m ∧ m ∈ recent values size.1 ∧ ∀ x ∈ recent values size.1, ¬ x < m := by
  obtain ⟨m, hm, hmem, hleast⟩ := @Extremum.exists_pick T (· < ·) _ _ _ b.ofFn_data_ne_nil
  exact ⟨m, hm, h.perm.mem_iff.mp hmem, fun x hx => hleast x (h.perm.mem_iff.mpr hx)⟩

theorem Holds.max (h : b.Holds values) :
    ∃ m, b.max = some m ∧ m ∈ recent values size.1 ∧ ∀ x ∈ recent values size.1, ¬ m < x := by
  have : IsStrictOrder T (· > ·) :=
    { irrefl := fun a => irrefl_of (· < ·) a
      trans := fun a c d hac hcd => trans_of (· < ·) hcd hac }
  obtain ⟨m, hm, hmem, hmost⟩ := @Extremum.exists_pick T (· > ·) _ _ _ b.ofFn_data_ne_nil
  exact ⟨m, hm, h.perm.mem_iff.mp hmem, fun x hx => hmost x (h.perm.mem_iff.mpr hx)⟩

theorem Holds.window (h : b.Holds values) : b.Window values where
  get := fun _ hi => h.get hi
  average := fun _ _ _ hn => h.average hn
  averageAll := fun _ _ => h.averageAll
  exact := fun _ t value amount ht firstN hpos hn => by
    rw [h.average hn]
    exact ht.mean (by rwa [length_recent])
  exactAll := fun _ _ _ _ ht => h.exactAll ht
  min := h.min
  max := h.max

/-- **`HistoricBuffer` is a sliding window**: over every run of `Add` and
`Reset` no index leaves the array, and the buffer reads as a window on the
values added since the last reset. -/
theorem sliding_window (ops : List (HistoricOp T)) :
    ∃ b : HistoricArray w T size, run ops = some b ∧ b.Window (history ops) := by
  have hrun : ∃ b : HistoricArray w T size, run ops = some b ∧ b.Holds (history ops) :=
    run_holds ops
  obtain ⟨b, hrun, hholds⟩ := hrun
  exact ⟨b, hrun, hholds.window⟩

end

/-- Integers averaged as rationals: nothing is lost. -/
def rationals : AverageType ℤ ℚ where
  zero := 0
  add a x := a + x
  div a d := some (a / d)
  cast := Nat.cast

theorem exact_rationals : rationals.Exact Int.cast id where
  zero := rfl
  add := fun _ _ => rfl
  div := fun _ _ _ => ⟨_, rfl, rfl⟩

/-- Values from before a reset are not read any more. -/
theorem sliding_window_after_reset :
    ∃ b : HistoricArray 64 ℤ ⟨4, by decide⟩,
      run [.add 3, .add 5, .reset, .add 7, .add 9] = some b ∧
        b.get 0 = some 9 ∧ b.get 1 = some 7 ∧ b.get 3 = some 0 ∧
        b.average rationals 2 = some 8 := by
  obtain ⟨b, hrun, hwindow⟩ := @sliding_window 64 ℤ ⟨4, by decide⟩ _ _ _ _
    [.add 3, .add 5, .reset, .add 7, .add 9]
  obtain ⟨q, hq, hmean⟩ := hwindow.exact ℚ rationals Int.cast id exact_rationals 2 (by decide)
    (by decide)
  obtain rfl : q = 8 := hmean.trans (by decide +kernel)
  exact ⟨b, hrun, hwindow.get 0 (by decide), hwindow.get 1 (by decide), hwindow.get 3 (by decide),
    hq⟩

/-! ## Averages in an `unsigned int` -/

/-- The arithmetic of `unsigned int`. -/
def unsignedInt : AverageType UInt32 UInt32 where
  zero := 0
  add := (· + ·)
  div a d := if d = 0 then none else some (a / d)
  cast := .ofNat

theorem toNat_foldl (l : List UInt32) (a : UInt32)
    (h : a.toNat + (l.map UInt32.toNat).sum < 2 ^ 32) :
    (l.foldl unsignedInt.add a).toNat = a.toNat + (l.map UInt32.toNat).sum := by
  induction l generalizing a with
  | nil => rfl
  | cons x l ih =>
      rw [List.map_cons, List.sum_cons] at h ⊢
      have hadd : (unsignedInt.add a x).toNat = a.toNat + x.toNat := by
        rw [unsignedInt, UInt32.toNat_add, Nat.mod_eq_of_lt (by omega)]
      rw [List.foldl_cons, ih _ (by omega), hadd, Nat.add_assoc]

/-- While the sum fits, the mean is rounded down. -/
theorem mean_unsignedInt {l : List UInt32} (hpos : 0 < l.length) (hlen : l.length < 2 ^ 32)
    (hsum : (l.map UInt32.toNat).sum < 2 ^ 32) :
    ∃ q, unsignedInt.mean l = some q ∧ q.toNat = (l.map UInt32.toNat).sum / l.length := by
  have hcast : (UInt32.ofNat l.length).toNat = l.length := by
    rw [UInt32.toNat_ofNat', Nat.mod_eq_of_lt hlen]
  have hne : UInt32.ofNat l.length ≠ 0 := fun he => by
    rw [he] at hcast
    exact absurd hcast (Nat.ne_of_lt hpos)
  have hfold := toNat_foldl l 0 (by simpa using hsum)
  refine ⟨l.foldl unsignedInt.add 0 / .ofNat l.length, ?_, ?_⟩
  · simp only [AverageType.mean]
    exact if_neg hne
  · rw [UInt32.toNat_div, hfold, hcast]
    simp

/-- `HistoricBuffer<unsigned int, 5>`. -/
abbrev fiveSlots : ArraySize 64 := ⟨5, by decide⟩

/-- Two values whose sum wraps: their average is 0. -/
theorem average_wraps :
    ((run [.add 2147483648, .add 2147483648] : Option (HistoricArray 64 UInt32 fiveSlots)).bind
        fun b => b.average unsignedInt 2) = some 0 ∧
      meanOf ((recent (history [.add 2147483648, .add (2147483648 : UInt32)]) 2).map
        fun x => (x.toNat : ℚ)) = 2147483648 := by
  constructor
  · decide +kernel
  · decide +kernel

end HistoricArray

end Tgvoip
