import Tgvoip.Lib.Elimination
import Tgvoip.Video.CM256

/-!
# CM256Matrix — the decomposition is that of a Cauchy matrix

`GenerateLDUDecomposition` keeps one factor for each row and each column, and
writes the multipliers of `U` column by column from the end of the matrix,
though it finds them row by row. What it leaves in the three pieces are the
pivots and multipliers of the Schur complements of the matrix with the
entries `(x_0 + y_j) / (x_i + y_j)`.
-/

namespace Tgvoip

open Function (update)
open Gf256Ctx

namespace CM256Decoder

open Elimination
open GF256 (mk_mul mk_div mk_inv mk_add)

/-! ## Places -/

/-- The sum of the numbers up to `m`. -/
def tri (m : ℕ) : ℤ := ∑ i ∈ Finset.range (m + 1), (i : ℤ)

theorem tri_succ (m : ℕ) : tri (m + 1) = tri m + (m + 1) := by
  rw [tri, Finset.sum_range_succ, Nat.cast_succ]
  rfl

theorem two_mul_tri (m : ℕ) : 2 * tri m = m * (m + 1) := by
  induction m with
  | zero => rfl
  | succ m ih =>
      rw [tri_succ, mul_add, ih]
      push_cast
      ring

theorem tri_mono {i j : ℕ} (h : i ≤ j) : tri i ≤ tri j :=
  Finset.sum_le_sum_of_subset_of_nonneg (Finset.range_mono (by omega)) fun i _ _ => Int.natCast_nonneg i

/-- Where the entry in row `k` and column `j` of `U` is. -/
def place (n k j : ℕ) : ℤ := tri (n - 1) - tri j + (j - 1 - k)

theorem place_succ (n k j : ℕ) : place n k (j + 1) = place n k j - j := by
  rw [place, place, tri_succ]
  push_cast
  ring

/-- The place of an entry is in the range of its column. -/
theorem place_mem (n : ℕ) {k j : ℕ} (h : k < j) :
    tri (n - 1) - tri j ≤ place n k j ∧ place n k j < tri (n - 1) - tri (j - 1) := by
  obtain ⟨j, rfl⟩ : ∃ m, j = m + 1 := ⟨j - 1, by omega⟩
  rw [place, Nat.add_sub_cancel, tri_succ]
  push_cast
  omega

theorem place_inj {n k j k' j' : ℕ} (h : k < j) (h' : k' < j')
    (he : place n k j = place n k' j') : k = k' ∧ j = j' := by
  have hj : j = j' := by
    rcases Nat.lt_trichotomy j j' with hlt | heq | hgt
    · have := tri_mono (show j ≤ j' - 1 by omega)
      have := place_mem n h
      have := place_mem n h'
      omega
    · exact heq
    · have := tri_mono (show j' ≤ j - 1 by omega)
      have := place_mem n h
      have := place_mem n h'
      omega
  subst hj
  rw [place, place] at he
  omega

/-- The first place of a row is where the pointer stands. -/
theorem place_first {n : ℕ} (hn : 0 < n) (k : ℕ) :
    ((n - 1) * n / 2 - 1 : ℤ) + -(tri (k + 1) - 1) = place n k (k + 1) := by
  have hlast : ((n - 1) * n / 2 : ℤ) = tri (n - 1) := by
    have h2 := two_mul_tri (n - 1)
    have hcast : ((n - 1 : ℕ) : ℤ) = n - 1 := by omega
    rw [hcast] at h2
    have hmul : ((n : ℤ) - 1) * n = 2 * tri (n - 1) := by rw [h2]; ring
    rw [hmul]
    omega
  rw [hlast, place]
  push_cast
  ring

/-! ## One row and one column -/

/-- Some generators are replaced. -/
def renewed (f : ℕ → UInt8 → UInt8) (g : ℕ → UInt8) (a c : ℕ) : ℕ → UInt8 := fun j =>
  if a ≤ j ∧ j < a + c then f j (g j) else g j

theorem renewed_zero (f : ℕ → UInt8 → UInt8) (g : ℕ → UInt8) (a : ℕ) : renewed f g a 0 = g := by
  funext j
  exact if_neg (by omega)

theorem renewed_of_lt {f : ℕ → UInt8 → UInt8} {g : ℕ → UInt8} {a c j : ℕ} (h : a ≤ j)
    (h' : j < a + c) : renewed f g a c j = f j (g j) :=
  if_pos ⟨h, h'⟩

theorem renewed_last (f : ℕ → UInt8 → UInt8) (g : ℕ → UInt8) (a c : ℕ) :
    renewed f g a c (a + c) = g (a + c) :=
  if_neg (by omega)

theorem update_renewed (f : ℕ → UInt8 → UInt8) (g : ℕ → UInt8) (a c : ℕ) :
    update (renewed f g a c) (a + c) (f (a + c) (g (a + c))) = renewed f g a (c + 1) := by
  funext j
  by_cases hj : j = a + c
  · subst hj
    rw [Function.update_self, renewed_of_lt (by omega) (by omega)]
  · rw [Function.update_of_ne hj]
    exact if_congr (by omega) rfl rfl

/-- The entries do not depend on each other. -/
theorem entries_eq (x y : ℕ → UInt8) (k : ℕ) (g b : ℕ → UInt8) (c : ℕ) :
    (List.range' (k + 1) c).foldl (entry x y k) ⟨[], [], g, b⟩ =
      { row_L := (List.range' (k + 1) c).map fun j => div (g j) (add (x j) (y k))
        row_U := (List.range' (k + 1) c).map fun j => div (b j) (add (x k) (y j))
        g := renewed (fun j v => mul v (div (add (x j) (x k)) (add (x j) (y k)))) g (k + 1) c
        b := renewed (fun j v => mul v (div (add (y j) (y k)) (add (y j) (x k)))) b (k + 1) c } := by
  induction c with
  | zero => rw [renewed_zero, renewed_zero]; rfl
  | succ c ih =>
      rw [List.range'_1_concat, List.foldl_append, ih, List.foldl_cons, List.foldl_nil, entry]
      simp only [renewed_last, update_renewed, List.map_append, List.map_cons, List.map_nil]

/-- A copied row leaves all places but its own. -/
theorem copyRow_of_ne {n k a c : ℕ} {row_U : List UInt8} {matrix_U : ℤ → UInt8} {p : ℤ}
    (hp : ∀ j, a ≤ j → j < a + c → p ≠ place n k j) :
    copyRow (place n k a) (List.range' a c) row_U matrix_U p = matrix_U p := by
  induction c generalizing a row_U matrix_U with
  | zero => rw [List.range'_zero, copyRow]; simp
  | succ c ih =>
      rw [List.range'_succ]
      cases row_U with
      | nil => rw [copyRow]; simp
      | cons v row_U =>
          rw [copyRow, ← place_succ, ih fun j hj hj' => hp j (by omega) (by omega)]
          exact Function.update_of_ne (hp a le_rfl (by omega)) ..

theorem copyRow_place {n k a c : ℕ} (ha : k < a) {row_U : List UInt8} (hlen : row_U.length = c)
    (matrix_U : ℤ → UInt8) {j : ℕ} (hj : a ≤ j) (hj' : j < a + c) :
    copyRow (place n k a) (List.range' a c) row_U matrix_U (place n k j) = row_U.getD (j - a) 0 := by
  induction c generalizing a row_U matrix_U with
  | zero => omega
  | succ c ih =>
      obtain ⟨v, row_U, rfl⟩ := List.exists_cons_of_length_eq_add_one hlen
      rw [List.range'_succ, copyRow, ← place_succ]
      by_cases hja : j = a
      · subst hja
        rw [copyRow_of_ne fun i hi _ he => absurd (place_inj ha (by omega) he).2 (by omega),
          Function.update_self, Nat.sub_self, List.getD_cons_zero]
      · have hsub : j - a = j - (a + 1) + 1 := by omega
        rw [ih (by omega) (by simpa using hlen) _ (by omega) (by omega), hsub, List.getD_cons_succ]

/-! ## The weights -/

theorem getD_multiple (part : List UInt8) (y : UInt8) {i : ℕ} (hi : i < part.length) :
    (multiple part y).getD i 0 = mul (part.getD i 0) y := by
  rw [multiple, List.getD_eq_getElem _ _ (by simpa using hi), List.getD_eq_getElem _ _ hi,
    List.getElem_map]

theorem mulPart_of_mem {row : ℤ} {count : ℕ} {p : ℤ} (h : row ≤ p) (h' : p < row + count)
    (matrix : ℤ → UInt8) (y : UInt8) : mulPart matrix row count y p = mul (matrix p) y := by
  have hlt : (p - row).toNat < count := by omega
  have hback : row + ((p - row).toNat : ℤ) = p := by omega
  rw [mulPart, if_pos ⟨h, h'⟩, mulMem_self, getD_multiple _ _ (by simpa using hlt),
    List.getD_eq_getElem _ _ (by simpa using hlt), List.getElem_map, List.getElem_range, hback]

theorem mulPart_of_not_mem {row : ℤ} {count : ℕ} {p : ℤ} (h : p < row ∨ row + count ≤ p)
    (matrix : ℤ → UInt8) (y : UInt8) : mulPart matrix row count y p = matrix p :=
  if_neg (by omega)

/-- The columns before the pointer are done. -/
theorem weigh_of_lt (y : ℕ → UInt8) (x_0 : UInt8) {j : ℕ} {row_U p : ℤ} (h : p < row_U)
    (matrix_U : ℤ → UInt8) : weigh y x_0 j row_U matrix_U p = matrix_U p := by
  induction j generalizing row_U matrix_U with
  | zero => rfl
  | succ j ih => rw [weigh, ih (by omega), mulPart_of_not_mem (.inl h)]

theorem weigh_place (n : ℕ) (y : ℕ → UInt8) (x_0 : UInt8) (matrix_U : ℤ → UInt8) {k j m : ℕ}
    (hk : k < j) (hj : j ≤ m) :
    weigh y x_0 m (tri (n - 1) - tri m) matrix_U (place n k j)
      = mul (matrix_U (place n k j)) (add x_0 (y j)) := by
  induction m generalizing matrix_U with
  | zero => omega
  | succ m ih =>
      have hrow : tri (n - 1) - tri (m + 1) + ((m : ℤ) + 1) = tri (n - 1) - tri m := by
        rw [tri_succ]
        ring
      have hplace := place_mem n hk
      rw [weigh, hrow]
      by_cases hjm : j = m + 1
      · subst hjm
        rw [Nat.add_sub_cancel] at hplace
        rw [weigh_of_lt _ _ hplace.2, mulPart_of_mem hplace.1 (by push_cast; omega)]
      · have := tri_mono (show j ≤ m by omega)
        rw [ih _ (by omega), mulPart_of_not_mem (.inr (by push_cast; omega))]

/-! ## The pivots -/

/-- Bytes as elements. -/
def elems (f : ℕ → UInt8) : ℕ → GF256 := fun i => ⟨f i⟩

/-- The scale of a column. -/
def scale (x_0 : UInt8) (y : ℕ → UInt8) : ℕ → GF256 := fun j => ⟨x_0⟩ + ⟨y j⟩

/-- The complements of the matrix of the erasures. -/
def complement (x y : ℕ → UInt8) (x_0 : UInt8) : ℕ → ℕ → ℕ → GF256 :=
  cauchy (elems x) (elems y) (scale x_0 y)

/-- Where column `j` of `L` starts. -/
def startL (n : ℕ) : ℕ → ℕ
  | 0 => 0
  | j + 1 => startL n j + (n - (j + 1))

theorem startL_mono (n : ℕ) {i j : ℕ} (h : i ≤ j) : startL n i ≤ startL n j := by
  induction h with
  | refl => exact le_rfl
  | step _ ih => exact ih.trans (Nat.le_add_right ..)

/-- What `k` pivots have found. The entries of `U` are not scaled yet. -/
structure Found (n : ℕ) (x y : ℕ → UInt8) (x_0 : UInt8) (k : ℕ) (m : Ldu) : Prop where
  g : ∀ j, k ≤ j → j < n → (⟨m.g j⟩ : GF256) = rowGen (elems x) (elems y) k j
  b : ∀ j, k ≤ j → j < n → (⟨m.b j⟩ : GF256) = colGen (elems x) (elems y) k j
  offset : m.firstOffset_U = -(tri (k + 1) - 1)
  diag : ∀ i < k, (⟨m.diag_D i⟩ : GF256) = complement x y x_0 i i i
  length : m.matrix_L.length = startL n k
  lower : ∀ j < k, ∀ i, j < i → i < n →
    (⟨m.matrix_L.getD (startL n j + (i - (j + 1))) 0⟩ : GF256) = lower (complement x y x_0) i j
  upper : ∀ i < k, ∀ j, i < j → j < n →
    (⟨m.matrix_U (place n i j)⟩ : GF256) = upper (complement x y x_0) i j / scale x_0 y j

variable {n : ℕ} {x y : ℕ → UInt8} {x_0 : UInt8}

theorem getD_map_after (f : ℕ → UInt8) {k j : ℕ} (hkj : k < j) (hj : j < n) :
    ((after k n).map f).getD (j - (k + 1)) 0 = f j := by
  have hlt : j - (k + 1) < ((after k n).map f).length := by
    simp only [after, List.length_map, List.length_range']
    omega
  have hback : k + 1 + (j - (k + 1)) = j := by omega
  rw [List.getD_eq_getElem _ _ hlt, List.getElem_map]
  simp only [after, List.getElem_range', one_mul, hback]

/-- The entry of `L` that a pivot finds in row `j`. -/
def foundL (x y : ℕ → UInt8) (g : ℕ → UInt8) (k j : ℕ) : UInt8 :=
  mul (div (g j) (add (x j) (y k))) (inv (div (g k) (add (x k) (y k))))

/-- The entry of `U` that it finds in column `j`. -/
def foundU (x y : ℕ → UInt8) (x_0 : UInt8) (b : ℕ → UInt8) (k j : ℕ) : UInt8 :=
  mul (div (b j) (add (x k) (y j))) (inv (mul (div (b k) (add (x k) (y k))) (add x_0 (y k))))

theorem pivot_eq (n : ℕ) (x y : ℕ → UInt8) (x_0 : UInt8) (k : ℕ) (m : Ldu) :
    pivot n x y x_0 k m =
      { matrix_L := m.matrix_L ++ (after k n).map (foundL x y m.g k)
        diag_D := update m.diag_D k (mul (add (x k) (y k)) (mul (div (m.g k) (add (x k) (y k)))
          (mul (div (m.b k) (add (x k) (y k))) (add x_0 (y k)))))
        matrix_U := copyRow ((n - 1) * n / 2 - 1 + m.firstOffset_U) (after k n)
          ((after k n).map (foundU x y x_0 m.b k)) m.matrix_U
        g := renewed (fun j v => mul v (div (add (x j) (x k)) (add (x j) (y k)))) m.g (k + 1)
          (n - (k + 1))
        b := renewed (fun j v => mul v (div (add (y j) (y k)) (add (y j) (x k)))) m.b (k + 1)
          (n - (k + 1))
        firstOffset_U := m.firstOffset_U - (k + 2) } := by
  simp only [pivot, after, entries_eq, divMem, mulMem_self, multiple, List.map_map]
  rfl

theorem foundL_eq (hx : Apart (elems x) (elems y) (scale x_0 y) n) {k j : ℕ} (hkj : k < j)
    (hj : j < n) {g : ℕ → UInt8}
    (hg : ∀ j, k ≤ j → j < n → (⟨g j⟩ : GF256) = rowGen (elems x) (elems y) k j) :
    (⟨foundL x y g k j⟩ : GF256) = lower (complement x y x_0) j k := by
  rw [complement, hx.lower_eq hkj hj, ← hg j hkj.le hj, ← hg k le_rfl (hkj.trans hj), foundL, mk_mul,
    mk_inv, mk_div, mk_div, ← div_eq_mul_inv]
  rfl

theorem foundU_eq (hx : Apart (elems x) (elems y) (scale x_0 y) n) {k j : ℕ} (hkj : k < j)
    (hj : j < n) {b : ℕ → UInt8}
    (hb : ∀ j, k ≤ j → j < n → (⟨b j⟩ : GF256) = colGen (elems x) (elems y) k j) :
    (⟨foundU x y x_0 b k j⟩ : GF256) = upper (complement x y x_0) k j / scale x_0 y j := by
  rw [complement, hx.upper_eq hkj hj, mul_div_cancel_right₀ _ (hx.weights j hj), ← hb j hkj.le hj,
    ← hb k le_rfl (hkj.trans hj), foundU, mk_mul, mk_inv, mk_mul, mk_div, mk_div, ← div_eq_mul_inv]
  rfl

theorem diag_eq (hx : Apart (elems x) (elems y) (scale x_0 y) n) {k : ℕ} (hk : k < n)
    {g b : UInt8} (hg : (⟨g⟩ : GF256) = rowGen (elems x) (elems y) k k)
    (hb : (⟨b⟩ : GF256) = colGen (elems x) (elems y) k k) :
    (⟨mul (add (x k) (y k)) (mul (div g (add (x k) (y k)))
      (mul (div b (add (x k) (y k))) (add x_0 (y k))))⟩ : GF256) = complement x y x_0 k k k := by
  rw [complement, hx.pivot_eq hk, ← hg, ← hb]
  simp only [mk_mul, mk_div, mk_add]
  rfl

theorem pivot_found (hx : Apart (elems x) (elems y) (scale x_0 y) n) {k : ℕ} (hk : k + 1 < n)
    {m : Ldu} (h : Found n x y x_0 k m) : Found n x y x_0 (k + 1) (pivot n x y x_0 k m) := by
  have hkn : k < n := by omega
  have hend : k + 1 + (n - (k + 1)) = n := by omega
  have hlen : (after k n).length = n - (k + 1) := List.length_range'
  have hplace : ((n - 1) * n / 2 - 1 : ℤ) + m.firstOffset_U = place n k (k + 1) := by
    rw [h.offset, place_first (by omega)]
  rw [pivot_eq, hplace]
  exact
    { g := fun j hj hjn => by
        show (⟨renewed (fun j v => mul v (div (add (x j) (x k)) (add (x j) (y k)))) m.g (k + 1)
          (n - (k + 1)) j⟩ : GF256) = _
        rw [renewed_of_lt hj (by omega), mk_mul, mk_div, mk_add, mk_add, h.g j (by omega) hjn]
        rfl
      b := fun j hj hjn => by
        show (⟨renewed (fun j v => mul v (div (add (y j) (y k)) (add (y j) (x k)))) m.b (k + 1)
          (n - (k + 1)) j⟩ : GF256) = _
        rw [renewed_of_lt hj (by omega), mk_mul, mk_div, mk_add, mk_add, h.b j (by omega) hjn]
        rfl
      offset := by
        show m.firstOffset_U - (k + 2) = _
        rw [h.offset, tri_succ (k + 1)]
        push_cast
        ring
      diag := fun i hi => by
        show (⟨update m.diag_D k _ i⟩ : GF256) = _
        by_cases hik : i = k
        · subst hik
          rw [Function.update_self]
          exact diag_eq hx hkn (h.g i le_rfl hkn) (h.b i le_rfl hkn)
        · rw [Function.update_of_ne hik]
          exact h.diag i (by omega)
      length := by
        show (m.matrix_L ++ _).length = _
        rw [List.length_append, List.length_map, hlen, h.length, startL]
      lower := fun j hj i hji hi => by
        show (⟨(m.matrix_L ++ _).getD _ 0⟩ : GF256) = _
        by_cases hjk : j = k
        · subst hjk
          rw [List.getD_append_right _ _ _ _ (by rw [h.length]; omega), h.length,
            Nat.add_sub_cancel_left, getD_map_after _ hji hi]
          exact foundL_eq hx hji hi h.g
        · have hfirst : startL n (j + 1) ≤ startL n k := startL_mono n (by omega)
          have hlt : startL n j + (i - (j + 1)) < m.matrix_L.length := by
            rw [h.length]
            rw [startL] at hfirst
            omega
          rw [List.getD_append _ _ _ _ hlt]
          exact h.lower j (by omega) i hji hi
      upper := fun i hi j hij hj => by
        show (⟨copyRow (place n k (k + 1)) (after k n) _ m.matrix_U (place n i j)⟩ : GF256) = _
        by_cases hik : i = k
        · subst hik
          rw [after, copyRow_place (by omega) (by rw [List.length_map, List.length_range']) _
            (by omega) (by omega)]
          have := getD_map_after (foundU x y x_0 m.b i) hij hj
          rw [after] at this
          rw [this]
          exact foundU_eq hx hij hj h.b
        · rw [after, copyRow_of_ne fun j' hj' _ he =>
            hik (place_inj hij (show k < j' by omega) he).1]
          exact h.upper i (by omega) j hij hj }

theorem pivots_found (hx : Apart (elems x) (elems y) (scale x_0 y) n) {start : Ldu}
    (h : Found n x y x_0 0 start) {k : ℕ} (hk : k < n) :
    Found n x y x_0 k (pivots n x y x_0 start k) := by
  induction k with
  | zero => exact h
  | succ k ih => exact pivot_found hx hk (ih (by omega))

/-- **The three pieces of the matrix.** -/
structure Decomposed (n : ℕ) (x y : ℕ → UInt8) (x_0 : UInt8) (m : Ldu) : Prop where
  lower : ∀ j i, j < i → i < n →
    (⟨m.matrix_L.getD (startL n j + (i - (j + 1))) 0⟩ : GF256) = lower (complement x y x_0) i j
  diag : ∀ i < n, (⟨m.diag_D i⟩ : GF256) = complement x y x_0 i i i
  upper : ∀ i j, i < j → j < n →
    (⟨m.matrix_U (place n i j)⟩ : GF256) = upper (complement x y x_0) i j

/-- **The decomposition is that of the Cauchy matrix**, whatever the memory
for it held. -/
theorem generate_decomposed (fresh : ℕ → UInt8)
    (hx : Apart (elems x) (elems y) (scale x_0 y) n) (hn : 0 < n) :
    Decomposed n x y x_0 (generateLDUDecomposition fresh n x y x_0) := by
  have hlast : n - 1 < n := by omega
  have hstart : Found n x y x_0 0 ⟨[], fresh, fun p => fresh p.toNat, fun _ => 1, fun _ => 1, 0⟩ :=
    { g := fun _ _ _ => rfl, b := fun _ _ _ => rfl, offset := rfl, diag := by simp, length := rfl,
      lower := by simp, upper := by simp }
  have h := pivots_found hx hstart hlast
  simp only [generateLDUDecomposition]
  generalize pivots n x y x_0 _ (n - 1) = m at h ⊢
  refine ⟨fun j i hji hi => h.lower j (by omega) i hji hi, fun i hi => ?_, fun i j hij hj => ?_⟩
  · by_cases hin : i = n - 1
    · subst hin
      simp only [Function.update_self, mk_mul, mk_div, mk_add, h.g _ le_rfl hlast,
        h.b _ le_rfl hlast, ← mul_assoc]
      rfl
    · simp only [Function.update_of_ne hin]
      exact h.diag i (by omega)
  · have hw := weigh_place n y x_0 m.matrix_U hij (show j ≤ n - 1 by omega)
    rw [sub_self] at hw
    simp only [hw, mk_mul, h.upper i (by omega) j hij hj]
    exact div_mul_cancel₀ _ (hx.weights j hj)

end CM256Decoder

end Tgvoip
