import Mathlib.Algebra.Module.Pi
import Tgvoip.Video.CM256Matrix

/-!
# CM256Sweeps — the recovery blocks are solved for

A block is a vector of elements, one for each byte. The loops of
`CM256Decoder::Decode` over the recovery blocks are the sweeps of
`Lib.Elimination` over such vectors, and touch no other block (`Alike`).
-/

namespace Tgvoip

open ByteReader (Bytes)
open Elimination
open Gf256Ctx (mul add getMatrixElement addMem add2Mem addsetMem mulMem muladdMem divMem multiple)

namespace CM256Decoder

/-! ## Blocks as vectors -/

/-- The bytes of a block as elements. -/
def data (b : Bytes) : ℕ → GF256 := fun t => ⟨b.getD t 0⟩

theorem data_inj {a b : Bytes} (hlen : a.length = b.length) (h : data a = data b) : a = b := by
  apply List.ext_getElem hlen
  intro t ht ht'
  have hbyte := congrArg GF256.byte (congrFun h t)
  rwa [data, data, List.getD_eq_getElem _ _ ht, List.getD_eq_getElem _ _ ht'] at hbyte

theorem getD_zipWith {f : UInt8 → UInt8 → UInt8} (hf : f 0 0 = 0) {z x : Bytes}
    (h : z.length = x.length) (t : ℕ) :
    (List.zipWith f z x).getD t 0 = f (z.getD t 0) (x.getD t 0) := by
  rcases Nat.lt_or_ge t z.length with ht | ht
  · have htx : t < x.length := h ▸ ht
    rw [List.getD_eq_getElem _ _ (by simpa [h] using htx), List.getD_eq_getElem _ _ ht,
      List.getD_eq_getElem _ _ htx, List.getElem_zipWith]
  · rw [List.getD_eq_default _ _ (by simp [ht]), List.getD_eq_default _ _ ht,
      List.getD_eq_default _ _ (h ▸ ht), hf]

theorem zero_mul (y : UInt8) : mul 0 y = 0 := by
  rw [mul]
  split <;> rfl

theorem length_muladdMem {z x : Bytes} (h : z.length = x.length) (y : UInt8) :
    (muladdMem z y x).length = z.length := by
  simp [Gf256Ctx.muladdMem_eq h, h]

theorem data_muladdMem {z x : Bytes} (h : z.length = x.length) (y : UInt8) :
    data (muladdMem z y x) = data z + (⟨y⟩ : GF256) • data x := by
  have hzero : (0 : UInt8) ^^^ mul 0 y = 0 := by rw [zero_mul]; rfl
  funext t
  rw [Pi.add_apply, Pi.smul_apply, smul_eq_mul, mul_comm, data, Gf256Ctx.muladdMem_eq h,
    getD_zipWith hzero h]
  exact congrArg (⟨z.getD t 0⟩ + ·) (GF256.mk_mul (x.getD t 0) y)

theorem data_multiple (x : Bytes) (y : UInt8) : data (multiple x y) = (⟨y⟩ : GF256) • data x := by
  funext t
  rw [Pi.smul_apply, smul_eq_mul, mul_comm, data, data, multiple]
  rcases Nat.lt_or_ge t x.length with ht | ht
  · rw [List.getD_eq_getElem _ _ (by simpa using ht), List.getD_eq_getElem _ _ ht,
      List.getElem_map, GF256.mk_mul]
  · rw [List.getD_eq_default _ _ (by simpa using ht), List.getD_eq_default _ _ ht, ← GF256.mk_mul,
      zero_mul]

theorem data_divMem (x : Bytes) (y : UInt8) :
    data (divMem x x y) = (⟨y⟩ : GF256)⁻¹ • data x := by
  rw [divMem, Gf256Ctx.mulMem_self, data_multiple, GF256.mk_inv]

theorem length_divMem (x : Bytes) (y : UInt8) : (divMem x x y).length = x.length := by
  rw [divMem, Gf256Ctx.mulMem_self, multiple, List.length_map]

theorem data_addMem {z x : Bytes} (h : z.length = x.length) : data (addMem z x) = data z + data x := by
  funext t
  rw [data, addMem, getD_zipWith rfl h]
  rfl

theorem length_addMem {z x : Bytes} (h : z.length = x.length) : (addMem z x).length = z.length := by
  simp [addMem, h]

theorem sub_eq_add (u v : ℕ → GF256) : u - v = u + v := funext fun t => GF256.sub_eq (u t) (v t)

/-! ## What a sweep may touch -/

variable (s : CM256Decoder)

/-- Nothing but the data of recovery blocks differs. -/
structure Framed (a b : Cm256Blocks) : Prop where
  index : ∀ q, (b.get q).index = (a.get q).index
  other : ∀ q, q ∉ s.recovery → b.get q = a.get q

/-- And no block has another size. -/
structure Alike (a b : Cm256Blocks) : Prop extends Framed s a b where
  length : ∀ q, (b.get q).block.length = (a.get q).block.length

/-- The blocks that are solved for. -/
def rows (blocks : Cm256Blocks) (i : ℕ) : ℕ → GF256 := data (blocks.get (s.recoveryAt i)).block

/-- All of them have the same size. -/
def Sized (size : ℕ) (blocks : Cm256Blocks) : Prop :=
  ∀ i < s.recovery.length, (blocks.get (s.recoveryAt i)).block.length = size

variable {s}

theorem Framed.refl (a : Cm256Blocks) : s.Framed a a := ⟨fun _ => rfl, fun _ _ => rfl⟩

theorem Framed.trans {a b c : Cm256Blocks} (h : s.Framed a b) (h' : s.Framed b c) :
    s.Framed a c where
  index q := (h'.index q).trans (h.index q)
  other q hq := (h'.other q hq).trans (h.other q hq)

theorem Alike.refl (a : Cm256Blocks) : s.Alike a a := ⟨Framed.refl a, fun _ => rfl⟩

theorem Alike.trans {a b c : Cm256Blocks} (h : s.Alike a b) (h' : s.Alike b c) : s.Alike a c where
  toFramed := h.toFramed.trans h'.toFramed
  length q := (h'.length q).trans (h.length q)

theorem Alike.sized {size : ℕ} {a b : Cm256Blocks} (h : s.Alike a b) (ha : s.Sized size a) :
    s.Sized size b := fun i hi => (h.length _).trans (ha i hi)

theorem recoveryAt_mem {i : ℕ} (hi : i < s.recovery.length) : s.recoveryAt i ∈ s.recovery := by
  rw [recoveryAt, List.getD_eq_getElem _ _ hi]
  exact List.getElem_mem hi

theorem recoveryAt_inj (hs : s.recovery.Nodup) {i j : ℕ} (hi : i < s.recovery.length)
    (hj : j < s.recovery.length) (h : s.recoveryAt i = s.recoveryAt j) : i = j := by
  rw [recoveryAt, recoveryAt, List.getD_eq_getElem _ _ hi, List.getD_eq_getElem _ _ hj] at h
  exact (hs.getElem_inj_iff).mp h

theorem get_muladdBlock (dst : ℕ) (y : UInt8) (src : ℕ) (blocks : Cm256Blocks) (q : ℕ) :
    (muladdBlock dst y src blocks).get q
      = if q = dst then
          { blocks.get dst with block := muladdMem (blocks.get dst).block y (blocks.get src).block }
        else blocks.get q := by
  rw [muladdBlock, setBlock, Cm256Blocks.get_set]

theorem setBlock_framed {dst : ℕ} (hdst : dst ∈ s.recovery) (blocks : Cm256Blocks)
    (bytes : Bytes) : s.Framed blocks (setBlock blocks dst bytes) where
  index q := by
    rw [setBlock, Cm256Blocks.get_set]
    split
    · subst q; rfl
    · rfl
  other q hq := by
    rw [setBlock, Cm256Blocks.get_set]
    exact if_neg fun h : q = dst => hq (h ▸ hdst)

theorem setBlock_alike {dst : ℕ} (hdst : dst ∈ s.recovery) {blocks : Cm256Blocks} {bytes : Bytes}
    (hlen : bytes.length = (blocks.get dst).block.length) :
    s.Alike blocks (setBlock blocks dst bytes) where
  toFramed := setBlock_framed hdst blocks bytes
  length q := by
    rw [setBlock, Cm256Blocks.get_set]
    split
    · subst q; exact hlen
    · rfl

theorem muladdBlock_alike {dst src : ℕ} (hdst : dst ∈ s.recovery) {blocks : Cm256Blocks}
    (hlen : (blocks.get dst).block.length = (blocks.get src).block.length) (y : UInt8) :
    s.Alike blocks (muladdBlock dst y src blocks) :=
  setBlock_alike hdst (length_muladdMem hlen y)

/-! ## One column -/

theorem rows_muladdBlock (hs : s.recovery.Nodup) {i j : ℕ} (hi : i < s.recovery.length)
    {src : ℕ} {blocks : Cm256Blocks}
    (hlen : (blocks.get (s.recoveryAt i)).block.length = (blocks.get src).block.length)
    (hj : j < s.recovery.length) (y : UInt8) :
    s.rows (muladdBlock (s.recoveryAt i) y src blocks) j
      = if j = i then s.rows blocks i + (⟨y⟩ : GF256) • data (blocks.get src).block
        else s.rows blocks j := by
  rw [rows, get_muladdBlock]
  by_cases h : j = i
  · subst h
    rw [if_pos rfl, if_pos rfl]
    exact data_muladdMem hlen y
  · rw [if_neg fun he => h (recoveryAt_inj hs hj hi he), if_neg h]
    rfl

/-- Column `j`, with the factors `c` where the pointer passes. -/
theorem column_eq (hs : s.recovery.Nodup) {size j : ℕ} (hj : j < s.recovery.length)
    (matrix : ℤ → UInt8) (c : ℕ → GF256) {is : List ℕ} (hnodup : is.Nodup)
    (his : ∀ i ∈ is, i < s.recovery.length ∧ i ≠ j) {blocks : Cm256Blocks} {p : ℤ}
    (hsize : s.Sized size blocks)
    (hc : ∀ t (h : t < is.length), (⟨matrix (p + t)⟩ : GF256) = c (is.get ⟨t, h⟩)) :
    (s.column matrix j (blocks, p) is).2 = p + is.length ∧
      s.Alike blocks (s.column matrix j (blocks, p) is).1 ∧
      ∀ i < s.recovery.length, s.rows (s.column matrix j (blocks, p) is).1 i
        = if i ∈ is then s.rows blocks i + c i • s.rows blocks j else s.rows blocks i := by
  induction is generalizing blocks p with
  | nil => exact ⟨by simp [column], Alike.refl _, fun i _ => by simp [column]⟩
  | cons a is ih =>
      obtain ⟨ha, haj⟩ := his a (List.mem_cons_self ..)
      obtain ⟨hnot, hnodup⟩ := List.nodup_cons.mp hnodup
      have hlen : (blocks.get (s.recoveryAt a)).block.length
          = (blocks.get (s.recoveryAt j)).block.length := (hsize a ha).trans (hsize j hj).symm
      have hfirst : (⟨matrix p⟩ : GF256) = c a := by simpa using hc 0 (by simp)
      have halike := muladdBlock_alike (recoveryAt_mem ha) hlen (matrix p)
      have hrow := fun i hi => rows_muladdBlock hs ha hlen (j := i) hi (matrix p)
      obtain ⟨hptr, hall, hrows⟩ := ih (p := p + 1) hnodup
        (fun i hi => his i (List.mem_cons_of_mem _ hi)) (halike.sized hsize) fun t ht => by
          have := hc (t + 1) (by simpa using ht)
          rwa [Nat.cast_succ, add_comm (t : ℤ) 1, ← add_assoc] at this
      refine ⟨?_, halike.trans hall, fun i hi => ?_⟩
      · exact hptr.trans (by rw [List.length_cons]; push_cast; ring)
      · refine (hrows i hi).trans ?_
        rw [hrow i hi, hrow j hj, if_neg haj.symm]
        by_cases hia : i = a
        · subst hia
          rw [if_neg hnot, if_pos rfl, if_pos (List.mem_cons_self ..), hfirst]
          rfl
        · rw [if_neg hia]
          exact if_congr (by simp [hia]) rfl rfl

/-! ## The sweeps -/

theorem mem_after {j n i : ℕ} : i ∈ after j n ↔ j < i ∧ i < n := by
  rw [after, List.mem_range'_1]
  omega

variable {x : ℕ → UInt8} {ldu : Ldu} {size : ℕ}

/-- The lower triangle is the sweep forward. -/
theorem eliminateLower_eq (hs : s.recovery.Nodup)
    (hldu : Decomposed s.recovery.length x s.erasuresIndices s.x_0 ldu) {blocks : Cm256Blocks}
    (hsize : s.Sized size blocks) {j : ℕ} (hj : j < s.recovery.length) :
    let m := s.eliminateLower (fun p => ldu.matrix_L.getD p.toNat 0) blocks j
    m.2 = startL s.recovery.length j ∧ s.Alike blocks m.1 ∧ ∀ i < s.recovery.length,
      s.rows m.1 i
        = forward (lower (complement x s.erasuresIndices s.x_0)) j (s.rows blocks) i := by
  induction j with
  | zero => exact ⟨rfl, Alike.refl _, fun _ _ => rfl⟩
  | succ j ih =>
      obtain ⟨hptr, halike, hrows⟩ := ih (by omega)
      have hjn : j < s.recovery.length := by omega
      rw [eliminateLower]
      generalize s.eliminateLower _ blocks j = m at hptr halike hrows
      obtain ⟨m, p⟩ := m
      dsimp only at hptr halike hrows
      subst hptr
      have hlen : (after j s.recovery.length).length = s.recovery.length - (j + 1) :=
        List.length_range'
      obtain ⟨hptr', halike', hrows'⟩ := column_eq hs hjn
        (fun p => ldu.matrix_L.getD p.toNat 0)
        (fun i => lower (complement x s.erasuresIndices s.x_0) i j)
        (show (after j s.recovery.length).Nodup from List.nodup_range')
        (fun i hi => ⟨(mem_after.mp hi).2, (mem_after.mp hi).1.ne'⟩) (halike.sized hsize)
        (p := startL s.recovery.length j) fun t ht => by
          have hget : (after j s.recovery.length).get ⟨t, ht⟩ = j + 1 + t := by
            simp [after, List.getElem_range']
          have hlow := hldu.lower j (j + 1 + t) (by omega) (by omega)
          rw [Nat.add_sub_cancel_left] at hlow
          rw [hget, ← hlow, ← Nat.cast_add, Int.toNat_natCast]
      refine ⟨hptr'.trans ?_, halike.trans halike', fun i hi => (hrows' i hi).trans ?_⟩
      · rw [hlen, startL]
        push_cast
        rfl
      · show _ = below _ j (forward _ j (s.rows blocks)) i
        rw [below, sub_eq_add, hrows i hi, hrows j hjn]
        exact if_congr (mem_after.trans (and_iff_left hi)) rfl rfl

/-- The upper triangle is the sweep backward. -/
theorem eliminateUpper_eq (hs : s.recovery.Nodup)
    (hldu : Decomposed s.recovery.length x s.erasuresIndices s.x_0 ldu) {j : ℕ}
    (hj : j < s.recovery.length) {blocks : Cm256Blocks} (hsize : s.Sized size blocks)
    {r : ℕ → ℕ → GF256} (hr : ∀ i < s.recovery.length, s.rows blocks i = r i) :
    let m := s.eliminateUpper ldu.matrix_U j (blocks, tri (s.recovery.length - 1) - tri j)
    s.Alike blocks m.1 ∧ ∀ i < s.recovery.length,
      s.rows m.1 i = backward (upper (complement x s.erasuresIndices s.x_0)) (j + 1) r i := by
  induction j generalizing blocks r with
  | zero => exact ⟨Alike.refl _, fun i hi => hr i hi⟩
  | succ j ih =>
      obtain ⟨hptr, halike, hrows⟩ := column_eq hs hj ldu.matrix_U
        (fun i => upper (complement x s.erasuresIndices s.x_0) i (j + 1))
        (List.nodup_reverse.mpr (List.nodup_range (n := j + 1)))
        (fun i hi => by rw [List.mem_reverse, List.mem_range] at hi; omega) hsize
        (p := tri (s.recovery.length - 1) - tri (j + 1)) fun t ht => by
          have htj : t < j + 1 := by simpa using ht
          have hget : (List.range (j + 1)).reverse.get ⟨t, ht⟩ = j - t := by
            simp [List.getElem_reverse]
          have hplace : place s.recovery.length (j - t) (j + 1)
              = tri (s.recovery.length - 1) - tri (j + 1) + t := by
            rw [place]
            push_cast
            omega
          rw [hget, ← hldu.upper (j - t) (j + 1) (by omega) hj, hplace]
      have hp : tri (s.recovery.length - 1) - tri (j + 1)
          + ((List.range (j + 1)).reverse.length : ℤ) = tri (s.recovery.length - 1) - tri j := by
        rw [List.length_reverse, List.length_range, tri_succ]
        push_cast
        ring
      rw [hp] at hptr
      rw [eliminateUpper]
      generalize s.column ldu.matrix_U (j + 1) _ _ = m at hptr halike hrows
      obtain ⟨m, p⟩ := m
      dsimp only at hptr halike hrows
      subst hptr
      obtain ⟨halike', hrows'⟩ := ih (by omega) (halike.sized hsize)
        (r := above (upper (complement x s.erasuresIndices s.x_0)) (j + 1) r) fun i hi => by
          rw [hrows i hi, hr i hi, hr _ hj, above, sub_eq_add]
          exact if_congr (by simp) rfl rfl
      exact ⟨halike.trans halike', hrows'⟩

/-- The diagonal divides the rows, and names the rows they will be. -/
structure Divided (s : CM256Decoder) (d : ℕ → GF256) (k : ℕ) (a b : Cm256Blocks) : Prop where
  length : ∀ q, (b.get q).block.length = (a.get q).block.length
  other : ∀ q, q ∉ s.recovery → b.get q = a.get q
  rows : ∀ i < s.recovery.length, s.rows b i = if i < k then (d i)⁻¹ • s.rows a i else s.rows a i
  index : ∀ i < k, (b.get (s.recoveryAt i)).index = s.erasuresIndices i

theorem eliminateDiagonal_divided (hs : s.recovery.Nodup) (diag_D : ℕ → UInt8)
    (blocks : Cm256Blocks) {k : ℕ} (hk : k ≤ s.recovery.length) :
    Divided s (fun i => ⟨diag_D i⟩) k blocks (s.eliminateDiagonal diag_D blocks k) := by
  induction k with
  | zero =>
      exact ⟨fun _ => rfl, fun _ _ => rfl, fun i _ => (if_neg (Nat.not_lt_zero i)).symm,
        fun i hi => absurd hi (Nat.not_lt_zero i)⟩
  | succ k ih =>
      have h := ih (by omega)
      rw [eliminateDiagonal]
      generalize s.eliminateDiagonal diag_D blocks k = m at h
      have hne : ∀ i, i < s.recovery.length → i ≠ k → s.recoveryAt i ≠ s.recoveryAt k :=
        fun i hi hik he => hik (recoveryAt_inj hs hi (by omega) he)
      refine ⟨fun q => ?_, fun q hq => ?_, fun i hi => ?_, fun i hi => ?_⟩
      · rw [Cm256Blocks.get_set]
        split
        · subst q
          rw [length_divMem]
          exact h.length _
        · exact h.length q
      · rw [Cm256Blocks.get_set]
        exact (if_neg fun he : q = s.recoveryAt k => hq (he ▸ recoveryAt_mem (by omega))).trans
          (h.other q hq)
      · have hrow := h.rows i hi
        rw [CM256Decoder.rows, Cm256Blocks.get_set]
        by_cases hik : i = k
        · subst hik
          rw [if_neg (Nat.lt_irrefl i)] at hrow
          rw [if_pos rfl, if_pos (Nat.lt_succ_self i), data_divMem, ← hrow]
          rfl
        · rw [if_neg (hne i hi hik)]
          exact hrow.trans (if_congr (by omega) rfl rfl)
      · rw [Cm256Blocks.get_set]
        by_cases hik : i = k
        · subst hik
          rw [if_pos rfl]
        · rw [if_neg (hne i (by omega) hik)]
          exact h.index i (by omega)

/-! ## The original blocks are taken out -/

/-- The multiple of an original block that is in a recovery block. -/
def share (s : CM256Decoder) (blocks : Cm256Blocks) (q o : ℕ) : ℕ → GF256 :=
  (⟨getMatrixElement (blocks.get q).index s.x_0 (blocks.get o).index⟩ : GF256) •
    data (blocks.get o).block

theorem Alike.share_eq {a b : Cm256Blocks} (h : s.Alike a b) {o : ℕ} (ho : o ∉ s.recovery) (q : ℕ) :
    s.share b q o = s.share a q o := by
  rw [share, share, h.index q, h.other o ho]

/-- The places of the recovery blocks and of the original ones. -/
structure Laid (s : CM256Decoder) (size : ℕ) (blocks : Cm256Blocks) : Prop where
  nodup : s.recovery.Nodup
  apart : ∀ o ∈ s.original, o ∉ s.recovery
  recovery : ∀ q ∈ s.recovery, (blocks.get q).block.length = size
  original : ∀ o ∈ s.original, (blocks.get o).block.length = size

theorem Laid.alike {a b : Cm256Blocks} (h : s.Laid size a) (hab : s.Alike a b) : s.Laid size b where
  nodup := h.nodup
  apart := h.apart
  recovery q hq := (hab.length q).trans (h.recovery q hq)
  original o ho := (hab.length o).trans (h.original o ho)

theorem Laid.sized {blocks : Cm256Blocks} (h : s.Laid size blocks) : s.Sized size blocks :=
  fun _ hi => h.recovery _ (recoveryAt_mem hi)

/-- One original block. -/
theorem takeOut_eq {blocks : Cm256Blocks} (h : s.Laid size blocks) {o : ℕ} (ho : o ∈ s.original) :
    s.Alike blocks (s.takeOut blocks o) ∧ ∀ q ∈ s.recovery,
      data ((s.takeOut blocks o).get q).block = data (blocks.get q).block + s.share blocks q o := by
  suffices hall : ∀ (rs : List ℕ) (b : Cm256Blocks), rs.Nodup → (∀ q ∈ rs, q ∈ s.recovery) →
      s.Alike blocks b →
      let m := rs.foldl (fun b q =>
        muladdBlock q (getMatrixElement (b.get q).index s.x_0 (blocks.get o).index) o b) b
      s.Alike blocks m ∧ ∀ q, data (m.get q).block
        = if q ∈ rs then data (b.get q).block + s.share blocks q o else data (b.get q).block by
    obtain ⟨halike, hdata⟩ := hall s.recovery blocks h.nodup (fun _ hq => hq) (Alike.refl _)
    exact ⟨halike, fun q hq => (hdata q).trans (if_pos hq)⟩
  intro rs
  induction rs with
  | nil => exact fun b _ _ hb => ⟨hb, fun q => by simp⟩
  | cons r rs ih =>
      intro b hnodup hmem hb
      obtain ⟨hnot, hnodup⟩ := List.nodup_cons.mp hnodup
      have hr : r ∈ s.recovery := hmem r (List.mem_cons_self ..)
      have hlaid := h.alike hb
      have hlen : (b.get r).block.length = (b.get o).block.length :=
        (hlaid.recovery r hr).trans (hlaid.original o ho).symm
      have hshare : s.share blocks r o
          = (⟨getMatrixElement (b.get r).index s.x_0 (blocks.get o).index⟩ : GF256) •
            data (b.get o).block := by
        rw [share, hb.index r, hb.other o (h.apart o ho)]
      obtain ⟨halike, hdata⟩ := ih _ hnodup (fun q hq => hmem q (List.mem_cons_of_mem _ hq))
        (hb.trans (muladdBlock_alike hr hlen
          (getMatrixElement (b.get r).index s.x_0 (blocks.get o).index)))
      refine ⟨halike, fun q => (hdata q).trans ?_⟩
      rw [get_muladdBlock]
      by_cases hqr : q = r
      · subst hqr
        rw [if_neg hnot, if_pos rfl, if_pos (List.mem_cons_self ..), hshare]
        exact data_muladdMem hlen _
      · rw [if_neg hqr]
        exact if_congr (by simp [hqr]) rfl rfl

/-- All of them. -/
theorem foldl_takeOut_eq {blocks : Cm256Blocks} (h : s.Laid size blocks) {os : List ℕ}
    (hos : ∀ o ∈ os, o ∈ s.original) :
    s.Alike blocks (os.foldl s.takeOut blocks) ∧ ∀ q ∈ s.recovery,
      data ((os.foldl s.takeOut blocks).get q).block
        = data (blocks.get q).block + (os.map (s.share blocks q)).sum := by
  induction os generalizing blocks with
  | nil => exact ⟨Alike.refl _, fun q _ => by simp⟩
  | cons o os ih =>
      obtain ⟨halike, hdata⟩ := takeOut_eq h (hos o (List.mem_cons_self ..))
      obtain ⟨halike', hdata'⟩ := ih (h.alike halike) fun o' ho' =>
        hos o' (List.mem_cons_of_mem _ ho')
      refine ⟨halike.trans halike', fun q hq => (hdata' q hq).trans ?_⟩
      have hshares : os.map (s.share (s.takeOut blocks o) q) = os.map (s.share blocks q) :=
        List.map_congr_left fun o' ho' =>
          halike.share_eq (h.apart o' (hos o' (List.mem_cons_of_mem _ ho'))) q
      rw [hdata q hq, hshares, List.map_cons, List.sum_cons, add_assoc]

/-! ## Blocks of any sizes -/

/-- The first `k` recovery blocks bear the rows of the first `k` erasures. -/
structure Labelled (s : CM256Decoder) (k : ℕ) (a b : Cm256Blocks) : Prop where
  other : ∀ q, q ∉ s.recovery → b.get q = a.get q
  index : ∀ i < k, (b.get (s.recoveryAt i)).index = s.erasuresIndices i

theorem foldl_framed {α : Type*} {f : Cm256Blocks → α → Cm256Blocks} {l : List α}
    (hf : ∀ a ∈ l, ∀ b, s.Framed b (f b a)) (blocks : Cm256Blocks) :
    s.Framed blocks (l.foldl f blocks) := by
  induction l generalizing blocks with
  | nil => exact Framed.refl blocks
  | cons a l ih =>
      exact (hf a (List.mem_cons_self ..) blocks).trans
        (ih (fun a' ha' => hf a' (List.mem_cons_of_mem _ ha')) _)

theorem takeOut_framed (blocks : Cm256Blocks) (o : ℕ) : s.Framed blocks (s.takeOut blocks o) :=
  foldl_framed (fun _ hq _ => setBlock_framed hq _ _) blocks

theorem column_framed {is : List ℕ} (his : ∀ i ∈ is, i < s.recovery.length) (matrix : ℤ → UInt8)
    (j : ℕ) (m : Cm256Blocks × ℤ) : s.Framed m.1 (s.column matrix j m is).1 := by
  induction is generalizing m with
  | nil => exact Framed.refl m.1
  | cons a is ih =>
      have hfirst : s.Framed m.1 (muladdBlock (s.recoveryAt a) (matrix m.2) (s.recoveryAt j) m.1) :=
        setBlock_framed (recoveryAt_mem (his a (List.mem_cons_self ..))) m.1 _
      exact hfirst.trans (ih (fun i hi => his i (List.mem_cons_of_mem _ hi)) (_, m.2 + 1))

theorem eliminateLower_framed (matrix_L : ℤ → UInt8) (blocks : Cm256Blocks) (j : ℕ) :
    s.Framed blocks (s.eliminateLower matrix_L blocks j).1 := by
  induction j with
  | zero => exact Framed.refl blocks
  | succ j ih => exact ih.trans (column_framed (fun _ hi => (mem_after.mp hi).2) matrix_L j _)

theorem eliminateUpper_framed (matrix_U : ℤ → UInt8) {j : ℕ} (hj : j < s.recovery.length)
    (m : Cm256Blocks × ℤ) : s.Framed m.1 (s.eliminateUpper matrix_U j m).1 := by
  induction j generalizing m with
  | zero => exact Framed.refl m.1
  | succ j ih =>
      have hcol : s.Framed m.1 (s.column matrix_U (j + 1) m (List.range (j + 1)).reverse).1 :=
        column_framed (fun i hi => by rw [List.mem_reverse, List.mem_range] at hi; omega) matrix_U
          (j + 1) m
      exact hcol.trans (ih (by omega) _)

/-- **`Decode` puts the erasures in the place of the recovery blocks**,
whatever these hold. -/
theorem decode_labelled (hs : s.recovery.Nodup) (hn : 0 < s.recovery.length) (fresh : ℕ → UInt8)
    (blocks : Cm256Blocks) :
    s.Labelled s.recovery.length blocks (s.decode fresh blocks) := by
  have htake : s.Framed blocks (s.original.foldl s.takeOut blocks) :=
    foldl_framed (fun o _ b => takeOut_framed b o) blocks
  rw [decode]
  generalize s.original.foldl s.takeOut blocks = b at htake
  generalize generateLDUDecomposition fresh s.recovery.length _ s.erasuresIndices s.x_0 = ldu
  have hlow := eliminateLower_framed (s := s) (fun p => ldu.matrix_L.getD p.toNat 0) b
    (s.recovery.length - 1)
  generalize (s.eliminateLower (fun p => ldu.matrix_L.getD p.toNat 0) b (s.recovery.length - 1)).1 = m
    at hlow ⊢
  have hdiv := eliminateDiagonal_divided hs ldu.diag_D m le_rfl
  generalize s.eliminateDiagonal ldu.diag_D m s.recovery.length = d at hdiv
  have hup := eliminateUpper_framed (s := s) ldu.matrix_U (j := s.recovery.length - 1) (by omega)
    (d, 0)
  refine ⟨fun q hq => ?_, fun i hi => (hup.index _).trans (hdiv.index i hi)⟩
  rw [hup.other q hq, hdiv.other q hq, hlow.other q hq, htake.other q hq]

/-! ## The whole -/

theorem complement_zero (x y : ℕ → UInt8) (x_0 : UInt8) (i j : ℕ) :
    complement x y x_0 0 i j = ⟨getMatrixElement (x i) x_0 (y j)⟩ := by
  have hadd : scale x_0 y j = (⟨Gf256Ctx.add (y j) x_0⟩ : GF256) := by
    rw [scale, GF256.mk_add, add_comm]
  rw [getMatrixElement, GF256.mk_div, ← hadd]
  simp only [complement, cauchy, rowGen, colGen, one_mul]
  rfl

/-- **`Decode` solves the system** that the original blocks leave: the
unknowns take the places of the recovery blocks. -/
theorem decode_solves {blocks : Cm256Blocks} (h : s.Laid size blocks)
    (hn : 0 < s.recovery.length)
    (hx : Apart (elems fun i => (blocks.get (s.recoveryAt i)).index) (elems s.erasuresIndices)
      (scale s.x_0 s.erasuresIndices) s.recovery.length)
    {z : ℕ → ℕ → GF256}
    (hz : ∀ i < s.recovery.length,
      s.rows blocks i + (s.original.map (s.share blocks (s.recoveryAt i))).sum
        = ∑ j ∈ Finset.range s.recovery.length,
          complement (fun i => (blocks.get (s.recoveryAt i)).index) s.erasuresIndices s.x_0 0 i j •
            z j)
    (fresh : ℕ → UInt8) {i : ℕ} (hi : i < s.recovery.length) :
    ((s.decode fresh blocks).get (s.recoveryAt i)).block.length = size ∧
      s.rows (s.decode fresh blocks) i = z i := by
  obtain ⟨halike, hdata⟩ := foldl_takeOut_eq h fun _ ho => ho
  rw [decode]
  generalize s.original.foldl s.takeOut blocks = b at halike hdata
  have hindex : (fun i => (b.get (s.recoveryAt i)).index)
      = fun i => (blocks.get (s.recoveryAt i)).index := funext fun i => halike.index _
  rw [hindex]
  generalize (fun i => (blocks.get (s.recoveryAt i)).index) = x at hx hz
  have hldu := generate_decomposed fresh hx hn
  generalize generateLDUDecomposition fresh s.recovery.length x s.erasuresIndices s.x_0 = ldu at hldu
  have hlast : s.recovery.length - 1 < s.recovery.length := by omega
  have hend : s.recovery.length - 1 + 1 = s.recovery.length := by omega
  have hrows : ∀ i < s.recovery.length, s.rows b i = ∑ j ∈ Finset.range s.recovery.length,
      complement x s.erasuresIndices s.x_0 0 i j • z j := fun i hi =>
    (hdata _ (recoveryAt_mem hi)).trans (hz i hi)
  obtain ⟨-, hlow, hforward⟩ := eliminateLower_eq h.nodup hldu (h.alike halike).sized hlast
  generalize (s.eliminateLower (fun p => ldu.matrix_L.getD p.toNat 0) b (s.recovery.length - 1)).1 = m
    at hlow hforward ⊢
  have hdiv := eliminateDiagonal_divided h.nodup ldu.diag_D m le_rfl
  generalize s.eliminateDiagonal ldu.diag_D m s.recovery.length = d at hdiv
  have hsized : s.Sized size d := fun i hi =>
    (hdiv.length _).trans (((h.alike halike).alike hlow).sized i hi)
  obtain ⟨hup, hback⟩ := eliminateUpper_eq h.nodup hldu hlast hsized
    (r := fun i => (complement x s.erasuresIndices s.x_0 i i i)⁻¹ •
      forward (lower (complement x s.erasuresIndices s.x_0)) s.recovery.length (s.rows b) i)
    fun i hi => by
      have hstop : forward (lower (complement x s.erasuresIndices s.x_0)) s.recovery.length
          (s.rows b) i = s.rows m i := by
        rw [← hend, hforward i hi, forward, below, if_neg (by omega)]
      rw [hdiv.rows i hi, if_pos hi, hldu.diag i hi, hstop]
  rw [sub_self, hend] at hback
  rw [sub_self] at hup
  constructor
  · rw [hup.length]
    exact hsized i hi
  · rw [hback i hi]
    exact hx.complements.solve hrows hi

end CM256Decoder

end Tgvoip
