import Tgvoip.Video.CM256Rows
import Tgvoip.Video.CM256Sweeps

/-!
# CM256Decode — any original count of blocks is enough

What `cm256_encode` writes are the sums of the multiples of the original
blocks that the elements of the matrix give. `cm256_decode` gets them all
back from any `OriginalCount` of the blocks with different indices, in any
order and whatever the memory it works in held (`decode_recovers`).
-/

namespace Tgvoip

open ByteReader (Bytes)
open Finset (range)
open Elimination
open Gf256Ctx (mul add getMatrixElement addMem add2Mem addsetMem mulMem muladdMem divMem multiple)

namespace CM256

open CM256Decoder (data data_addMem data_muladdMem data_multiple length_addMem length_muladdMem)

/-! ## Sums -/

theorem sum_range_eq {V : Type*} [AddCommMonoid V] (f : ℕ → V) (n : ℕ) :
    ∑ t ∈ range n, f t = ((List.range n).map f).sum := by
  induction n with
  | zero => rfl
  | succ n ih => rw [Finset.sum_range_succ, ih, List.range_succ]; simp

theorem sum_map_getD {V : Type*} [AddCommMonoid V] (f : ℕ → V) (l : List ℕ) :
    ∑ j ∈ range l.length, f (l.getD j 0) = (l.map f).sum := by
  induction l with
  | nil => rfl
  | cons a l ih =>
      rw [List.length_cons, Finset.sum_range_succ', List.map_cons, List.sum_cons, ← ih, add_comm]
      rfl

/-! ## Encoding -/

theorem ofInt_natCast {n : ℕ} (h : n < 256) : UInt8.ofInt n = UInt8.ofNat n := by
  have hmod : ((n : ℤ) % 2 ^ 8).toNat = n := by omega
  rw [UInt8.ofInt, hmod]

theorem mk_inj {i j : ℕ} (hi : i < 256) (hj : j < 256)
    (h : (⟨UInt8.ofNat i⟩ : GF256) = ⟨UInt8.ofNat j⟩) : i = j := by
  have hbyte := congrArg (fun a : GF256 => a.byte.toNat) h
  simpa [UInt8.toNat_ofNat_of_lt' hi, UInt8.toNat_ofNat_of_lt' hj] using hbyte

/-- The multiple of row `t` in the recovery block of row `i`. -/
def term (originals : Cm256Blocks) (n i t : ℕ) : ℕ → GF256 :=
  (⟨getMatrixElement (UInt8.ofNat i) (UInt8.ofNat n) (UInt8.ofNat t)⟩ : GF256) •
    data (originals.get t).block

variable {originals : Cm256Blocks} {n i size : ℕ}

theorem element_eq (i n t : ℕ) :
    (⟨getMatrixElement (UInt8.ofNat i) (UInt8.ofNat n) (UInt8.ofNat t)⟩ : GF256)
      = (⟨UInt8.ofNat t⟩ + ⟨UInt8.ofNat n⟩) / (⟨UInt8.ofNat i⟩ + ⟨UInt8.ofNat t⟩) := by
  rw [getMatrixElement, GF256.mk_div, GF256.mk_add, GF256.mk_add]

theorem add_ne_zero {i t : ℕ} (hi : i < 256) (ht : t < i) :
    (⟨UInt8.ofNat i⟩ + ⟨UInt8.ofNat t⟩ : GF256) ≠ 0 := fun h =>
  absurd (mk_inj hi (ht.trans hi) (sub_eq_zero.mp h)) ht.ne'

/-- The first row has ones only. -/
theorem element_first {t : ℕ} (hn : n < 256) (ht : t < n) :
    (⟨getMatrixElement (UInt8.ofNat n) (UInt8.ofNat n) (UInt8.ofNat t)⟩ : GF256) = 1 := by
  rw [element_eq, add_comm (⟨UInt8.ofNat t⟩ : GF256)]
  exact div_self (add_ne_zero hn ht)

/-- The others have none. -/
theorem element_ne_one {t : ℕ} (hi : i < 256) (hn : n < i) (ht : t < n) :
    getMatrixElement (UInt8.ofNat i) (UInt8.ofNat n) (UInt8.ofNat t) ≠ 1 := by
  intro h
  have hone : (⟨getMatrixElement (UInt8.ofNat i) (UInt8.ofNat n) (UInt8.ofNat t)⟩ : GF256) = 1 :=
    congrArg GF256.mk h
  rw [element_eq, div_eq_one_iff_eq (add_ne_zero hi (ht.trans hn)), add_comm] at hone
  exact absurd (mk_inj (hn.trans hi) hi (add_right_cancel hone)) hn.ne

/-- The parity is the sum. -/
theorem parity_eq (hsize : ∀ t < n, (originals.get t).block.length = size) {j : ℕ} (hj : j + 2 ≤ n) :
    (parity originals j).length = size ∧
      data (parity originals j) = ∑ t ∈ range (j + 2), data (originals.get t).block := by
  induction j with
  | zero =>
      have hlen : (originals.get 0).block.length = (originals.get 1).block.length :=
        (hsize 0 (by omega)).trans (hsize 1 (by omega)).symm
      refine ⟨(length_addMem hlen).trans (hsize 0 (by omega)), (data_addMem hlen).trans ?_⟩
      rw [Finset.sum_range_succ, Finset.sum_range_one]
  | succ j ih =>
      obtain ⟨hlen, hdata⟩ := ih (by omega)
      have hsame : (parity originals j).length = (originals.get (j + 2)).block.length :=
        hlen.trans (hsize (j + 2) (by omega)).symm
      refine ⟨(length_addMem hsame).trans hlen, (data_addMem hsame).trans ?_⟩
      rw [hdata, ← Finset.sum_range_succ]

/-- A product is the sum of the multiples, whatever the buffer held. -/
theorem product_eq (hsize : ∀ t < n, (originals.get t).block.length = size) (hi : i < 256)
    (hn : n < i) {recoveryBlock : Bytes} (hlen : recoveryBlock.length = size) {j : ℕ} (hj : j < n) :
    (product originals (UInt8.ofNat i) (UInt8.ofNat n) recoveryBlock j).length = size ∧
      data (product originals (UInt8.ofNat i) (UInt8.ofNat n) recoveryBlock j)
        = ∑ t ∈ range (j + 1), term originals n i t := by
  induction j with
  | zero =>
      have hfirst : product originals (UInt8.ofNat i) (UInt8.ofNat n) recoveryBlock 0
          = multiple (originals.get 0).block
            (getMatrixElement (UInt8.ofNat i) (UInt8.ofNat n) (UInt8.ofNat 0)) :=
        Gf256Ctx.mulMem_of_ne_one (hlen.trans (hsize 0 hj).symm) (element_ne_one hi hn hj)
      rw [hfirst, data_multiple, multiple, List.length_map, Finset.sum_range_one]
      exact ⟨hsize 0 hj, rfl⟩
  | succ j ih =>
      obtain ⟨hlast, hdata⟩ := ih (by omega)
      have hsame := hlast.trans (hsize (j + 1) hj).symm
      rw [product, length_muladdMem hsame, data_muladdMem hsame, hdata,
        Finset.sum_range_succ _ (j + 1)]
      exact ⟨hlast, rfl⟩

variable {params : Cm256EncoderParams}

/-- **A recovery block is the sum of the multiples.** -/
theorem encodeBlock_eq (hn : params.originalCount = n) (h2 : 2 ≤ n)
    (hsize : ∀ t < n, (originals.get t).block.length = size) (hi : i < 256) (hni : n ≤ i)
    {recoveryBlock : Bytes} (hlen : recoveryBlock.length = size) :
    (encodeBlock params originals i recoveryBlock).length = size ∧
      data (encodeBlock params originals i recoveryBlock)
        = ∑ t ∈ range n, term originals n i t := by
  have hone : ¬ (n : ℤ) = 1 := by omega
  rw [encodeBlock, hn, if_neg hone, Int.toNat_natCast, ofInt_natCast hi, ofInt_natCast (by omega)]
  by_cases hfirst : i = n
  · have hend : n - 2 + 2 = n := by omega
    subst hfirst
    obtain ⟨hsame, hdata⟩ := parity_eq hsize (j := i - 2) (by omega)
    rw [if_pos rfl, hdata, hend]
    refine ⟨hsame, Finset.sum_congr rfl fun t ht => ?_⟩
    rw [term, element_first hi (Finset.mem_range.mp ht), one_smul]
  · have hend : n - 1 + 1 = n := by omega
    rw [if_neg (by omega)]
    have hprod := product_eq hsize hi (by omega) hlen (j := n - 1) (by omega)
    rwa [hend] at hprod

/-- One of the blocks in what `cm256_encode` wrote. -/
def recoveryBlock (params : Cm256EncoderParams) (recoveryBlocks : Bytes) (r : ℕ) : Bytes :=
  (recoveryBlocks.drop (r * params.blockBytes.toNat)).take params.blockBytes.toNat

/-- Every block is written where it belongs. -/
theorem recoveryBlock_encodeBlocks {m : ℕ} (hbytes : params.blockBytes = size)
    (hlength : ∀ k < m, ∀ buf : Bytes, buf.length = size →
      (encodeBlock params originals (params.originalCount + k) buf).length = size)
    {rounds k r : ℕ} (hr : r < rounds) (hm : k + rounds ≤ m) {b : Bytes}
    (hbuf : b.length = rounds * size) :
    ∃ old : Bytes, old.length = size ∧
      recoveryBlock params (encodeBlocks params originals rounds k b) r
        = encodeBlock params originals (params.originalCount + (k + r : ℕ)) old := by
  induction rounds generalizing k r b with
  | zero => omega
  | succ rounds ih =>
      have hold : (b.take size).length = size := by
        rw [List.length_take, hbuf, Nat.succ_mul]
        omega
      have hhead := hlength k (by omega) _ hold
      rw [encodeBlocks, recoveryBlock, hbytes, Int.toNat_natCast]
      cases r with
      | zero =>
          refine ⟨b.take size, hold, ?_⟩
          rw [Nat.zero_mul, List.drop_zero, List.take_append_of_le_length hhead.ge,
            List.take_of_length_le hhead.le, Nat.add_zero]
      | succ r =>
          obtain ⟨old, hlen, heq⟩ := ih (k := k + 1) (r := r) (b := b.drop size) (by omega)
            (by omega) (by rw [List.length_drop, hbuf, Nat.succ_mul]; omega)
          refine ⟨old, hlen, ?_⟩
          rw [recoveryBlock, hbytes, Int.toNat_natCast] at heq
          have hskip : (r + 1) * size
              = (encodeBlock params originals (params.originalCount + k) (b.take size)).length
                + r * size := by
            rw [hhead, Nat.succ_mul]
            omega
          have hindex : k + 1 + r = k + (r + 1) := by omega
          rw [hskip, ← List.drop_drop, List.drop_left, ← hindex]
          exact heq

end CM256

namespace CM256Decoder

open CM256 (sum_range_eq sum_map_getD ofInt_natCast mk_inj)

/-! ## One recovery block -/

variable {s : CM256Decoder} {size : ℕ}

/-- What is still to be added. -/
def pending (blocks : Cm256Blocks) : Option ℕ → ℕ → GF256
  | none => 0
  | some inBlock => data (blocks.get inBlock).block

theorem data_add2Mem {z x y : Bytes} (hzx : z.length = x.length) (hxy : x.length = y.length) :
    data (add2Mem z x y) = data z + (data x + data y) := by
  have hsum := data_addMem hxy
  have hlen : z.length = (addMem x y).length := by rw [length_addMem hxy, hzx]
  exact (data_addMem hlen).trans (by rw [hsum])

/-- The pairs, up to the block that is left over. -/
theorem foldl_addPair_eq {blocks : Cm256Blocks} (h : s.Laid size blocks) {out : ℕ}
    (hout : out ∈ s.recovery) {os : List ℕ} (hos : ∀ o ∈ os, o ∈ s.original) (left : Option ℕ)
    (hleft : ∀ o ∈ left, o ∈ s.original) :
    let m := os.foldl (addPair out) (blocks, left)
    s.Alike blocks m.1 ∧ (∀ o ∈ m.2, o ∈ s.original) ∧
      data (m.1.get out).block + pending m.1 m.2
        = data (blocks.get out).block + pending blocks left
          + (os.map fun o => data (blocks.get o).block).sum := by
  induction os generalizing blocks left with
  | nil => exact ⟨Alike.refl _, hleft, by simp⟩
  | cons o os ih =>
      have ho := hos o (List.mem_cons_self ..)
      have htail : ∀ o' ∈ os, o' ∈ s.original := fun o' ho' => hos o' (List.mem_cons_of_mem _ ho')
      rw [List.foldl_cons, List.map_cons, List.sum_cons]
      cases left with
      | none =>
          obtain ⟨halike, hm, hsum⟩ := ih h htail (some o) (by simpa using ho)
          refine ⟨halike, hm, hsum.trans ?_⟩
          rw [pending, pending, add_zero, add_assoc]
      | some inBlock =>
          have hin : inBlock ∈ s.original := hleft inBlock rfl
          have hzx := (h.recovery out hout).trans (h.original inBlock hin).symm
          have hxy := (h.original inBlock hin).trans (h.original o ho).symm
          have hstep : s.Alike blocks (setBlock blocks out (add2Mem (blocks.get out).block
              (blocks.get inBlock).block (blocks.get o).block)) :=
            setBlock_alike hout (by simp [add2Mem, hzx, hxy])
          have hdata : data ((setBlock blocks out (add2Mem (blocks.get out).block
              (blocks.get inBlock).block (blocks.get o).block)).get out).block
                = data (blocks.get out).block
                  + (data (blocks.get inBlock).block + data (blocks.get o).block) := by
            rw [setBlock, Cm256Blocks.get_set, if_pos rfl]
            exact data_add2Mem hzx hxy
          have hpair : addPair out (blocks, some inBlock) o = (setBlock blocks out (add2Mem
              (blocks.get out).block (blocks.get inBlock).block (blocks.get o).block), none) := rfl
          rw [hpair]
          generalize setBlock blocks out _ = b at hstep hdata ⊢
          obtain ⟨halike, hm, hsum⟩ := ih (h.alike hstep) htail none (by simp)
          refine ⟨hstep.trans halike, hm, hsum.trans ?_⟩
          have hkept : os.map (fun o' => data (b.get o').block)
              = os.map fun o' => data (blocks.get o').block :=
            List.map_congr_left fun o' ho' => by rw [hstep.other o' (h.apart o' (htail o' ho'))]
          rw [hkept, hdata, pending, pending, add_zero, add_assoc, add_assoc, add_assoc]

/-- The last block, where their number is odd. -/
theorem completeXors_eq {m : Cm256Blocks × Option ℕ} (h : s.Laid size m.1) {out : ℕ}
    (hout : out ∈ s.recovery) (hleft : ∀ o ∈ m.2, o ∈ s.original) :
    s.Alike m.1 (completeXors out m) ∧
      data ((completeXors out m).get out).block = data (m.1.get out).block + pending m.1 m.2 := by
  obtain ⟨blocks, left⟩ := m
  cases left with
  | none => exact ⟨Alike.refl _, (add_zero _).symm⟩
  | some inBlock =>
      have hlen := (h.recovery out hout).trans (h.original inBlock (hleft inBlock rfl)).symm
      have hset : completeXors out (blocks, some inBlock) = setBlock blocks out
        (addMem (blocks.get out).block (blocks.get inBlock).block) := rfl
      rw [hset]
      refine ⟨setBlock_alike hout (length_addMem hlen), ?_⟩
      rw [setBlock, Cm256Blocks.get_set, if_pos rfl]
      exact data_addMem hlen

theorem addPair_framed {out : ℕ} (hout : out ∈ s.recovery) (m : Cm256Blocks × Option ℕ) (o : ℕ) :
    s.Framed m.1 (addPair out m o).1 := by
  obtain ⟨blocks, left⟩ := m
  cases left with
  | none => exact Framed.refl blocks
  | some inBlock => exact setBlock_framed hout blocks _

theorem foldl_addPair_framed {out : ℕ} (hout : out ∈ s.recovery) (os : List ℕ)
    (m : Cm256Blocks × Option ℕ) : s.Framed m.1 (os.foldl (addPair out) m).1 := by
  induction os generalizing m with
  | nil => exact Framed.refl m.1
  | cons o os ih => exact (addPair_framed hout m o).trans (ih _)

theorem completeXors_framed {out : ℕ} (hout : out ∈ s.recovery) (m : Cm256Blocks × Option ℕ) :
    s.Framed m.1 (completeXors out m) := by
  obtain ⟨blocks, left⟩ := m
  cases left with
  | none => exact Framed.refl blocks
  | some inBlock => exact setBlock_framed hout blocks _

/-- `DecodeM1` fills in one erasure. -/
theorem decodeM1_labelled (hn : 0 < s.recovery.length) (blocks : Cm256Blocks) :
    s.Labelled 1 blocks (s.decodeM1 blocks) := by
  have hout := recoveryAt_mem hn
  have hpairs := foldl_addPair_framed hout s.original (blocks, none)
  have hxors := completeXors_framed hout (s.original.foldl (addPair (s.recoveryAt 0)) (blocks, none))
  refine ⟨fun q hq => ?_, fun i hi => ?_⟩
  · rw [decodeM1, Cm256Blocks.get_set, if_neg fun he : q = s.recoveryAt 0 => hq (he ▸ hout),
      hxors.other q hq, hpairs.other q hq]
  · obtain rfl : i = 0 := by omega
    rw [decodeM1, Cm256Blocks.get_set, if_pos rfl]

/-- **`DecodeM1` adds the original blocks to the recovery block.** -/
theorem decodeM1_eq {blocks : Cm256Blocks} (h : s.Laid size blocks) (hn : 0 < s.recovery.length) :
    ((s.decodeM1 blocks).get (s.recoveryAt 0)).block.length = size ∧
      data ((s.decodeM1 blocks).get (s.recoveryAt 0)).block
        = data (blocks.get (s.recoveryAt 0)).block
          + (s.original.map fun o => data (blocks.get o).block).sum := by
  have hout := recoveryAt_mem hn
  obtain ⟨halike, hleft, hsum⟩ := foldl_addPair_eq h hout (fun _ ho => ho) none (by simp)
  rw [decodeM1]
  generalize s.original.foldl (addPair (s.recoveryAt 0)) (blocks, none) = m at halike hleft hsum ⊢
  obtain ⟨halike', hdata⟩ := completeXors_eq (h.alike halike) hout hleft
  dsimp only
  generalize completeXors (s.recoveryAt 0) m = b at halike' hdata
  constructor
  · rw [Cm256Blocks.get_set, if_pos rfl]
    exact ((h.alike halike).alike halike').recovery _ hout
  · rw [Cm256Blocks.get_set, if_pos rfl, hdata, hsum, pending, add_zero]

/-! ## What arrived -/

/-- The row of a block. -/
def row (blocks : Cm256Blocks) (p : ℕ) : ℕ := (blocks.get p).index.toNat

theorem ofNat_row (blocks : Cm256Blocks) (p : ℕ) : UInt8.ofNat (row blocks p) = (blocks.get p).index :=
  UInt8.ofNat_toNat

section

variable {params : Cm256EncoderParams} {blocks : Cm256Blocks} {n : ℕ} (fresh : ℕ → UInt8)

theorem mem_recovery_started (hn : params.originalCount = n) {p : ℕ} :
    p ∈ (started params blocks fresh n).recovery ↔ p < n ∧ n ≤ row blocks p := by
  simp [started, scanned, IsOriginal, hn, row]

theorem recovery_started_nodup : (started params blocks fresh n).recovery.Nodup :=
  List.nodup_range.filter _

/-- The row of an erasure is missing. -/
theorem getD_missing_lt {j : ℕ} (hj : j < (missing blocks n).length) :
    (missing blocks n).getD j 0 < n := by
  rw [List.getD_eq_getElem _ _ hj]
  exact (mem_missing.mp (List.getElem_mem hj)).1

/-- **Where every recovery block bears an erasure, no row is left out.** -/
theorem exists_row (hn : params.originalCount = n) (hle : n ≤ 256)
    (hdiffer : ¬ Repeated params blocks n) {out : Cm256Blocks}
    (h : (started params blocks fresh n).Labelled (started params blocks fresh n).recovery.length
      blocks out) {j : ℕ} (hj : j < n) : ∃ p < n, row out p = j := by
  have hcount : (started params blocks fresh n).recovery.length = (missing blocks n).length :=
    length_recovery fresh hn hdiffer
  by_cases harrived : Arrived blocks n j
  · obtain ⟨p, hp, hrow⟩ := harrived
    have hkept : out.get p = blocks.get p := h.other p fun hr =>
      absurd ((mem_recovery_started fresh hn).mp hr).2 (by rw [row, hrow]; omega)
    exact ⟨p, hp, by rw [row, hkept]; exact hrow⟩
  · obtain ⟨i, hi, hij⟩ := List.getElem_of_mem (mem_missing.mpr ⟨hj, harrived⟩)
    have hplace := (mem_recovery_started fresh hn).mp (recoveryAt_mem (hcount ▸ hi))
    refine ⟨_, hplace.1, ?_⟩
    rw [row, h.index i (hcount ▸ hi), erasuresIndices_started fresh hn hle hdiffer hi,
      List.getD_eq_getElem _ _ hi, hij]
    exact UInt8.toNat_ofNat_of_lt' (by omega : j < 256)

/-- Recovery blocks that are all one are one. -/
theorem recovery_le_one (hone : ∀ p ∈ (started params blocks fresh n).recovery,
    ∀ q ∈ (started params blocks fresh n).recovery, p = q) :
    (started params blocks fresh n).recovery.length ≤ 1 := by
  by_contra hmany
  have hsame := hone _ (recoveryAt_mem (i := 0) (by omega)) _ (recoveryAt_mem (i := 1) (by omega))
  exact absurd (recoveryAt_inj (recovery_started_nodup fresh) (by omega) (by omega) hsame)
    (by decide)

end

/-- `n` blocks of an encoder, with different rows. -/
structure Enough (params : Cm256EncoderParams) (originals blocks : Cm256Blocks) (n size : ℕ) :
    Prop where
  count : params.originalCount = n
  two : 2 ≤ n
  small : n < 256
  sizes : ∀ t < n, (originals.get t).block.length = size
  kept : ∀ p < n, row blocks p < n → (blocks.get p).block = (originals.get (row blocks p)).block
  length : ∀ p < n, (blocks.get p).block.length = size
  sums : ∀ p < n, n ≤ row blocks p →
    data (blocks.get p).block = ∑ t ∈ range n, CM256.term originals n (row blocks p) t
  differ : ∀ p < n, ∀ q < n, row blocks p = row blocks q → p = q

namespace Enough

variable {params : Cm256EncoderParams} {originals blocks : Cm256Blocks} {n : ℕ}
  (h : Enough params originals blocks n size) (fresh : ℕ → UInt8)

include h

theorem isOriginal {p : ℕ} : IsOriginal params blocks p ↔ row blocks p < n := by
  rw [IsOriginal, h.count, row, Nat.cast_lt]

theorem not_repeated : ¬ Repeated params blocks n := by
  rintro ⟨q, hq, -, p, hpq, he⟩
  exact absurd (h.differ p (hpq.trans hq) q hq he) hpq.ne

theorem mem_recovery {p : ℕ} :
    p ∈ (started params blocks fresh n).recovery ↔ p < n ∧ n ≤ row blocks p :=
  mem_recovery_started fresh h.count

theorem mem_original {p : ℕ} :
    p ∈ (started params blocks fresh n).original ↔ p < n ∧ row blocks p < n := by
  simp [started, scanned, h.isOriginal]

theorem length_recovery :
    (started params blocks fresh n).recovery.length = (missing blocks n).length :=
  CM256Decoder.length_recovery fresh h.count h.not_repeated

theorem laid : (started params blocks fresh n).Laid size blocks where
  nodup := recovery_started_nodup fresh
  apart _ ho hr := absurd ((h.mem_original fresh).mp ho).2
    (Nat.not_lt.mpr ((h.mem_recovery fresh).mp hr).2)
  recovery q hq := h.length q ((h.mem_recovery fresh).mp hq).1
  original o ho := h.length o ((h.mem_original fresh).mp ho).1

theorem erasure {j : ℕ} (hj : j < (missing blocks n).length) :
    (started params blocks fresh n).erasuresIndices j = UInt8.ofNat ((missing blocks n).getD j 0) :=
  erasuresIndices_started fresh h.count h.small.le h.not_repeated hj

theorem x_0_eq : (started params blocks fresh n).x_0 = UInt8.ofNat n := by
  show UInt8.ofInt params.originalCount = _
  rw [h.count, ofInt_natCast h.small]

/-- What is left of a recovery block without the original blocks. -/
theorem left_over {p : ℕ} (hp : p < n) (hrow : n ≤ row blocks p) :
    data (blocks.get p).block
      + ((rowsKept params blocks n).map (CM256.term originals n (row blocks p))).sum
      = ((missing blocks n).map (CM256.term originals n (row blocks p))).sum := by
  have hperm := ((rows_perm h.count h.not_repeated).map
    (CM256.term originals n (row blocks p))).sum_eq
  have htwice : ∀ u : ℕ → GF256, u + u = 0 := fun u => by rw [← sub_eq_add, sub_self]
  rw [h.sums p hp hrow, sum_range_eq, hperm, List.map_append, List.sum_append, add_right_comm,
    htwice, zero_add]

/-- The place of a recovery block. -/
theorem recoveryAt_spec {i : ℕ} (hi : i < (started params blocks fresh n).recovery.length) :
    (started params blocks fresh n).recoveryAt i < n ∧
      n ≤ row blocks ((started params blocks fresh n).recoveryAt i) :=
  (h.mem_recovery fresh).mp (recoveryAt_mem hi)

theorem shares_eq {i : ℕ} :
    (started params blocks fresh n).original.map ((started params blocks fresh n).share blocks
        ((started params blocks fresh n).recoveryAt i))
      = (rowsKept params blocks n).map
        (CM256.term originals n (row blocks ((started params blocks fresh n).recoveryAt i))) := by
  have hkept : rowsKept params blocks n
      = (started params blocks fresh n).original.map (row blocks) := rfl
  rw [hkept, List.map_map]
  apply List.map_congr_left
  intro o ho
  obtain ⟨hon, hrow⟩ := (h.mem_original fresh).mp ho
  rw [Function.comp_apply, share, CM256.term, h.x_0_eq, ofNat_row, ofNat_row, h.kept o hon hrow]

end Enough

/-- The recovery blocks have become the missing blocks. -/
structure Refilled (s : CM256Decoder) (originals blocks out : Cm256Blocks) (n : ℕ) : Prop where
  other : ∀ q, q ∉ s.recovery → out.get q = blocks.get q
  found : ∀ i < s.recovery.length, out.get (s.recoveryAt i)
    = ⟨(originals.get ((missing blocks n).getD i 0)).block,
        UInt8.ofNat ((missing blocks n).getD i 0)⟩

theorem block_eq {b : Cm256Block} {bytes : Bytes} {index : UInt8}
    (hlen : b.block.length = bytes.length) (hdata : data b.block = data bytes)
    (hindex : b.index = index) : b = ⟨bytes, index⟩ := by
  rw [← data_inj hlen hdata, ← hindex]

namespace Enough

variable {params : Cm256EncoderParams} {originals blocks : Cm256Blocks} {n : ℕ}
  (h : Enough params originals blocks n size) (fresh : ℕ → UInt8)

include h

/-- Rows and columns of the system differ. -/
theorem apart :
    Apart (elems fun i => (blocks.get ((started params blocks fresh n).recoveryAt i)).index)
      (elems (started params blocks fresh n).erasuresIndices)
      (scale (started params blocks fresh n).x_0 (started params blocks fresh n).erasuresIndices)
      (started params blocks fresh n).recovery.length where
  rows i hi j hj he := by
    have hrow : row blocks ((started params blocks fresh n).recoveryAt i)
        = row blocks ((started params blocks fresh n).recoveryAt j) :=
      congrArg (fun a : GF256 => a.byte.toNat) he
    exact recoveryAt_inj (h.laid fresh).nodup hi hj
      (h.differ _ (h.recoveryAt_spec fresh hi).1 _ (h.recoveryAt_spec fresh hj).1 hrow)
  cols i hi j hj he := by
    rw [h.length_recovery fresh] at hi hj
    rw [elems, elems, h.erasure fresh hi, h.erasure fresh hj] at he
    have hsmall := h.small
    have hrow := mk_inj ((getD_missing_lt hi).trans hsmall) ((getD_missing_lt hj).trans hsmall) he
    rw [List.getD_eq_getElem _ _ hi, List.getD_eq_getElem _ _ hj] at hrow
    exact ((missing_nodup n).getElem_inj_iff).mp hrow
  cross i hi j hj he := by
    have hrow := (h.recoveryAt_spec fresh hi).2
    rw [h.length_recovery fresh] at hj
    have hlt := getD_missing_lt hj
    rw [elems, elems, h.erasure fresh hj, ← ofNat_row] at he
    have hequal : row blocks ((started params blocks fresh n).recoveryAt i) = _ :=
      mk_inj (UInt8.toNat_lt _) (hlt.trans h.small) he
    omega
  weights j hj := by
    rw [h.length_recovery fresh] at hj
    rw [scale, h.erasure fresh hj, h.x_0_eq]
    exact CM256.add_ne_zero h.small (getD_missing_lt hj)

theorem decode_refilled (hn : 0 < (started params blocks fresh n).recovery.length) :
    Refilled (started params blocks fresh n) originals blocks
      ((started params blocks fresh n).decode fresh blocks) n := by
  have hlabelled := decode_labelled (h.laid fresh).nodup hn fresh blocks
  have hfound := fun i hi => decode_solves (h.laid fresh) hn (h.apart fresh)
    (z := fun j => data (originals.get ((missing blocks n).getD j 0)).block) (fun i hi => by
      obtain ⟨hp, hrow⟩ := h.recoveryAt_spec fresh hi
      rw [h.shares_eq fresh]
      refine (h.left_over hp hrow).trans ?_
      rw [← sum_map_getD, ← h.length_recovery fresh]
      refine Finset.sum_congr rfl fun j hj => ?_
      have hj' := Finset.mem_range.mp hj
      rw [h.length_recovery fresh] at hj'
      rw [complement_zero, CM256.term, h.erasure fresh hj', h.x_0_eq, ofNat_row]) fresh (i := i) hi
  refine ⟨hlabelled.other, fun i hi => ?_⟩
  obtain ⟨hlen, hdata⟩ := hfound i hi
  have hi' := hi
  rw [h.length_recovery fresh] at hi'
  exact block_eq (hlen.trans (h.sizes _ (getD_missing_lt hi')).symm) hdata
    ((hlabelled.index i hi).trans (h.erasure fresh hi'))

/-- In the first row the multiples are the blocks. -/
theorem term_first {t : ℕ} (ht : t < n) :
    CM256.term originals n n t = data (originals.get t).block := by
  rw [CM256.term, CM256.element_first h.small ht, one_smul]

/-- Where all recovery blocks are of the first row, there is at most one. -/
theorem recovery_le_one (hone : ∀ p < n, row blocks p ≤ n) :
    (started params blocks fresh n).recovery.length ≤ 1 := by
  refine CM256Decoder.recovery_le_one fresh fun p hp q hq => ?_
  obtain ⟨hpn, hp⟩ := (h.mem_recovery fresh).mp hp
  obtain ⟨hqn, hq⟩ := (h.mem_recovery fresh).mp hq
  exact h.differ p hpn q hqn
    ((le_antisymm (hone p hpn) hp).trans (le_antisymm (hone q hqn) hq).symm)

theorem decodeM1_refilled (hn : 0 < (started params blocks fresh n).recovery.length)
    (hone : ∀ p < n, row blocks p ≤ n) :
    Refilled (started params blocks fresh n) originals blocks
      ((started params blocks fresh n).decodeM1 blocks) n := by
  have hlabelled := decodeM1_labelled hn blocks
  obtain ⟨hlen, hdata⟩ := decodeM1_eq (h.laid fresh) hn
  have hle := h.recovery_le_one fresh hone
  have hmissing := h.length_recovery fresh
  have hlast : 0 < (missing blocks n).length := hmissing ▸ hn
  obtain ⟨hp, hrow⟩ := h.recoveryAt_spec fresh hn
  have hfirst := le_antisymm (hone _ hp) hrow
  refine ⟨hlabelled.other, fun i hi => ?_⟩
  have hi0 : i = 0 := by omega
  subst hi0
  refine block_eq (hlen.trans (h.sizes _ (getD_missing_lt hlast)).symm) ?_
    ((hlabelled.index 0 Nat.one_pos).trans (h.erasure fresh hlast))
  have hkept : (started params blocks fresh n).original.map (fun o => data (blocks.get o).block)
      = (rowsKept params blocks n).map (CM256.term originals n n) := by
    show _ = ((started params blocks fresh n).original.map (row blocks)).map _
    rw [List.map_map]
    refine List.map_congr_left fun o ho => ?_
    obtain ⟨hon, ho'⟩ := (h.mem_original fresh).mp ho
    rw [Function.comp_apply, h.term_first ho', h.kept o hon ho']
  have hleft := h.left_over hp hrow
  have hcount : (missing blocks n).length = 1 := by omega
  rw [hfirst, ← sum_map_getD _ (missing blocks n), hcount, Finset.sum_range_one,
    h.term_first (getD_missing_lt hlast)] at hleft
  rw [hdata, hkept, hleft]

end Enough

end CM256Decoder

namespace CM256

open CM256Decoder

/-! ## The codes -/

variable {params : Cm256EncoderParams}

/-- Counts and a size. -/
def Positive (params : Cm256EncoderParams) : Prop :=
  0 < params.originalCount ∧ 0 < params.recoveryCount ∧ 0 < params.blockBytes

/-- Parameters that both calls accept. -/
structure Accepted (params : Cm256EncoderParams) : Prop where
  original : 0 < params.originalCount
  recovery : 0 < params.recoveryCount
  bytes : 0 < params.blockBytes
  total : params.originalCount + params.recoveryCount ≤ 256

/-- There are several original blocks, and one of them comes twice. -/
def Twice (params : Cm256EncoderParams) (blocks : Cm256Blocks) : Prop :=
  params.originalCount ≠ 1 ∧ Repeated params blocks params.originalCount.toNat

/-- What a code of zero says: the blocks with rows of original ones, and
those behind the array, are as they were. Every row has its place, unless
there is a single recovery row and it came more than once. -/
structure Relabelled (params : Cm256EncoderParams) (blocks out : Cm256Blocks) : Prop where
  kept : ∀ p : ℕ, IsOriginal params blocks p ∨ params.originalCount ≤ p → out.get p = blocks.get p
  rows : (params.originalCount = 1 ∨ params.recoveryCount ≠ 1 ∨
      ∀ p q : ℕ, p < params.originalCount → q < params.originalCount →
        ¬ IsOriginal params blocks p → ¬ IsOriginal params blocks q → p = q) →
    ∀ j : ℕ, j < params.originalCount → ∃! p : ℕ, p < params.originalCount ∧ row out p = j

/-- Rows that are all there are there once. -/
theorem existsUnique_row {blocks : Cm256Blocks} {n : ℕ} (h : ∀ j < n, ∃ p < n, row blocks p = j)
    {j : ℕ} (hj : j < n) : ∃! p : ℕ, p < n ∧ row blocks p = j := by
  choose g hg hrow using h
  let place : Fin n → Fin n := fun j => ⟨g j j.2, hg j j.2⟩
  have hinj : Function.Injective place := fun a b he => Fin.ext <|
    (hrow a a.2).symm.trans ((congrArg (fun p : Fin n => row blocks p) he).trans (hrow b b.2))
  refine ⟨g j hj, ⟨hg j hj, hrow j hj⟩, fun p ⟨hp, hpj⟩ => ?_⟩
  obtain ⟨a, ha⟩ := Finite.injective_iff_surjective.mp hinj ⟨p, hp⟩
  obtain rfl : g a a.2 = p := congrArg Fin.val ha
  obtain rfl : (a : ℕ) = j := (hrow a a.2).symm.trans hpj
  rfl

theorem relabelled_of_labelled {n k : ℕ} (hn : params.originalCount = n) (hle : n ≤ 256)
    {blocks out : Cm256Blocks} (hdiffer : ¬ Repeated params blocks n) (fresh : ℕ → UInt8)
    (h : (started params blocks fresh n).Labelled k blocks out)
    (hk : params.originalCount = 1 ∨ params.recoveryCount ≠ 1 ∨
      (started params blocks fresh n).recovery.length ≤ 1 →
        k = (started params blocks fresh n).recovery.length) :
    Relabelled params blocks out where
  kept p hp := h.other p fun hr => by
    obtain ⟨hpn, hrow⟩ := (mem_recovery_started fresh hn).mp hr
    rw [IsOriginal, hn, Nat.cast_lt, Nat.cast_le] at hp
    exact hp.elim (Nat.not_lt.mpr hrow) (Nat.not_le.mpr hpn)
  rows hone j hj := by
    simp only [hn, Nat.cast_lt] at hone hj ⊢
    have hall : k = (started params blocks fresh n).recovery.length := by
      rw [hn] at hk
      refine hk (hone.imp_right (Or.imp_right fun hone => recovery_le_one fresh fun p hp q hq => ?_))
      obtain ⟨hpn, hp⟩ := (mem_recovery_started fresh hn).mp hp
      obtain ⟨hqn, hq⟩ := (mem_recovery_started fresh hn).mp hq
      refine hone p q hpn hqn ?_ ?_ <;> rw [IsOriginal, hn, Nat.cast_lt, Nat.not_lt] <;> assumption
    subst hall
    exact existsUnique_row (fun j hj => exists_row fresh hn hle hdiffer h hj) hj

/-- Of one block only the row is written. -/
theorem relabelled_single (h1 : params.originalCount = 1) (blocks : Cm256Blocks) :
    Relabelled params blocks (blocks.set 0 { blocks.get 0 with index := 0 }) where
  kept p hp := by
    rw [Cm256Blocks.get_set]
    split
    · subst p
      rw [IsOriginal, h1] at hp
      have hindex : (blocks.get 0).index = 0 := UInt8.toNat_inj.mp (by simp; omega)
      rw [← hindex]
    · rfl
  rows _ j hj := by
    refine ⟨0, ⟨by omega, ?_⟩, fun p hp => by omega⟩
    rw [row, Cm256Blocks.get_set, if_pos rfl]
    simp
    omega

/-- Behind the checks a row that comes twice is the only failure. -/
theorem decodeBlocks_cases (h : Accepted params) (fresh : ℕ → UInt8) (blocks : Cm256Blocks) :
    (Twice params blocks ∧ decodeBlocks fresh params blocks = (-5, blocks)) ∨
      (¬ Twice params blocks ∧ ∃ out, Relabelled params blocks out ∧
        decodeBlocks fresh params blocks = (0, out)) := by
  obtain ⟨hpos, hrec, -, htotal⟩ := h
  rw [decodeBlocks, Twice]
  by_cases h1 : params.originalCount = 1
  · rw [if_pos h1]
    exact .inr ⟨fun h => h.1 h1, _, relabelled_single h1 blocks, rfl⟩
  obtain ⟨n, hn⟩ := Int.eq_ofNat_of_zero_le hpos.le
  have hcount : params.originalCount.toNat = n := by omega
  rw [if_neg h1, initializeDecoder_eq fresh hn, hcount]
  by_cases hrep : Repeated params blocks n
  · rw [if_pos hrep]
    exact .inl ⟨⟨h1, hrep⟩, rfl⟩
  rw [if_neg hrep]
  refine .inr ⟨fun h => hrep h.2, ?_⟩
  dsimp only
  have hlabels := fun {k : ℕ} {out : Cm256Blocks}
      (h : (started params blocks fresh n).Labelled k blocks out) =>
    relabelled_of_labelled hn (by omega) hrep fresh h
  by_cases hnone : (started params blocks fresh n).recovery.length = 0
  · rw [if_pos hnone]
    exact ⟨_, hlabels (k := 0) ⟨fun _ _ => rfl, fun i hi => absurd hi (by omega)⟩
      fun _ => hnone.symm, rfl⟩
  rw [if_neg hnone]
  by_cases hone : params.recoveryCount = 1
  · rw [if_pos hone]
    exact ⟨_, hlabels (decodeM1_labelled (by omega) blocks) fun hor => by omega, rfl⟩
  · rw [if_neg hone]
    exact ⟨_, hlabels (decode_labelled (recovery_started_nodup fresh) (by omega) fresh blocks)
      fun _ => rfl, rfl⟩

/-- Each input falls under one of six. -/
theorem decode_cases (fresh : ℕ → UInt8) (params : Cm256EncoderParams)
    (blocks : Option Cm256Blocks) :
    (¬ Positive params ∧ decode fresh params blocks = some (-1, blocks)) ∨
      (Positive params ∧ 2 ^ 31 ≤ params.originalCount + params.recoveryCount ∧
        decode fresh params blocks = none) ∨
      (Positive params ∧ 256 < params.originalCount + params.recoveryCount ∧
        params.originalCount + params.recoveryCount < 2 ^ 31 ∧
        decode fresh params blocks = some (-2, blocks)) ∨
      (Accepted params ∧ blocks = none ∧ decode fresh params blocks = some (-3, none)) ∨
      (Accepted params ∧ ∃ array, blocks = some array ∧ Twice params array ∧
        decode fresh params blocks = some (-5, some array)) ∨
      (Accepted params ∧ ∃ array out, blocks = some array ∧ ¬ Twice params array ∧
        Relabelled params array out ∧ decode fresh params blocks = some (0, some out)) := by
  rw [decode.eq_def, Positive]
  by_cases h1 : params.originalCount ≤ 0 ∨ params.recoveryCount ≤ 0 ∨ params.blockBytes ≤ 0
  · rw [if_pos h1]
    exact .inl ⟨by omega, rfl⟩
  refine .inr ?_
  have hpos : 0 < params.originalCount ∧ 0 < params.recoveryCount ∧ 0 < params.blockBytes := by omega
  rw [if_neg h1]
  by_cases hint : IsInt (params.originalCount + params.recoveryCount)
  · refine .inr ?_
    rw [if_neg (not_not_intro hint)]
    by_cases h2 : params.originalCount + params.recoveryCount > 256
    · rw [if_pos h2]
      exact .inl ⟨hpos, h2, hint.2, rfl⟩
    have haccepted : Accepted params := ⟨hpos.1, hpos.2.1, hpos.2.2, by omega⟩
    rw [if_neg h2]
    refine .inr ?_
    cases blocks with
    | none => exact .inl ⟨haccepted, rfl, rfl⟩
    | some array =>
        dsimp only
        rcases decodeBlocks_cases haccepted fresh array with ⟨htwice, heq⟩ | ⟨hno, out, hout, heq⟩
        · exact .inr (.inl ⟨haccepted, array, rfl, htwice, by rw [heq]; rfl⟩)
        · exact .inr (.inr ⟨haccepted, array, out, rfl, hno, hout, by rw [heq]; rfl⟩)
  · rw [if_pos hint]
    rw [IsInt] at hint
    exact .inl ⟨hpos, by omega, rfl⟩

/-- **What `cm256_decode` refuses**: parameters out of range, no array, and an
original row that comes twice among several. A recovery row that comes twice
is not refused. Two counts may be `int`s and their sum none. On any code
but zero nothing is changed, and on zero no block but those with recovery
rows. -/
theorem decode_code (fresh : ℕ → UInt8) (params : Cm256EncoderParams)
    (blocks : Option Cm256Blocks) :
    let code := (decode fresh params blocks).map Prod.fst
    (code = some (-1) ↔ ¬ Positive params) ∧
      (code = none ↔
        Positive params ∧ 2 ^ 31 ≤ params.originalCount + params.recoveryCount) ∧
      (code = some (-2) ↔ Positive params ∧ 256 < params.originalCount + params.recoveryCount ∧
        params.originalCount + params.recoveryCount < 2 ^ 31) ∧
      (code = some (-3) ↔ Accepted params ∧ blocks = none) ∧
      (code = some (-5) ↔ Accepted params ∧ ∃ array, blocks = some array ∧ Twice params array) ∧
      (code = some 0 ↔ Accepted params ∧ ∃ array, blocks = some array ∧ ¬ Twice params array) ∧
      (∀ c out, decode fresh params blocks = some (c, out) → c ≠ 0 → out = blocks) ∧
      ∀ array out, blocks = some array → decode fresh params blocks = some (0, out) →
        ∃ after, out = some after ∧ Relabelled params array after := by
  have haccepted : Accepted params ↔ Positive params ∧
      params.originalCount + params.recoveryCount ≤ 256 :=
    ⟨fun h => ⟨⟨h.original, h.recovery, h.bytes⟩, h.total⟩,
      fun ⟨⟨hpos, hrec, hbytes⟩, htotal⟩ => ⟨hpos, hrec, hbytes, htotal⟩⟩
  rcases decode_cases fresh params blocks with ⟨h, heq⟩ | ⟨h, hsum, heq⟩ | ⟨h, hlow, hhigh, heq⟩ |
    ⟨h, rfl, heq⟩ | ⟨h, array, rfl, htwice, heq⟩ | ⟨h, array, after, rfl, hno, hafter, heq⟩ <;>
    rw [heq]
  · simp [haccepted, h]
  · have hbig : ¬ params.originalCount + params.recoveryCount ≤ 256 := by omega
    simp [haccepted, h, hbig]
    omega
  · simp [haccepted, h, hlow]
    omega
  · have hpos := haccepted.mp h
    simp [hpos, h]
    omega
  · have hpos := haccepted.mp h
    simp [hpos, h, htwice]
    omega
  · have hpos := haccepted.mp h
    simp [hpos, h, hno, hafter]
    omega

/-! ## There and back -/

/-- One of the blocks to send: an original one, or one of those encoded. -/
def Sent (params : Cm256EncoderParams) (originals : Cm256Blocks) (recoveryBlocks : Bytes)
    (b : Cm256Block) : Prop :=
  (b.index.toNat < params.originalCount ∧ b.block = (originals.get b.index.toNat).block) ∨
    ∃ r : ℕ, r < params.recoveryCount ∧ b.index.toNat = params.originalCount + r ∧
      b.block = recoveryBlock params recoveryBlocks r

theorem Sent.original {originals : Cm256Blocks} {recoveryBlocks : Bytes} {b : Cm256Block}
    (h : Sent params originals recoveryBlocks b) (hrow : b.index.toNat < params.originalCount) :
    b.block = (originals.get b.index.toNat).block := by
  rcases h with ⟨-, hblock⟩ | ⟨r, -, hindex, -⟩
  · exact hblock
  · omega

theorem Sent.recovery {originals : Cm256Blocks} {recoveryBlocks : Bytes} {b : Cm256Block}
    (h : Sent params originals recoveryBlocks b) (hrow : params.originalCount ≤ b.index.toNat) :
    ∃ r : ℕ, r < params.recoveryCount ∧ b.index.toNat = params.originalCount + r ∧
      b.block = recoveryBlock params recoveryBlocks r := by
  rcases h with ⟨hindex, -⟩ | hadded
  · omega
  · exact hadded

/-- The first `n` blocks are the original ones, in some order; those that
were have stayed. -/
structure Recovered (originals blocks out : Cm256Blocks) (n : ℕ) : Prop where
  block : ∀ p < n, row out p < n ∧ (out.get p).block = (originals.get (row out p)).block
  all : ∀ j < n, ∃ p < n, row out p = j
  kept : ∀ p, row blocks p < n → out.get p = blocks.get p

/-- Every missing row is at the place of one recovery block. -/
theorem recovered_of_refilled {originals blocks out : Cm256Blocks} {n size : ℕ}
    (h : Enough params originals blocks n size) (fresh : ℕ → UInt8)
    (hout : Refilled (started params blocks fresh n) originals blocks out n) :
    Recovered originals blocks out n := by
  have hcount := h.length_recovery fresh
  have hkept : ∀ p, row blocks p < n → out.get p = blocks.get p := fun p hp =>
    hout.other p fun hr => absurd hp (Nat.not_lt.mpr ((h.mem_recovery fresh).mp hr).2)
  have hfound : ∀ i < (missing blocks n).length,
      row out ((started params blocks fresh n).recoveryAt i) = (missing blocks n).getD i 0 := by
    intro i hi
    rw [row, hout.found i (by omega)]
    exact UInt8.toNat_ofNat_of_lt' ((getD_missing_lt hi).trans h.small)
  refine ⟨fun p hp => ?_, fun j hj => ?_, hkept⟩
  · rcases Nat.lt_or_ge (row blocks p) n with hrow | hrow
    · rw [row, hkept p hrow]
      exact ⟨hrow, h.kept p hp hrow⟩
    · obtain ⟨i, hi, hip⟩ := List.getElem_of_mem ((h.mem_recovery fresh).mpr ⟨hp, hrow⟩)
      have hat : (started params blocks fresh n).recoveryAt i = p := by
        rw [recoveryAt, List.getD_eq_getElem _ _ hi, hip]
      have hmiss : row out p = (missing blocks n).getD i 0 := hat ▸ hfound i (by omega)
      rw [hmiss, ← hat, hout.found i hi]
      exact ⟨getD_missing_lt (by omega), rfl⟩
  · by_cases harrived : Arrived blocks n j
    · obtain ⟨p, hp, hrow⟩ := harrived
      have hlt : row blocks p < n := by rw [row, hrow]; exact hj
      exact ⟨p, hp, by rw [row, hkept p hlt]; exact hrow⟩
    · obtain ⟨i, hi, hij⟩ := List.getElem_of_mem (mem_missing.mpr ⟨hj, harrived⟩)
      refine ⟨_, (h.recoveryAt_spec fresh (by omega)).1, (hfound i hi).trans ?_⟩
      rw [List.getD_eq_getElem _ _ hi, hij]

variable {originals : Cm256Blocks} {recoveryBlocks : Bytes}

/-- A block that was encoded. -/
theorem exists_encodeBlock {n m size : ℕ} (hcount : params.originalCount = n)
    (hbytes : params.blockBytes = size) (hn : 0 < n) (htotal : n + m ≤ 256)
    (hsize : ∀ t < n, (originals.get t).block.length = size)
    (hbuffer : recoveryBlocks.length = m * size) {r : ℕ} (hr : r < m) :
    ∃ old : Bytes, old.length = size ∧
      recoveryBlock params (encodeBlocks params originals m 0 recoveryBlocks) r
        = encodeBlock params originals (n + r : ℕ) old := by
  have hlength : ∀ k < m, ∀ buf : Bytes, buf.length = size →
      (encodeBlock params originals (params.originalCount + k) buf).length = size := by
    intro k hk buf hbuf
    by_cases hone : n = 1
    · rw [encodeBlock, if_pos (by rw [hcount, hone]; rfl)]
      exact hsize 0 hn
    · rw [hcount, ← Nat.cast_add]
      exact (encodeBlock_eq hcount (by omega) hsize (by omega) (by omega) hbuf).1
  obtain ⟨old, hold, heq⟩ := recoveryBlock_encodeBlocks hbytes hlength hr (k := 0) (by omega) hbuffer
  rw [Nat.zero_add, hcount] at heq
  exact ⟨old, hold, heq⟩

theorem Accepted.isInt (h : Accepted params) :
    IsInt (params.originalCount + params.recoveryCount) := by
  obtain ⟨hpos, hrec, -, htotal⟩ := h
  constructor <;> omega

/-- What both calls do behind their checks. -/
theorem encode_accepted (h : Accepted params) (originals : Cm256Blocks) (recoveryBlocks : Bytes) :
    encode params (some originals) (some recoveryBlocks) = some (0, some
      (encodeBlocks params originals params.recoveryCount.toNat 0 recoveryBlocks)) := by
  have hint := h.isInt
  obtain ⟨hpos, hrec, hbytes, htotal⟩ := h
  rw [encode.eq_def, if_neg (by omega), if_neg (not_not_intro hint), if_neg (by omega)]

theorem decode_accepted (h : Accepted params) (fresh : ℕ → UInt8) (blocks : Cm256Blocks) :
    decode fresh params (some blocks)
      = some ((decodeBlocks fresh params blocks).map id some) := by
  have hint := h.isInt
  obtain ⟨hpos, hrec, hbytes, htotal⟩ := h
  rw [decode.eq_def, if_neg (by omega), if_neg (not_not_intro hint), if_neg (by omega)]

/-- One block, of which the others are copies. -/
theorem decodeBlocks_single {blocks : Cm256Blocks} (hcount : params.originalCount = 1)
    (hblock : (blocks.get 0).block = (originals.get 0).block) (fresh : ℕ → UInt8) :
    ∃ out, decodeBlocks fresh params blocks = (0, out) ∧ Recovered originals blocks out 1 := by
  have hfirst : ∀ p, p = 0 → (blocks.set 0 { blocks.get 0 with index := 0 }).get p
      = ⟨(blocks.get 0).block, 0⟩ := fun p hp => (Cm256Blocks.get_set ..).trans (if_pos hp)
  refine ⟨_, if_pos hcount, fun p hp => ?_, fun j hj => ⟨0, Nat.one_pos, ?_⟩, fun p hp => ?_⟩
  · rw [row, hfirst p (by omega)]
    exact ⟨Nat.one_pos, hblock⟩
  · rw [row, hfirst 0 rfl]
    exact (Nat.lt_one_iff.mp hj).symm
  · refine (relabelled_single hcount blocks).kept p (.inl ?_)
    rw [IsOriginal, hcount]
    exact_mod_cast hp

/-- At least two. -/
theorem decodeBlocks_enough {n size : ℕ} {blocks : Cm256Blocks}
    (h : Enough params originals blocks n size)
    (hrows : ∀ p < n, (row blocks p : ℤ) < n + params.recoveryCount) (fresh : ℕ → UInt8) :
    ∃ out, decodeBlocks fresh params blocks = (0, out) ∧ Recovered originals blocks out n := by
  have h2 := h.two
  have hcount := h.count
  rw [decodeBlocks, if_neg (by omega), initializeDecoder_eq fresh hcount, if_neg h.not_repeated]
  dsimp only
  by_cases hnone : (started params blocks fresh n).recovery.length = 0
  · rw [if_pos hnone]
    exact ⟨_, rfl, recovered_of_refilled h fresh
      ⟨fun _ _ => rfl, fun i hi => absurd hi (by omega)⟩⟩
  · rw [if_neg hnone]
    by_cases hone : params.recoveryCount = 1
    · rw [if_pos hone]
      exact ⟨_, rfl, recovered_of_refilled h fresh (h.decodeM1_refilled fresh (by omega) fun p hp => by
        have := hrows p hp
        omega)⟩
    · rw [if_neg hone]
      exact ⟨_, rfl, recovered_of_refilled h fresh (h.decode_refilled fresh (by omega))⟩

/-- **Any original count of different blocks is enough.** -/
theorem decode_recovers (h : Accepted params)
    (hsize : ∀ t < params.originalCount.toNat,
      ((originals.get t).block.length : ℤ) = params.blockBytes)
    (hbuffer : (recoveryBlocks.length : ℤ) = params.recoveryCount * params.blockBytes) :
    ∃ encoded, encode params (some originals) (some recoveryBlocks) = some (0, some encoded) ∧
      ∀ blocks : Cm256Blocks,
        (∀ p < params.originalCount.toNat, Sent params originals encoded (blocks.get p)) →
        (∀ p < params.originalCount.toNat, ∀ q < params.originalCount.toNat,
          (blocks.get p).index = (blocks.get q).index → p = q) →
        ∀ fresh : ℕ → UInt8, ∃ out,
          decode fresh params (some blocks) = some (0, some out) ∧
            Recovered originals blocks out params.originalCount.toNat := by
  refine ⟨_, encode_accepted h originals recoveryBlocks, fun blocks hsent hdiffer fresh => ?_⟩
  rw [decode_accepted h]
  suffices hout : ∃ out, decodeBlocks fresh params blocks = (0, out) ∧
      Recovered originals blocks out params.originalCount.toNat by
    obtain ⟨out, heq, hout⟩ := hout
    exact ⟨out, by rw [heq]; rfl, hout⟩
  obtain ⟨hn, hm, hpos, htotal⟩ := h
  obtain ⟨n, hcount⟩ := Int.eq_ofNat_of_zero_le hn.le
  obtain ⟨m, hrecovery⟩ := Int.eq_ofNat_of_zero_le hm.le
  obtain ⟨size, hbytes⟩ := Int.eq_ofNat_of_zero_le hpos.le
  simp only [hcount, hrecovery, hbytes, Int.toNat_natCast, Nat.cast_inj]
    at hsize hbuffer hsent hdiffer hn hm hpos htotal ⊢
  have hlen : recoveryBlocks.length = m * size := by exact_mod_cast hbuffer
  have hencoded : ∀ r < m, ∃ old : Bytes, old.length = size ∧
      recoveryBlock params (encodeBlocks params originals m 0 recoveryBlocks) r
        = encodeBlock params originals (n + r : ℕ) old := fun r hr =>
    exists_encodeBlock hcount hbytes (by omega) (by omega) hsize hlen hr
  have hkept : ∀ p < n, row blocks p < n →
      (blocks.get p).block = (originals.get (row blocks p)).block := fun p hp hrow =>
    (hsent p hp).original (hcount ▸ Nat.cast_lt.mpr hrow)
  have hadded : ∀ p < n, n ≤ row blocks p → ∃ r < m, row blocks p = n + r ∧
      (blocks.get p).block
        = recoveryBlock params (encodeBlocks params originals m 0 recoveryBlocks) r := by
    intro p hp hrow
    obtain ⟨r, hr, hindex, hblock⟩ := (hsent p hp).recovery (hcount ▸ Nat.cast_le.mpr hrow)
    exact ⟨r, by omega, by rw [row]; omega, hblock⟩
  by_cases hone : n = 1
  · subst hone
    refine decodeBlocks_single hcount ?_ fresh
    rcases Nat.lt_or_ge (row blocks 0) 1 with hrow | hrow
    · rw [hkept 0 Nat.one_pos hrow, Nat.lt_one_iff.mp hrow]
    · obtain ⟨r, hr, -, hblock⟩ := hadded 0 Nat.one_pos hrow
      obtain ⟨old, -, hencode⟩ := hencoded r hr
      rw [hblock, hencode, encodeBlock]
      exact if_pos hcount
  · have hsum : ∀ p < n, n ≤ row blocks p → (blocks.get p).block.length = size ∧
        data (blocks.get p).block = ∑ t ∈ range n, term originals n (row blocks p) t := by
      intro p hp hrow
      obtain ⟨r, hr, hindex, hblock⟩ := hadded p hp hrow
      obtain ⟨old, hold, hencode⟩ := hencoded r hr
      rw [hblock, hencode, hindex]
      exact encodeBlock_eq hcount (by omega) hsize (by omega) (by omega) hold
    refine decodeBlocks_enough ⟨hcount, by omega, by omega, hsize, hkept, fun p hp => ?_,
      fun p hp hrow => (hsum p hp hrow).2, fun p hp q hq he => hdiffer p hp q hq ?_⟩
      (fun p hp => ?_) fresh
    · rcases Nat.lt_or_ge (row blocks p) n with hrow | hrow
      · rw [hkept p hp hrow, hsize _ hrow]
      · exact (hsum p hp hrow).1
    · exact UInt8.toNat_inj.mp he
    · rcases Nat.lt_or_ge (row blocks p) n with hrow | hrow
      · omega
      · obtain ⟨r, hr, hindex, -⟩ := hadded p hp hrow
        omega

/-- Three original blocks. -/
def someOriginals : Cm256Blocks := ⟨fun t => ⟨[UInt8.ofNat (t + 5), 0], 0⟩⟩

/-- Three blocks of two bytes, two to be added. -/
def someParams : Cm256EncoderParams := ⟨3, 2, 2, by decide⟩

/-- Both recovery blocks, and the last original one. -/
def someArrived : Cm256Blocks := ⟨fun p =>
  if p = 2 then ⟨[7, 0], 2⟩
  else ⟨recoveryBlock someParams (encodeBlocks someParams someOriginals 2 0 [1, 2, 3, 4]) p,
    UInt8.ofNat (3 + p)⟩⟩

theorem decode_recovers_two_lost : ∃ out,
    decode (fun _ => 9) someParams (some someArrived) = some (0, some out) ∧
      Recovered someOriginals someArrived out 3 := by
  obtain ⟨encoded, hencoded, hall⟩ := @decode_recovers someParams someOriginals [1, 2, 3, 4]
    ⟨by decide, by decide, by decide, by decide⟩ (fun _ _ => rfl) rfl
  obtain rfl : encodeBlocks someParams someOriginals 2 0 [1, 2, 3, 4] = encoded :=
    Option.some.inj (congrArg Prod.snd (Option.some.inj hencoded))
  refine hall someArrived (fun p hp => ?_)
    (show ∀ p < 3, ∀ q < 3, (someArrived.get p).index = (someArrived.get q).index → p = q by decide)
    fun _ => 9
  have h3 : p < 3 := hp
  rcases Nat.lt_or_ge p 2 with h2 | h2
  · have hget : someArrived.get p = _ := if_neg h2.ne
    have hrow : ((someArrived.get p).index.toNat : ℤ) = 3 + p := by
      rw [hget]
      exact congrArg Nat.cast (UInt8.toNat_ofNat_of_lt' (by omega : 3 + p < 256))
    exact .inr ⟨p, Int.ofNat_lt.mpr h2, hrow, congrArg Cm256Block.block hget⟩
  · obtain rfl : p = 2 := by omega
    exact .inl ⟨by decide, rfl⟩

end CM256

end Tgvoip
