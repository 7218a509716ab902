import Tgvoip.Video.GF256
import Mathlib.Data.List.GetD

/-!
# GF256Mem — the bulk operations of the block codec

`video/cm256/gf256.{h,cpp}`: `gf256_mul_mem` and `gf256_muladd_mem` work
through their buffers by blocks of 16 bytes in a vector register, then one
block of 8 and one of 4 bytes in a word, then byte by byte. A vector product
looks the two halves of every byte up in two tables of 16 entries.

All of it agrees with one product for each byte, but for the shortcut of
`gf256_mul_mem` for a factor of one, which leaves the destination as it is
(`mulMem_eq_iff`).
-/

namespace Tgvoip

open ByteReader (Bytes)

namespace Gf256Ctx

/-! ## Words and registers -/

/-- `n` bytes put together in a word, the first one lowest. -/
def pack (w : ℕ) (b : ℕ → UInt8) (n : ℕ) : BitVec w :=
  (List.range n).foldl (fun word i => word ||| (b i).toBitVec.setWidth w <<< (8 * i)) 0

/-- A byte of a word, as it stands in little-endian memory. -/
def unpack {w : ℕ} (word : BitVec w) (i : ℕ) : UInt8 := ⟨(word >>> (8 * i)).setWidth 8⟩

/-- `GF256_M128`: the bytes of a register, the first 16 of a sequence. -/
abbrev M128 := ℕ → UInt8

/-- `_mm_storeu_si128`. -/
def store (r : M128) : Bytes := (List.range 16).map r

def andSi128 (a b : M128) : M128 := fun i => a i &&& b i
def xorSi128 (a b : M128) : M128 := fun i => a i ^^^ b i

/-- `_mm_srli_epi64`: the two 64-bit halves are shifted. -/
def srliEpi64 (a : M128) (count : ℕ) : M128 := fun i =>
  unpack (pack 64 (fun k => a (8 * (i / 8) + k)) 8 >>> count) (i % 8)

/-- `_mm_shuffle_epi8`. -/
def shuffleEpi8 (a mask : M128) : M128 := fun i =>
  if mask i &&& 0x80 = 0 then a (mask i &&& 0x0f).toNat else 0

def clrMask : M128 := fun _ => 0x0f

/-- `MM256_TABLE_LO_Y[y]`. -/
def tableLoY (y : UInt8) : M128 := fun x => mul x.toUInt8 y

/-- `MM256_TABLE_HI_Y[y]`. -/
def tableHiY (y : UInt8) : M128 := fun x => mul (x.toUInt8 <<< 4) y

/-- The partial products of 16 bytes, put together. -/
def product16 (y : UInt8) (x0 : M128) : M128 :=
  let l0 := andSi128 x0 clrMask
  let h0 := andSi128 (srliEpi64 x0 4) clrMask
  xorSi128 (shuffleEpi8 (tableLoY y) l0) (shuffleEpi8 (tableHiY y) h0)

/-! ## Buffers -/

/-- What is stored of the bytes in the destination and the products of the
bytes in the source. -/
structure Store where
  register : M128 → M128 → M128
  word : ∀ {w : ℕ}, BitVec w → BitVec w → BitVec w
  byte : UInt8 → UInt8 → UInt8

namespace Store

variable (s : Store) (y : UInt8)

/-- Single bytes. -/
def bytes (z x : Bytes) : Bytes := List.zipWith (fun old b => s.byte old (mul b y)) z x

/-- A block of `n` bytes that goes through a word. -/
def block (w n : ℕ) (z x : Bytes) : Bytes :=
  (List.range n).map
    (unpack (s.word (pack w (z.getD · 0) n) (pack w (fun i => mul (x.getD i 0) y) n)))

/-- A block of 4 bytes, and the rest. -/
def from4 (z x : Bytes) : Bytes :=
  if 4 ≤ z.length then s.block y 32 4 z x ++ s.bytes y (z.drop 4) (x.drop 4) else s.bytes y z x

/-- A block of 8 bytes, and the rest. -/
def from8 (z x : Bytes) : Bytes :=
  if 8 ≤ z.length then s.block y 64 8 z x ++ s.from4 y (z.drop 8) (x.drop 8) else s.from4 y z x

/-- Blocks of 16 bytes, and the rest. -/
def from16 : ℕ → Bytes → Bytes → Bytes
  | 0, z, x => s.from8 y z x
  | rounds + 1, z, x =>
    store (s.register (z.getD · 0) (product16 y (x.getD · 0))) ++
      from16 rounds (z.drop 16) (x.drop 16)

/-- The whole of a buffer. -/
def run (z x : Bytes) : Bytes := s.from16 y (z.length / 16) z x

end Store

/-- The products take the place of the old bytes. -/
def overwriteStore : Store where
  register _ p := p
  word _ p := p
  byte _ p := p

/-- The products are added to the old bytes. -/
def addStore : Store where
  register z p := xorSi128 p z
  word z p := z ^^^ p
  byte z p := z ^^^ p

/-- `gf256_add_mem`. Its loops over registers and words are exclusive ors of all
their bytes. -/
def addMem (x y : Bytes) : Bytes := List.zipWith (· ^^^ ·) x y

/-- `gf256_add2_mem`. -/
def add2Mem (z x y : Bytes) : Bytes := List.zipWith (· ^^^ ·) z (List.zipWith (· ^^^ ·) x y)

/-- `gf256_addset_mem`. -/
def addsetMem (x y : Bytes) : Bytes := List.zipWith (· ^^^ ·) x y

/-- `gf256_mul_mem`: what it leaves in the destination `z`. -/
def mulMem (z x : Bytes) (y : UInt8) : Bytes :=
  if y ≤ 1 then if y = 0 then List.replicate z.length 0 else z
  else overwriteStore.run y z x

/-- `gf256_muladd_mem`. -/
def muladdMem (z : Bytes) (y : UInt8) (x : Bytes) : Bytes :=
  if y ≤ 1 then if y = 1 then addMem z x else z
  else addStore.run y z x

/-- `gf256_div_mem`. -/
def divMem (z x : Bytes) (y : UInt8) : Bytes := mulMem z x (inv y)

/-! ## The bytes of a word -/

theorem getLsbD_pack {w n : ℕ} (b : ℕ → UInt8) (hn : 8 * n ≤ w) (p : ℕ) :
    (pack w b n).getLsbD p = (decide (p < 8 * n) && (b (p / 8)).toBitVec.getLsbD (p % 8)) := by
  induction n with
  | zero => simp [pack]
  | succ n ih =>
      have hstep : pack w b (n + 1)
          = pack w b n ||| (b n).toBitVec.setWidth w <<< (8 * n) := by
        rw [pack, List.range_succ, List.foldl_append]
        rfl
      rw [hstep, BitVec.getLsbD_or, ih (by omega), BitVec.getLsbD_shiftLeft,
        BitVec.getLsbD_setWidth]
      rcases Nat.lt_trichotomy (p / 8) n with h | h | h
      · have h1 : p < 8 * n := by omega
        have h2 : p < 8 * (n + 1) := by omega
        simp [h1, h2]
      · subst h
        have h1 : ¬ p < 8 * (p / 8) := by omega
        have h2 : p < 8 * (p / 8 + 1) := by omega
        have h3 : p - 8 * (p / 8) = p % 8 := by omega
        have h4 : p < w := by omega
        have h5 : p % 8 < w := by omega
        simp [h1, h2, h3, h4, h5]
      · have h1 : ¬ p < 8 * n := by omega
        have h2 : ¬ p < 8 * (n + 1) := by omega
        have h3 : (b n).toBitVec.getLsbD (p - 8 * n) = false :=
          BitVec.getLsbD_of_ge _ _ (by omega)
        simp [h1, h2, h3]

theorem getLsbD_unpack {w : ℕ} (word : BitVec w) (i t : ℕ) :
    (unpack word i).toBitVec.getLsbD t = (decide (t < 8) && word.getLsbD (8 * i + t)) := by
  simp [unpack, BitVec.getLsbD_setWidth, BitVec.getLsbD_ushiftRight]

theorem byte_ext {a b : UInt8} (h : ∀ t < 8, a.toBitVec.getLsbD t = b.toBitVec.getLsbD t) :
    a = b :=
  UInt8.toBitVec_inj.mp (BitVec.eq_of_getLsbD_eq fun t ht => h t ht)

theorem unpack_pack {w n : ℕ} (b : ℕ → UInt8) (hn : 8 * n ≤ w) {i : ℕ} (hi : i < n) :
    unpack (pack w b n) i = b i := by
  refine byte_ext fun t ht => ?_
  have h1 : 8 * i + t < 8 * n := by omega
  have h2 : (8 * i + t) / 8 = i := by omega
  have h3 : (8 * i + t) % 8 = t := by omega
  rw [getLsbD_unpack, getLsbD_pack b hn, h2, h3]
  simp [ht, h1]

theorem unpack_xor {w : ℕ} (a b : BitVec w) (i : ℕ) :
    unpack (a ^^^ b) i = unpack a i ^^^ unpack b i := by
  refine byte_ext fun t ht => ?_
  rw [UInt8.toBitVec_xor, BitVec.getLsbD_xor, getLsbD_unpack, getLsbD_unpack, getLsbD_unpack,
    BitVec.getLsbD_xor]
  simp [ht]

/-- The lower half of a byte. -/
def low (b : UInt8) : UInt8 := b &&& 0x0f

theorem getLsbD_low : ∀ t < 8, (0x0f : UInt8).toBitVec.getLsbD t = decide (t < 4) := by decide

/-- The upper half of a byte, out of a half register that was shifted. -/
theorem low_srliEpi64 (a : M128) (i : ℕ) : low (srliEpi64 a 4 i) = a i >>> (4 : UInt8) := by
  refine byte_ext fun t ht => ?_
  have hshift : (a i >>> (4 : UInt8)).toBitVec = (a i).toBitVec >>> (4 : ℕ) := rfl
  have hi : 8 * (i / 8) + i % 8 = i := Nat.div_add_mod i 8
  rw [low, UInt8.toBitVec_and, BitVec.getLsbD_and, getLsbD_low t ht, srliEpi64, getLsbD_unpack,
    BitVec.getLsbD_ushiftRight, getLsbD_pack _ (by decide), hshift, BitVec.getLsbD_ushiftRight]
  by_cases ht4 : t < 4
  · have h1 : (4 + (8 * (i % 8) + t)) / 8 = i % 8 := by omega
    have h2 : (4 + (8 * (i % 8) + t)) % 8 = 4 + t := by omega
    have h3 : 4 + (8 * (i % 8) + t) < 8 * 8 := by omega
    rw [h1, h2, hi]
    simp [ht, ht4, h3]
  · have h8 : (a i).toBitVec.getLsbD (4 + t) = false := BitVec.getLsbD_of_ge _ _ (by omega)
    simp [ht4, h8]

/-! ## Partial products -/

theorem mul_xor (a b y : UInt8) : mul (a ^^^ b) y = mul a y ^^^ mul b y := by
  rw [GF256.mul_eq, GF256.mul_eq a, GF256.mul_eq b, ← GF256.byte_add]
  exact congrArg GF256.byte (add_mul (⟨a⟩ : GF256) ⟨b⟩ ⟨y⟩)

theorem mul_zero (b : UInt8) : mul b 0 = 0 := if_pos rfl

theorem mul_one (b : UInt8) : mul b 1 = b := by
  rw [GF256.mul_eq]
  exact congrArg GF256.byte (MulOneClass.mul_one (⟨b⟩ : GF256))

theorem low_and (b : UInt8) : low b &&& 0x80 = 0 ∧ low b &&& 0x0f = low b :=
  forall_byte (p := fun b => low b &&& 0x80 = 0 ∧ low b &&& 0x0f = low b) (by decide +kernel) b

theorem halves (b : UInt8) : low b ^^^ ((b >>> 4) <<< 4) = b :=
  forall_byte (p := fun b => low b ^^^ ((b >>> 4) <<< 4) = b) (by decide +kernel) b

theorem shuffle_clrMask (a r : M128) (i : ℕ) :
    shuffleEpi8 a (andSi128 r clrMask) i = a (low (r i)).toNat := by
  have hmask : andSi128 r clrMask i = low (r i) := rfl
  rw [shuffleEpi8, hmask, if_pos (low_and _).1, (low_and _).2]

/-- **The vector product is the product, byte by byte.** -/
theorem product16_eq (y : UInt8) (x : M128) (i : ℕ) : product16 y x i = mul (x i) y := by
  have hlo : shuffleEpi8 (tableLoY y) (andSi128 x clrMask) i = mul (low (x i)) y := by
    rw [shuffle_clrMask, tableLoY, Nat.toUInt8_eq, UInt8.ofNat_toNat]
  have hhi : shuffleEpi8 (tableHiY y) (andSi128 (srliEpi64 x 4) clrMask) i
      = mul ((x i >>> (4 : UInt8)) <<< (4 : UInt8)) y := by
    rw [shuffle_clrMask, low_srliEpi64, tableHiY, Nat.toUInt8_eq, UInt8.ofNat_toNat]
  show shuffleEpi8 (tableLoY y) (andSi128 x clrMask) i ^^^
    shuffleEpi8 (tableHiY y) (andSi128 (srliEpi64 x 4) clrMask) i = _
  rw [hlo, hhi, ← mul_xor, halves]

/-! ## Whole buffers -/

namespace Store

/-- What is stored does not depend on how the bytes are taken together. -/
structure Bytewise (s : Store) : Prop where
  register : ∀ z p i, s.register z p i = s.byte (z i) (p i)
  word : ∀ {w : ℕ} (z p : BitVec w) (i : ℕ), unpack (s.word z p) i = s.byte (unpack z i) (unpack p i)

variable {s : Store} {y : UInt8}

/-- A block of bytes that is computed one by one is part of the whole. -/
theorem bytes_split {z x : Bytes} {n : ℕ} (hz : n ≤ z.length) (hx : n ≤ x.length)
    {f : ℕ → UInt8} (hf : ∀ i < n, f i = s.byte (z.getD i 0) (mul (x.getD i 0) y)) :
    (List.range n).map f ++ s.bytes y (z.drop n) (x.drop n) = s.bytes y z x := by
  have hhead : (List.range n).map f = s.bytes y (z.take n) (x.take n) := by
    apply List.ext_getElem
    · simp [bytes, hz, hx]
    · intro i h1 h2
      have hi : i < n := by simpa using h1
      simp only [List.getElem_map, List.getElem_range, bytes, List.getElem_zipWith,
        List.getElem_take]
      rw [hf i hi, List.getD_eq_getElem _ _ (by omega), List.getD_eq_getElem _ _ (by omega)]
  rw [hhead, bytes, bytes, ← List.zipWith_append (by simp [hz, hx]), List.take_append_drop,
    List.take_append_drop]
  rfl

theorem Bytewise.block_eq (hs : s.Bytewise) {w n : ℕ} (hn : 8 * n ≤ w) {z x : Bytes}
    (hz : n ≤ z.length) (hx : n ≤ x.length) :
    s.block y w n z x ++ s.bytes y (z.drop n) (x.drop n) = s.bytes y z x := by
  refine bytes_split hz hx fun i hi => ?_
  rw [hs.word, unpack_pack _ hn hi, unpack_pack _ hn hi]

theorem Bytewise.from4_eq (hs : s.Bytewise) {z x : Bytes} (h : z.length = x.length) :
    s.from4 y z x = s.bytes y z x := by
  rw [from4]
  split
  · exact hs.block_eq (by decide) (by omega) (by omega)
  · rfl

theorem Bytewise.from8_eq (hs : s.Bytewise) {z x : Bytes} (h : z.length = x.length) :
    s.from8 y z x = s.bytes y z x := by
  rw [from8]
  split
  · rw [hs.from4_eq (by simp [h])]
    exact hs.block_eq (by decide) (by omega) (by omega)
  · exact hs.from4_eq h

theorem Bytewise.from16_eq (hs : s.Bytewise) {rounds : ℕ} {z x : Bytes}
    (h : z.length = x.length) (hr : 16 * rounds ≤ z.length) :
    s.from16 y rounds z x = s.bytes y z x := by
  induction rounds generalizing z x with
  | zero => exact hs.from8_eq h
  | succ rounds ih =>
      rw [from16, ih (by simp [h]) (by rw [List.length_drop]; omega)]
      refine bytes_split (by omega) (by omega) fun i _ => ?_
      rw [hs.register, product16_eq]

/-- **A pass by blocks does what a pass byte by byte does.** -/
theorem Bytewise.run_eq (hs : s.Bytewise) {z x : Bytes} (h : z.length = x.length) :
    s.run y z x = s.bytes y z x :=
  hs.from16_eq h (Nat.mul_div_le _ _)

end Store

theorem overwriteStore_bytewise : overwriteStore.Bytewise := ⟨fun _ _ _ => rfl, fun _ _ _ => rfl⟩

theorem addStore_bytewise : addStore.Bytewise :=
  ⟨fun _ _ _ => UInt8.xor_comm .., fun z p i => unpack_xor z p i⟩

theorem eq_one {y : UInt8} (hle : y ≤ 1) (h0 : y ≠ 0) : y = 1 := by
  have h1 : y.toNat ≤ 1 := UInt8.le_iff_toNat_le.mp hle
  have h2 : y.toNat ≠ 0 := fun h => h0 (UInt8.toNat_inj.mp h)
  exact UInt8.toNat_inj.mp (show y.toNat = 1 by omega)

/-- **`gf256_muladd_mem` adds a multiple**, whatever the factor. -/
theorem muladdMem_eq {z x : Bytes} (h : z.length = x.length) (y : UInt8) :
    muladdMem z y x = List.zipWith (fun old b => old ^^^ mul b y) z x := by
  rw [muladdMem]
  split
  · rename_i hle
    split
    · subst y
      simp only [mul_one, addMem]
    · rename_i hne
      have h0 : y = 0 := by_contra fun h0 => hne (eq_one hle h0)
      subst h0
      simp only [mul_zero, UInt8.xor_zero]
      apply List.ext_getElem <;> simp [h]
  · rw [addStore_bytewise.run_eq h]
    rfl

/-- The multiple `gf256_mul_mem` should write. -/
def multiple (x : Bytes) (y : UInt8) : Bytes := x.map (mul · y)

theorem mulMem_of_ne_one {z x : Bytes} (h : z.length = x.length) {y : UInt8} (hy : y ≠ 1) :
    mulMem z x y = multiple x y := by
  rw [mulMem]
  split
  · rename_i hle
    have h0 : y = 0 := by_contra fun h0 => hy (eq_one hle h0)
    rw [if_pos h0, h0, multiple, h]
    apply List.ext_getElem <;> simp [mul_zero]
  · rw [overwriteStore_bytewise.run_eq h, multiple, Store.bytes]
    apply List.ext_getElem <;> simp [overwriteStore, h]

/-- **`gf256_mul_mem` writes the multiple** unless the factor is one; then it
does so only where source and destination are equal already. -/
theorem mulMem_eq_iff {z x : Bytes} (h : z.length = x.length) (y : UInt8) :
    mulMem z x y = multiple x y ↔ y ≠ 1 ∨ z = x := by
  by_cases hy : y = 1
  · subst hy
    have hkeep : mulMem z x 1 = z := rfl
    have hone : multiple x 1 = x := by simp [multiple, mul_one]
    rw [hkeep, hone]
    simp
  · simp [hy, mulMem_of_ne_one h hy]

/-- In place, any factor will do. -/
theorem mulMem_self (x : Bytes) (y : UInt8) : mulMem x x y = multiple x y :=
  (mulMem_eq_iff rfl y).mpr (.inr rfl)

/-- **The bulk operations are those on the bytes** but for a factor of one in
`gf256_mul_mem`, which copies nothing. -/
theorem bulk_eq {z x : Bytes} (h : z.length = x.length) (y : UInt8) :
    muladdMem z y x = List.zipWith (fun old b => old ^^^ mul b y) z x ∧
      (mulMem z x y = x.map (mul · y) ↔ y ≠ 1 ∨ z = x) :=
  ⟨muladdMem_eq h y, mulMem_eq_iff h y⟩

theorem bulk_eq_copy :
    mulMem (List.replicate 21 0) (List.replicate 21 9) 1
      ≠ (List.replicate 21 (9 : UInt8)).map (mul · 1) := fun h =>
  absurd ((bulk_eq (by simp) 1).2.mp h) (by decide)

end Gf256Ctx

end Tgvoip
