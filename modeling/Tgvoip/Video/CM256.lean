import Tgvoip.Video.GF256Mem

/-!
# CM256 — the block codec

`video/cm256/cm256.{h,cpp}`: `cm256_encode` makes recovery blocks out of
original ones, the rows of a Cauchy matrix over GF(256) whose columns are
scaled so that the first row is a parity; `cm256_decode` turns the recovery
blocks among those that arrived into the original blocks that did not.

A pointer to a block is its place in the array; every block has a buffer of
its own. The arrays the caller hands in may be null pointers. What a function
finds in memory nobody has written is an argument (`fresh`). A sum of two
`int`s that is no `int` is undefined, and so is the call.

The decoder keeps its matrix in three packed pieces that are written and read
through moving pointers. A pointer into `matrix_U` is an offset from its
first byte.
-/

namespace Tgvoip

open ByteReader (Bytes)
open Function (update)
open Gf256Ctx (mul div add getMatrixElement addMem add2Mem addsetMem mulMem muladdMem divMem)

/-- What an `int` holds. -/
def IsInt (x : ℤ) : Prop := -2 ^ 31 ≤ x ∧ x < 2 ^ 31

instance (x : ℤ) : Decidable (IsInt x) := inferInstanceAs (Decidable (_ ∧ _))

/-- `cm256_encoder_params`: three `int`s. -/
structure Cm256EncoderParams where
  originalCount : ℤ
  recoveryCount : ℤ
  blockBytes : ℤ
  ints : IsInt originalCount ∧ IsInt recoveryCount ∧ IsInt blockBytes
  deriving DecidableEq

/-- `cm256_block`. -/
structure Cm256Block where
  block : Bytes
  index : UInt8
  deriving DecidableEq

/-- A `cm256_block*`: the blocks of an array, by place. -/
structure Cm256Blocks where
  get : ℕ → Cm256Block

/-- One of them is replaced. -/
def Cm256Blocks.set (blocks : Cm256Blocks) (p : ℕ) (b : Cm256Block) : Cm256Blocks where
  get := update blocks.get p b

@[simp] theorem Cm256Blocks.get_set (blocks : Cm256Blocks) (p : ℕ) (b : Cm256Block) (q : ℕ) :
    (blocks.set p b).get q = if q = p then b else blocks.get q :=
  Function.update_apply ..

namespace CM256

variable (params : Cm256EncoderParams)

/-! ## Encoding -/

/-- The first row: `j` blocks are added to the first two. -/
def parity (originals : Cm256Blocks) : ℕ → Bytes
  | 0 => addsetMem (originals.get 0).block (originals.get 1).block
  | j + 1 => addMem (parity originals j) (originals.get (j + 2)).block

/-- Another row: the multiples of `j` blocks are added to that of the first. -/
def product (originals : Cm256Blocks) (x_i x_0 : UInt8) (recoveryBlock : Bytes) : ℕ → Bytes
  | 0 => mulMem recoveryBlock (originals.get 0).block (getMatrixElement x_i x_0 0)
  | j + 1 =>
    muladdMem (product originals x_i x_0 recoveryBlock j)
      (getMatrixElement x_i x_0 (UInt8.ofNat (j + 1))) (originals.get (j + 1)).block

/-- `cm256_encode_block`. -/
def encodeBlock (originals : Cm256Blocks) (recoveryBlockIndex : ℤ) (recoveryBlock : Bytes) :
    Bytes :=
  if params.originalCount = 1 then (originals.get 0).block
  else if recoveryBlockIndex = params.originalCount then
    parity originals (params.originalCount.toNat - 2)
  else
    let x_0 := UInt8.ofInt params.originalCount
    let x_i := UInt8.ofInt recoveryBlockIndex
    product originals x_i x_0 recoveryBlock (params.originalCount.toNat - 1)

/-- The recovery blocks from one on. -/
def encodeBlocks (originals : Cm256Blocks) : ℕ → ℤ → Bytes → Bytes
  | 0, _, recoveryBlock => recoveryBlock
  | rounds + 1, block, recoveryBlock =>
    encodeBlock params originals (params.originalCount + block)
        (recoveryBlock.take params.blockBytes.toNat) ++
      encodeBlocks originals rounds (block + 1) (recoveryBlock.drop params.blockBytes.toNat)

/-- `cm256_encode`: the code, and what is in `recoveryBlocks` after it. -/
def encode (originals : Option Cm256Blocks) (recoveryBlocks : Option Bytes) :
    Option (ℤ × Option Bytes) :=
  if params.originalCount ≤ 0 ∨ params.recoveryCount ≤ 0 ∨ params.blockBytes ≤ 0 then
    some (-1, recoveryBlocks)
  else if ¬ IsInt (params.originalCount + params.recoveryCount) then none
  else if params.originalCount + params.recoveryCount > 256 then some (-2, recoveryBlocks)
  else
    match originals, recoveryBlocks with
    | some originals, some recoveryBlocks =>
      some (0, some (encodeBlocks params originals params.recoveryCount.toNat 0 recoveryBlocks))
    | _, _ => some (-3, recoveryBlocks)

end CM256

/-! ## The decoder -/

/-- `CM256Decoder`. The counts are the lengths of the lists. -/
@[ext] structure CM256Decoder where
  params : Cm256EncoderParams
  recovery : List ℕ
  original : List ℕ
  erasuresIndices : ℕ → UInt8

namespace CM256Decoder

/-- One input block. -/
def scan (blocks : Cm256Blocks) (s : CM256Decoder) (ii : ℕ) : Option CM256Decoder :=
  let row := (blocks.get ii).index.toNat
  if row < s.params.originalCount then
    if s.erasuresIndices row ≠ 0 then none
    else some { s with
      original := s.original ++ [ii]
      erasuresIndices := update s.erasuresIndices row 1 }
  else some { s with recovery := s.recovery ++ [ii] }

/-- The erasures among the rows from `ii` on. -/
def identify (recoveryCount : ℕ) : ℕ → ℕ → ℕ → (ℕ → UInt8) → ℕ → UInt8
  | 0, _, _, erasuresIndices => erasuresIndices
  | rounds + 1, ii, indexCount, erasuresIndices =>
    if erasuresIndices ii = 0 then
      let erasuresIndices := update erasuresIndices indexCount (UInt8.ofNat ii)
      if indexCount + 1 ≥ recoveryCount then erasuresIndices
      else identify recoveryCount rounds (ii + 1) (indexCount + 1) erasuresIndices
    else identify recoveryCount rounds (ii + 1) indexCount erasuresIndices

/-- `Initialize`. -/
def initializeDecoder (fresh : ℕ → UInt8) (params : Cm256EncoderParams) (blocks : Cm256Blocks) :
    Option CM256Decoder :=
  let start : CM256Decoder :=
    { params, recovery := [], original := [],
      erasuresIndices := fun ii => if ii < params.originalCount then 0 else fresh ii }
  ((List.range params.originalCount.toNat).foldlM (scan blocks) start).map fun s =>
    { s with erasuresIndices := identify s.recovery.length 256 0 0 s.erasuresIndices }

variable (s : CM256Decoder)

/-- `Recovery[i]`. -/
def recoveryAt (i : ℕ) : ℕ := s.recovery.getD i 0

/-- `x_0`. -/
def x_0 : UInt8 := UInt8.ofInt s.params.originalCount

/-- The data of a block is written over. -/
def setBlock (blocks : Cm256Blocks) (p : ℕ) (data : Bytes) : Cm256Blocks :=
  blocks.set p { blocks.get p with block := data }

/-- A multiple of one block is added to another. -/
def muladdBlock (dst : ℕ) (y : UInt8) (src : ℕ) (blocks : Cm256Blocks) : Cm256Blocks :=
  setBlock blocks dst (muladdMem (blocks.get dst).block y (blocks.get src).block)

/-! ### One recovery block -/

/-- One original block of `DecodeM1`. `inBlock` is the one still to be added. -/
def addPair (outBlock : ℕ) (m : Cm256Blocks × Option ℕ) (inBlock2 : ℕ) : Cm256Blocks × Option ℕ :=
  match m.2 with
  | none => (m.1, some inBlock2)
  | some inBlock =>
    (setBlock m.1 outBlock
      (add2Mem (m.1.get outBlock).block (m.1.get inBlock).block (m.1.get inBlock2).block), none)

/-- The block that is left over. -/
def completeXors (outBlock : ℕ) (m : Cm256Blocks × Option ℕ) : Cm256Blocks :=
  match m.2 with
  | none => m.1
  | some inBlock => setBlock m.1 outBlock (addMem (m.1.get outBlock).block (m.1.get inBlock).block)

/-- `DecodeM1`. -/
def decodeM1 (blocks : Cm256Blocks) : Cm256Blocks :=
  let outBlock := s.recoveryAt 0
  let blocks := completeXors outBlock (s.original.foldl (addPair outBlock) (blocks, none))
  blocks.set outBlock { blocks.get outBlock with index := s.erasuresIndices 0 }

/-! ### The decomposition -/

/-- What the loop over one row and one column works on: the two, as far as
they are computed, and the generators. -/
structure RowColumn where
  row_L : List UInt8
  row_U : List UInt8
  g : ℕ → UInt8
  b : ℕ → UInt8

/-- One entry of each. -/
def entry (x y : ℕ → UInt8) (k : ℕ) (m : RowColumn) (j : ℕ) : RowColumn where
  row_L := m.row_L ++ [div (m.g j) (add (x j) (y k))]
  row_U := m.row_U ++ [div (m.b j) (add (x k) (y j))]
  g := update m.g j (mul (m.g j) (div (add (x j) (x k)) (add (x j) (y k))))
  b := update m.b j (mul (m.b j) (div (add (y j) (y k)) (add (y j) (x k))))

/-- The numbers from `k + 1` up to `n`. -/
def after (k n : ℕ) : List ℕ := List.range' (k + 1) (n - (k + 1))

/-- The state of `GenerateLDUDecomposition`. -/
structure Ldu where
  matrix_L : List UInt8
  diag_D : ℕ → UInt8
  matrix_U : ℤ → UInt8
  g : ℕ → UInt8
  b : ℕ → UInt8
  firstOffset_U : ℤ

/-- A row of `U` is put in its place: the entries of one row are apart, those
of one column together. -/
def copyRow (output_U : ℤ) : List ℕ → List UInt8 → (ℤ → UInt8) → ℤ → UInt8
  | j :: js, v :: row_U, matrix_U => copyRow (output_U - j) js row_U (update matrix_U output_U v)
  | _, _, matrix_U => matrix_U

/-- One pivot. -/
def pivot (n : ℕ) (x y : ℕ → UInt8) (x_0 : UInt8) (k : ℕ) (m : Ldu) : Ldu :=
  let last_U : ℤ := (n - 1) * n / 2 - 1
  let D_kk := add (x k) (y k)
  let L_kk := div (m.g k) D_kk
  let U_kk := mul (div (m.b k) D_kk) (add x_0 (y k))
  let r := (after k n).foldl (entry x y k) ⟨[], [], m.g, m.b⟩
  { matrix_L := m.matrix_L ++ divMem r.row_L r.row_L L_kk
    diag_D := update m.diag_D k (mul D_kk (mul L_kk U_kk))
    matrix_U := copyRow (last_U + m.firstOffset_U) (after k n) (divMem r.row_U r.row_U U_kk)
      m.matrix_U
    g := r.g
    b := r.b
    firstOffset_U := m.firstOffset_U - (k + 2) }

/-- The first `k` pivots. -/
def pivots (n : ℕ) (x y : ℕ → UInt8) (x_0 : UInt8) (start : Ldu) : ℕ → Ldu
  | 0 => start
  | k + 1 => pivot n x y x_0 k (pivots n x y x_0 start k)

/-- `gf256_mul_mem` in place, on part of the matrix. -/
def mulPart (matrix : ℤ → UInt8) (row : ℤ) (count : ℕ) (y : UInt8) : ℤ → UInt8 := fun p =>
  let part := (List.range count).map fun i : ℕ => matrix (row + i)
  if row ≤ p ∧ p < row + count then (mulMem part part y).getD (p - row).toNat 0 else matrix p

/-- The columns of `U` from `j` down are multiplied by their weights. -/
def weigh (y : ℕ → UInt8) (x_0 : UInt8) : ℕ → ℤ → (ℤ → UInt8) → ℤ → UInt8
  | 0, _, matrix_U => matrix_U
  | j + 1, row_U, matrix_U =>
    weigh y x_0 j (row_U + (j + 1)) (mulPart matrix_U row_U (j + 1) (add x_0 (y (j + 1))))

/-- `GenerateLDUDecomposition`, for `x` and `y` the indices of the recovery
blocks and of the erasures. -/
def generateLDUDecomposition (fresh : ℕ → UInt8) (n : ℕ) (x y : ℕ → UInt8) (x_0 : UInt8) : Ldu :=
  let start : Ldu :=
    { matrix_L := [], diag_D := fresh, matrix_U := fun p => fresh p.toNat,
      g := fun _ => 1, b := fun _ => 1, firstOffset_U := 0 }
  let m := pivots n x y x_0 start (n - 1)
  let L_nn := m.g (n - 1)
  let U_nn := mul (m.b (n - 1)) (add x_0 (y (n - 1)))
  { m with
    matrix_U := weigh y x_0 (n - 1) 0 m.matrix_U
    diag_D := update m.diag_D (n - 1) (div (mul L_nn U_nn) (add (x (n - 1)) (y (n - 1)))) }

/-! ### Several recovery blocks -/

/-- One original block is taken out of all recovery blocks. -/
def takeOut (blocks : Cm256Blocks) (original : ℕ) : Cm256Blocks :=
  let inRow := (blocks.get original).index
  s.recovery.foldl (fun blocks recovery =>
    muladdBlock recovery (getMatrixElement (blocks.get recovery).index s.x_0 inRow) original blocks)
    blocks

/-- Multiples of the recovery block `j` are added to others, the factors read
one after the other. -/
def column (matrix : ℤ → UInt8) (j : ℕ) (m : Cm256Blocks × ℤ) (is : List ℕ) : Cm256Blocks × ℤ :=
  is.foldl (fun m i =>
    (muladdBlock (s.recoveryAt i) (matrix m.2) (s.recoveryAt j) m.1, m.2 + 1)) m

/-- The lower left triangle, up to column `j`. -/
def eliminateLower (matrix_L : ℤ → UInt8) (blocks : Cm256Blocks) : ℕ → Cm256Blocks × ℤ
  | 0 => (blocks, 0)
  | j + 1 => s.column matrix_L j (eliminateLower matrix_L blocks j) (after j s.recovery.length)

/-- The first `i` entries of the diagonal. -/
def eliminateDiagonal (diag_D : ℕ → UInt8) (blocks : Cm256Blocks) : ℕ → Cm256Blocks
  | 0 => blocks
  | i + 1 =>
    let m := eliminateDiagonal diag_D blocks i
    let data := (m.get (s.recoveryAt i)).block
    m.set (s.recoveryAt i) ⟨divMem data data (diag_D i), s.erasuresIndices i⟩

/-- The upper right triangle, from column `j` on. -/
def eliminateUpper (matrix_U : ℤ → UInt8) : ℕ → Cm256Blocks × ℤ → Cm256Blocks × ℤ
  | 0, m => m
  | j + 1, m =>
    eliminateUpper matrix_U j (s.column matrix_U (j + 1) m (List.range (j + 1)).reverse)

/-- `Decode`. -/
def decode (fresh : ℕ → UInt8) (blocks : Cm256Blocks) : Cm256Blocks :=
  let n := s.recovery.length
  let blocks := s.original.foldl s.takeOut blocks
  let ldu := generateLDUDecomposition fresh n (fun i => (blocks.get (s.recoveryAt i)).index)
    s.erasuresIndices s.x_0
  let blocks := (s.eliminateLower (fun p => ldu.matrix_L.getD p.toNat 0) blocks (n - 1)).1
  let blocks := s.eliminateDiagonal ldu.diag_D blocks n
  (s.eliminateUpper ldu.matrix_U (n - 1) (blocks, 0)).1

end CM256Decoder

namespace CM256

/-- `cm256_decode` behind its checks. -/
def decodeBlocks (fresh : ℕ → UInt8) (params : Cm256EncoderParams) (blocks : Cm256Blocks) :
    ℤ × Cm256Blocks :=
  if params.originalCount = 1 then (0, blocks.set 0 { blocks.get 0 with index := 0 })
  else
    match CM256Decoder.initializeDecoder fresh params blocks with
    | none => (-5, blocks)
    | some state =>
      if state.recovery.length = 0 then (0, blocks)
      else if params.recoveryCount = 1 then (0, state.decodeM1 blocks)
      else (0, state.decode fresh blocks)

/-- `cm256_decode`: the code, and the array after it. -/
def decode (fresh : ℕ → UInt8) (params : Cm256EncoderParams) (blocks : Option Cm256Blocks) :
    Option (ℤ × Option Cm256Blocks) :=
  if params.originalCount ≤ 0 ∨ params.recoveryCount ≤ 0 ∨ params.blockBytes ≤ 0 then
    some (-1, blocks)
  else if ¬ IsInt (params.originalCount + params.recoveryCount) then none
  else if params.originalCount + params.recoveryCount > 256 then some (-2, blocks)
  else
    match blocks with
    | none => some (-3, none)
    | some blocks => some ((decodeBlocks fresh params blocks).map id some)

end CM256

end Tgvoip
