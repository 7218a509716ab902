import Mathlib.Data.List.GetD
import Tgvoip.Lib.Runs
import Tgvoip.Lib.Tape
import Tgvoip.Protocol.Interface

/-!
# BufferOutputStream — a byte list with a cursor, in growing memory

`tools/Buffers.{h,cpp}`, the output stream. It writes into memory that it
allocates itself and makes larger when needed, or into a buffer it was
given. What it is for is a `Tape` of bytes: `Shows` relates the two, and
every operation keeps the relation as long as the heap grants what it is
asked for (`follows_of_granted`).

The heap answers the n-th reallocation with the contents of the new bytes,
or not at all. Memory is a list of bytes; a write that leaves it is an
`overrun`.
-/

namespace Tgvoip

open ByteReader (Bytes le16 le32)

/-- What a call does instead of returning. -/
inductive WriteFault where
  | outOfRange
  | badAlloc
  | overrun
  deriving DecidableEq, Repr

/-- The answer to the n-th reallocation. -/
abbrev Heap := ℕ → Option (ℕ → UInt8)

structure BufferOutputStream where
  /-- The memory behind the pointer, empty behind a null pointer. -/
  buffer : Bytes
  size : ℕ
  offset : ℕ := 0
  bufferProvided : Bool := false
  /-- How often the memory was reallocated. -/
  reallocs : ℕ := 0
  deriving DecidableEq, Repr

namespace BufferOutputStream

abbrev Call := BufferOutputStream → EStateM.Result WriteFault BufferOutputStream Unit

/-- A sum in a `size_t`. -/
def sizeT (n : ℕ) : ℕ := n % 2 ^ 64

/-- The first bytes are the old ones. -/
def realloc (old : Bytes) (n : ℕ) (fill : ℕ → UInt8) : Bytes :=
  (List.range n).map fun i => old.getD i (fill i)

def expandBufferIfNeeded (heap : Heap) (need : ℕ) : Call := fun s =>
  if sizeT (s.offset + need) > s.size then
    if s.bufferProvided then .error .outOfRange s
    else
      match heap s.reallocs with
      | none =>
          .error .badAlloc { s with buffer := [], size := 0, reallocs := s.reallocs + 1 }
      | some fill =>
          .ok () { s with
            buffer := realloc s.buffer (sizeT (s.size + max need 1024)) fill
            size := sizeT (s.size + max need 1024)
            reallocs := s.reallocs + 1 }
  else .ok () s

/-- `old` with the bytes from `n` on replaced. -/
def replaced (old bs : Bytes) (n : ℕ) : Bytes := old.take n ++ (bs ++ old.drop (n + bs.length))

/-- `buffer[offset] = …`, as many bytes as there are. -/
def store (bs : Bytes) : Call := fun s =>
  if s.offset + bs.length ≤ s.buffer.length then
    .ok () { s with
      buffer := replaced s.buffer bs s.offset, offset := sizeT (s.offset + bs.length) }
  else .error .overrun s

/-- One call after another. -/
def andThen (c d : Call) : Call := fun s =>
  match c s with
  | .ok _ s' => d s'
  | .error fault s' => .error fault s'

def put (heap : Heap) (bs : Bytes) : Call := andThen (expandBufferIfNeeded heap bs.length) (store bs)

/-- `(unsigned char)(x & 0xFF)`. -/
def lowByte (x : Int32) : UInt8 := (x &&& 0xFF).toUInt32.toUInt8

def lowByte64 (x : Int64) : UInt8 := (x &&& 0xFF).toUInt64.toUInt8

def writeByte (heap : Heap) (byte : UInt8) : Call := put heap [byte]

/-- The short is promoted to an `int`. -/
def writeInt16 (heap : Heap) (i : Int16) : Call :=
  put heap [lowByte i.toInt32, lowByte (i.toInt32 >>> 8)]

def writeInt32 (heap : Heap) (i : Int32) : Call :=
  put heap [lowByte i, lowByte (i >>> 8), lowByte (i >>> 16), lowByte (i >>> 24)]

def writeInt64 (heap : Heap) (i : Int64) : Call :=
  put heap [lowByte64 i, lowByte64 (i >>> 8), lowByte64 (i >>> 16), lowByte64 (i >>> 24),
    lowByte64 (i >>> 32), lowByte64 (i >>> 40), lowByte64 (i >>> 48), lowByte64 (i >>> 56)]

def writeBytes (heap : Heap) (bytes : Bytes) : Call := put heap bytes

def reset : Call := fun s => .ok () { s with offset := 0 }

def rewind (numBytes : ℕ) : Call := fun s =>
  if numBytes > s.offset then .error .outOfRange s
  else .ok () { s with offset := s.offset - numBytes }

def advance (heap : Heap) (numBytes : ℕ) : Call :=
  andThen (expandBufferIfNeeded heap numBytes)
    fun s => .ok () { s with offset := sizeT (s.offset + numBytes) }

/-! ## Operations -/

inductive Op where
  | writeByte (byte : UInt8)
  | writeInt16 (i : Int16)
  | writeInt32 (i : Int32)
  | writeInt64 (i : Int64)
  | writeBytes (bytes : Bytes)
  | advance (numBytes : ℕ)
  | rewind (numBytes : ℕ)
  | reset
  deriving DecidableEq, Repr

/-- The eight bytes of a word, the lowest first. -/
def le64 (x : UInt64) : Bytes :=
  [x.toUInt8, (x >>> 8).toUInt8, (x >>> 16).toUInt8, (x >>> 24).toUInt8,
    (x >>> 32).toUInt8, (x >>> 40).toUInt8, (x >>> 48).toUInt8, (x >>> 56).toUInt8]

namespace Op

def run (heap : Heap) : Op → Call
  | writeByte byte => BufferOutputStream.writeByte heap byte
  | writeInt16 i => BufferOutputStream.writeInt16 heap i
  | writeInt32 i => BufferOutputStream.writeInt32 heap i
  | writeInt64 i => BufferOutputStream.writeInt64 heap i
  | writeBytes bytes => BufferOutputStream.writeBytes heap bytes
  | advance numBytes => BufferOutputStream.advance heap numBytes
  | rewind numBytes => BufferOutputStream.rewind numBytes
  | reset => BufferOutputStream.reset

/-- The operation on the byte list; a rewind in front of the list is refused. -/
def onTape (t : Tape UInt8) : Op → Tape UInt8
  | writeByte byte => t.write [byte]
  | writeInt16 i => t.write (le16 i.toUInt16)
  | writeInt32 i => t.write (le32 i.toUInt32)
  | writeInt64 i => t.write (le64 i.toUInt64)
  | writeBytes bytes => t.write bytes
  | advance numBytes => t.advance numBytes
  | rewind numBytes => if numBytes > t.cursor then t else t.rewind numBytes
  | reset => t.reset

/-- The room that the operation asks for. -/
def need : Op → ℕ
  | writeByte _ => 1
  | writeInt16 _ => 2
  | writeInt32 _ => 4
  | writeInt64 _ => 8
  | writeBytes bytes => bytes.length
  | advance numBytes => numBytes
  | rewind _ => 0
  | reset => 0

end Op

/-! ## The bytes of a word -/

section
variable {w k : ℕ}

/-- The eight bits from `k` on do not see the sign. -/
theorem setWidth_sshiftRight (x : BitVec w) (h : k + 8 ≤ w) :
    (x.sshiftRight k &&& BitVec.ofNat w 255).setWidth 8 = (x >>> k).setWidth 8 := by
  apply BitVec.eq_of_getLsbD_eq
  intro i hi
  have hmask : (255 : ℕ).testBit i = true := by
    show (2 ^ 8 - 1).testBit i = true
    rw [Nat.testBit_two_pow_sub_one]
    exact decide_eq_true hi
  have hw : i < w := by omega
  have hk : k + i < w := by omega
  simp only [BitVec.getLsbD_setWidth, BitVec.getLsbD_and, BitVec.getLsbD_sshiftRight,
    BitVec.getLsbD_ofNat, BitVec.getLsbD_ushiftRight, hi, hmask, hw, hk, Nat.not_le.mpr hw,
    if_true, decide_true, decide_false, Bool.not_false, Bool.true_and, Bool.and_true]

theorem setWidth_and (x : BitVec w) (h : 8 ≤ w) :
    (x &&& BitVec.ofNat w 255).setWidth 8 = x.setWidth 8 := by
  simpa using setWidth_sshiftRight (k := 0) x (by omega)

/-- Nor the promotion of a short. -/
theorem setWidth_signExtend (x : BitVec 16) (h : k + 8 ≤ 16) :
    ((x.signExtend 32) >>> k).setWidth 8 = (x >>> k).setWidth 8 := by
  apply BitVec.eq_of_getLsbD_eq
  intro i hi
  have hk : k + i < 16 := by omega
  have hk' : k + i < 32 := by omega
  simp only [BitVec.getLsbD_setWidth, BitVec.getLsbD_ushiftRight, BitVec.getLsbD_signExtend, hk,
    hk', if_true, decide_true, Bool.true_and]

end

theorem bytes_int16 (i : Int16) :
    [lowByte i.toInt32, lowByte (i.toInt32 >>> 8)] = le16 i.toUInt16 := by
  have h0 : lowByte i.toInt32 = i.toUInt16.toUInt8 := by
    apply UInt8.toBitVec_inj.mp
    exact (setWidth_and i.toInt32.toBitVec (by decide)).trans
      (setWidth_signExtend (k := 0) i.toBitVec (by decide))
  have h8 : lowByte (i.toInt32 >>> 8) = (i.toUInt16 >>> 8).toUInt8 := by
    apply UInt8.toBitVec_inj.mp
    exact (setWidth_sshiftRight (k := 8) i.toInt32.toBitVec (by decide)).trans
      (setWidth_signExtend i.toBitVec (by decide))
  rw [h0, h8]
  rfl

theorem bytes_int32 (i : Int32) :
    [lowByte i, lowByte (i >>> 8), lowByte (i >>> 16), lowByte (i >>> 24)] = le32 i.toUInt32 := by
  have h0 : lowByte i = i.toUInt32.toUInt8 :=
    UInt8.toBitVec_inj.mp (setWidth_and i.toBitVec (by decide))
  have h8 : lowByte (i >>> 8) = (i.toUInt32 >>> 8).toUInt8 :=
    UInt8.toBitVec_inj.mp (setWidth_sshiftRight (k := 8) i.toBitVec (by decide))
  have h16 : lowByte (i >>> 16) = (i.toUInt32 >>> 16).toUInt8 :=
    UInt8.toBitVec_inj.mp (setWidth_sshiftRight (k := 16) i.toBitVec (by decide))
  have h24 : lowByte (i >>> 24) = (i.toUInt32 >>> 24).toUInt8 :=
    UInt8.toBitVec_inj.mp (setWidth_sshiftRight (k := 24) i.toBitVec (by decide))
  rw [h0, h8, h16, h24]
  rfl

theorem bytes_int64 (i : Int64) :
    [lowByte64 i, lowByte64 (i >>> 8), lowByte64 (i >>> 16), lowByte64 (i >>> 24),
      lowByte64 (i >>> 32), lowByte64 (i >>> 40), lowByte64 (i >>> 48), lowByte64 (i >>> 56)] =
      le64 i.toUInt64 := by
  have h0 : lowByte64 i = i.toUInt64.toUInt8 :=
    UInt8.toBitVec_inj.mp (setWidth_and i.toBitVec (by decide))
  have h8 : lowByte64 (i >>> 8) = (i.toUInt64 >>> 8).toUInt8 :=
    UInt8.toBitVec_inj.mp (setWidth_sshiftRight (k := 8) i.toBitVec (by decide))
  have h16 : lowByte64 (i >>> 16) = (i.toUInt64 >>> 16).toUInt8 :=
    UInt8.toBitVec_inj.mp (setWidth_sshiftRight (k := 16) i.toBitVec (by decide))
  have h24 : lowByte64 (i >>> 24) = (i.toUInt64 >>> 24).toUInt8 :=
    UInt8.toBitVec_inj.mp (setWidth_sshiftRight (k := 24) i.toBitVec (by decide))
  have h32 : lowByte64 (i >>> 32) = (i.toUInt64 >>> 32).toUInt8 :=
    UInt8.toBitVec_inj.mp (setWidth_sshiftRight (k := 32) i.toBitVec (by decide))
  have h40 : lowByte64 (i >>> 40) = (i.toUInt64 >>> 40).toUInt8 :=
    UInt8.toBitVec_inj.mp (setWidth_sshiftRight (k := 40) i.toBitVec (by decide))
  have h48 : lowByte64 (i >>> 48) = (i.toUInt64 >>> 48).toUInt8 :=
    UInt8.toBitVec_inj.mp (setWidth_sshiftRight (k := 48) i.toBitVec (by decide))
  have h56 : lowByte64 (i >>> 56) = (i.toUInt64 >>> 56).toUInt8 :=
    UInt8.toBitVec_inj.mp (setWidth_sshiftRight (k := 56) i.toBitVec (by decide))
  rw [h0, h8, h16, h24, h32, h40, h48, h56]
  rfl

/-! ## The refinement -/

/-- The stream shows the tape: the cursor is the offset and lies in the
memory, which holds every byte that was written. -/
structure Shows (s : BufferOutputStream) (t : Tape UInt8) : Prop where
  cursor : t.cursor = s.offset
  memory : s.buffer.length = s.size
  inside : s.offset ≤ s.size
  small : s.size < 2 ^ 64
  content : ∀ i b, t.cells i = some b → s.buffer[i]? = some b

/-- What an operation needs is representable, and where the memory must
grow the heap grants it. -/
structure Granted (heap : Heap) (s : BufferOutputStream) (need : ℕ) : Prop where
  fits : s.offset + need < 2 ^ 64
  grows : s.bufferProvided = false → s.size < s.offset + need →
    heap s.reallocs ≠ none ∧ s.size + max need 1024 < 2 ^ 64

instance (heap : Heap) (s : BufferOutputStream) (need : ℕ) : Decidable (Granted heap s need) :=
  decidable_of_iff (s.offset + need < 2 ^ 64 ∧ (s.bufferProvided = false →
      s.size < s.offset + need → heap s.reallocs ≠ none ∧ s.size + max need 1024 < 2 ^ 64))
    ⟨fun h => ⟨h.1, h.2⟩, fun h => ⟨h.fits, h.grows⟩⟩

section
variable {heap : Heap} {s s' : BufferOutputStream} {t : Tape UInt8} {need : ℕ}

theorem length_realloc (old : Bytes) (n : ℕ) (fill : ℕ → UInt8) :
    (realloc old n fill).length = n := by
  simp [realloc]

/-- A larger memory keeps the bytes. -/
theorem getElem?_realloc {old : Bytes} {n : ℕ} (fill : ℕ → UInt8) {i : ℕ} {b : UInt8}
    (hn : old.length ≤ n) (h : old[i]? = some b) : (realloc old n fill)[i]? = some b := by
  have hi : i < old.length := (List.getElem?_eq_some_iff.mp h).1
  have hin : i < n := Nat.lt_of_lt_of_le hi hn
  simp [realloc, hin, List.getD_eq_getElem?_getD, h]

/-- **Room is made**, and nothing else: the memory holds what it held, and
what was asked for fits behind the offset. -/
structure Expanded (s s' : BufferOutputStream) (need : ℕ) : Prop where
  room : s'.offset + need ≤ s'.size
  offset : s'.offset = s.offset
  provided : s'.bufferProvided = s.bufferProvided
  memory : s'.buffer.length = s'.size
  small : s'.size < 2 ^ 64
  content : ∀ (i : ℕ) (b : UInt8), s.buffer[i]? = some b → s'.buffer[i]? = some b

theorem expand_ok (hmem : s.buffer.length = s.size) (hsmall : s.size < 2 ^ 64)
    (hin : s.offset ≤ s.size) (hg : Granted heap s need)
    (hroom : s.bufferProvided = true → s.offset + need ≤ s.size) :
    ∃ s', expandBufferIfNeeded heap need s = .ok () s' ∧ Expanded s s' need := by
  have hsum : sizeT (s.offset + need) = s.offset + need := Nat.mod_eq_of_lt hg.fits
  by_cases hneed : s.offset + need > s.size
  · have hprov : s.bufferProvided = false := by
      cases h : s.bufferProvided with
      | false => rfl
      | true => exact absurd (hroom h) (Nat.not_le.mpr hneed)
    obtain ⟨hheap, hsize⟩ := hg.grows hprov hneed
    obtain ⟨fill, hfill⟩ := Option.ne_none_iff_exists'.mp hheap
    have hnew : sizeT (s.size + max need 1024) = s.size + max need 1024 := Nat.mod_eq_of_lt hsize
    refine ⟨{ s with
      buffer := realloc s.buffer (sizeT (s.size + max need 1024)) fill
      size := sizeT (s.size + max need 1024)
      reallocs := s.reallocs + 1 }, ?_, ?_⟩
    · simp only [expandBufferIfNeeded, hsum, if_pos hneed, hprov, hfill, Bool.false_eq_true,
        if_false]
    · have hroom' : s.offset + need ≤ sizeT (s.size + max need 1024) := by
        rw [hnew]
        omega
      refine ⟨hroom', rfl, rfl, length_realloc _ _ _, Nat.mod_lt _ (by decide), ?_⟩
      exact fun i b h => getElem?_realloc fill (by rw [hnew, hmem]; omega) h
  · exact ⟨s, by rw [expandBufferIfNeeded, hsum, if_neg hneed],
      Nat.not_lt.mp hneed, rfl, rfl, hmem, hsmall, fun _ _ h => h⟩

/-- A given buffer is not made larger. -/
theorem expand_throws (hg : Granted heap s need) (hprov : s.bufferProvided = true)
    (hneed : s.size < s.offset + need) :
    expandBufferIfNeeded heap need s = .error .outOfRange s := by
  have hsum : sizeT (s.offset + need) = s.offset + need := Nat.mod_eq_of_lt hg.fits
  rw [expandBufferIfNeeded, hsum, if_pos hneed, if_pos hprov]

section
variable {old bs : Bytes} {n i : ℕ}

theorem length_replaced (h : n + bs.length ≤ old.length) :
    (replaced old bs n).length = old.length := by
  simp only [replaced, List.length_append, List.length_take, List.length_drop]
  omega

theorem getElem?_replaced_of_mem (h : n + bs.length ≤ old.length) (hi : i < bs.length) :
    (replaced old bs n)[n + i]? = bs[i]? := by
  have hlen : (old.take n).length = n := by
    rw [List.length_take]
    omega
  rw [replaced, List.getElem?_append_right (by omega), hlen, Nat.add_sub_cancel_left,
    List.getElem?_append_left hi]

theorem getElem?_replaced_of_not_mem (h : n + bs.length ≤ old.length)
    (hi : ¬ (n ≤ i ∧ i < n + bs.length)) : (replaced old bs n)[i]? = old[i]? := by
  have hlen : (old.take n).length = n := by
    rw [List.length_take]
    omega
  by_cases hlt : i < n
  · rw [replaced, List.getElem?_append_left (by omega), List.getElem?_take, if_pos hlt]
  · rw [replaced, List.getElem?_append_right (by omega), List.getElem?_append_right (by omega),
      List.getElem?_drop]
    congr 1
    omega

end

theorem store_ok {bs : Bytes} (hmem : s.buffer.length = s.size)
    (hroom : s.offset + bs.length ≤ s.size) :
    store bs s = .ok () { s with
      buffer := replaced s.buffer bs s.offset, offset := sizeT (s.offset + bs.length) } :=
  if_pos (hmem ▸ hroom)

theorem andThen_ok {c d : Call} (h : c s = .ok () s') : andThen c d s = d s' := by
  rw [andThen, h]

theorem andThen_error {c d : Call} {fault : WriteFault} (h : c s = .error fault s') :
    andThen c d s = .error fault s' := by
  rw [andThen, h]

/-- **Writing**: the bytes are where the list has them. -/
theorem put_ok {bs : Bytes} (hs : Shows s t) (hg : Granted heap s bs.length)
    (hroom : s.bufferProvided = true → s.offset + bs.length ≤ s.size) :
    ∃ s', put heap bs s = .ok () s' ∧ Shows s' (t.write bs) ∧
      s'.bufferProvided = s.bufferProvided := by
  obtain ⟨s₁, hexpand, he⟩ := expand_ok hs.memory hs.small hs.inside hg hroom
  have hsum : sizeT (s₁.offset + bs.length) = s₁.offset + bs.length :=
    Nat.mod_eq_of_lt (Nat.lt_of_le_of_lt he.room he.small)
  have hlen : s₁.offset + bs.length ≤ s₁.buffer.length := he.memory ▸ he.room
  refine ⟨_, (andThen_ok hexpand).trans (store_ok he.memory he.room), ?_, he.provided⟩
  constructor
  · rw [Tape.cursor_write, hs.cursor, hsum, he.offset]
  · rw [length_replaced hlen, he.memory]
  · rw [hsum]
    exact he.room
  · exact he.small
  · intro i b hcell
    by_cases hi : t.cursor ≤ i ∧ i < t.cursor + bs.length
    · obtain ⟨k, rfl⟩ : ∃ k, i = t.cursor + k := ⟨i - t.cursor, by omega⟩
      rw [t.cells_write_of_mem bs (by omega)] at hcell
      rw [hs.cursor, ← he.offset, getElem?_replaced_of_mem hlen (by omega), hcell]
    · rw [t.cells_write_of_not_mem bs hi] at hcell
      rw [hs.cursor, ← he.offset] at hi
      rw [getElem?_replaced_of_not_mem hlen hi]
      exact he.content i b (hs.content i b hcell)

theorem put_throws {bs : Bytes} (hg : Granted heap s bs.length) (hprov : s.bufferProvided = true)
    (hneed : s.size < s.offset + bs.length) : put heap bs s = .error .outOfRange s := by
  rw [put, andThen_error (expand_throws hg hprov hneed)]

theorem advance_ok {n : ℕ} (hs : Shows s t) (hg : Granted heap s n)
    (hroom : s.bufferProvided = true → s.offset + n ≤ s.size) :
    ∃ s', advance heap n s = .ok () s' ∧ Shows s' (t.advance n) ∧
      s'.bufferProvided = s.bufferProvided := by
  obtain ⟨s₁, hexpand, he⟩ := expand_ok hs.memory hs.small hs.inside hg hroom
  have hsum : sizeT (s₁.offset + n) = s₁.offset + n :=
    Nat.mod_eq_of_lt (Nat.lt_of_le_of_lt he.room he.small)
  refine ⟨_, andThen_ok hexpand, ?_, he.provided⟩
  constructor
  · rw [Tape.cursor_advance, hs.cursor, hsum, he.offset]
  · exact he.memory
  · rw [hsum]
    exact he.room
  · exact he.small
  · exact fun i b hcell => he.content i b (hs.content i b hcell)

theorem advance_throws {n : ℕ} (hg : Granted heap s n) (hprov : s.bufferProvided = true)
    (hneed : s.size < s.offset + n) : advance heap n s = .error .outOfRange s := by
  rw [advance, andThen_error (expand_throws hg hprov hneed)]

theorem rewind_ok {n : ℕ} (hs : Shows s t) (h : n ≤ s.offset) :
    ∃ s', rewind n s = .ok () s' ∧ Shows s' (t.rewind n) ∧
      s'.bufferProvided = s.bufferProvided := by
  refine ⟨_, if_neg (Nat.not_lt.mpr h), ⟨?_, hs.memory, ?_, hs.small, hs.content⟩, rfl⟩
  · rw [Tape.cursor_rewind, hs.cursor]
  · exact Nat.le_trans (Nat.sub_le _ _) hs.inside

/-! ## One operation -/

/-- The list refuses a rewind in front of its first byte. -/
def Op.Refused (t : Tape UInt8) : Op → Prop
  | .rewind numBytes => numBytes > t.cursor
  | _ => False

/-- The operation does what it does on the list; or it throws with the
stream unchanged, on a given buffer or because the list refuses it too. -/
def Follows (heap : Heap) (st : BufferOutputStream × Tape UInt8) (op : Op) : Prop :=
  match op.run heap st.1 with
  | .ok _ s' => Shows s' (op.onTape st.2) ∧ s'.bufferProvided = st.1.bufferProvided
  | .error .outOfRange s' => s' = st.1 ∧ (st.1.bufferProvided = true ∨ op.Refused st.2)
  | .error _ _ => False

theorem Follows.ok {op : Op} (h : op.run heap s = .ok () s') (hs : Shows s' (op.onTape t))
    (hprov : s'.bufferProvided = s.bufferProvided) : Follows heap (s, t) op := by
  rw [Follows, h]
  exact ⟨hs, hprov⟩

theorem Follows.throws {op : Op} (h : op.run heap s = .error .outOfRange s)
    (hwhy : s.bufferProvided = true ∨ op.Refused t) : Follows heap (s, t) op := by
  rw [Follows, h]
  exact ⟨rfl, hwhy⟩

/-- The writes are one operation on the bytes of the word. -/
theorem follows_put {op : Op} (bs : Bytes) (hrun : op.run heap = put heap bs)
    (htape : op.onTape t = t.write bs) (hs : Shows s t) (hg : Granted heap s bs.length) :
    Follows heap (s, t) op := by
  by_cases hroom : s.bufferProvided = true → s.offset + bs.length ≤ s.size
  · obtain ⟨s', hput, hshows, hprov⟩ := put_ok hs hg hroom
    exact .ok (hrun ▸ hput) (htape ▸ hshows) hprov
  · obtain ⟨hprov, hneed⟩ := Classical.not_imp.mp hroom
    exact .throws (hrun ▸ put_throws hg hprov (Nat.not_le.mp hneed)) (.inl hprov)

/-- **One operation**, wherever the heap grants what it needs. -/
theorem follows_of_granted (op : Op) (hs : Shows s t) (hg : Granted heap s op.need) :
    Follows heap (s, t) op := by
  cases op with
  | writeByte byte => exact follows_put _ rfl rfl hs hg
  | writeInt16 i =>
      refine follows_put (le16 i.toUInt16) ?_ rfl hs hg
      rw [← bytes_int16]
      rfl
  | writeInt32 i =>
      refine follows_put (le32 i.toUInt32) ?_ rfl hs hg
      rw [← bytes_int32]
      rfl
  | writeInt64 i =>
      refine follows_put (le64 i.toUInt64) ?_ rfl hs hg
      rw [← bytes_int64]
      rfl
  | writeBytes bytes => exact follows_put _ rfl rfl hs hg
  | advance n =>
      by_cases hroom : s.bufferProvided = true → s.offset + n ≤ s.size
      · obtain ⟨s', hrun, hshows, hprov⟩ := advance_ok hs hg hroom
        exact .ok hrun hshows hprov
      · obtain ⟨hprov, hneed⟩ := Classical.not_imp.mp hroom
        exact .throws (advance_throws hg hprov (Nat.not_le.mp hneed)) (.inl hprov)
  | rewind n =>
      by_cases hn : n ≤ s.offset
      · obtain ⟨s', hrun, hshows, hprov⟩ := rewind_ok hs hn
        have htape : (Op.rewind n).onTape t = t.rewind n :=
          if_neg (by rw [hs.cursor]; exact Nat.not_lt.mpr hn)
        exact .ok hrun (htape ▸ hshows) hprov
      · refine .throws (if_pos (Nat.not_le.mp hn)) (.inr ?_)
        show n > t.cursor
        rw [hs.cursor]
        exact Nat.not_le.mp hn
  | reset =>
      exact .ok rfl ⟨rfl, hs.memory, Nat.zero_le _, hs.small, hs.content⟩ rfl

/-- Where the heap grants it and the list does not refuse it, a growing
stream returns. -/
theorem run_ok {op : Op} (hs : Shows s t) (hgrow : s.bufferProvided = false)
    (hg : Granted heap s op.need) (href : ¬ op.Refused t) :
    ∃ s', op.run heap s = .ok () s' ∧ Shows s' (op.onTape t) ∧ s'.bufferProvided = false := by
  have hfollows := follows_of_granted op hs hg
  rw [Follows] at hfollows
  cases hrun : op.run heap s with
  | ok _ s' =>
      rw [hrun] at hfollows
      exact ⟨s', rfl, hfollows.1, hfollows.2.trans hgrow⟩
  | error fault s' =>
      rw [hrun] at hfollows
      cases fault with
      | outOfRange =>
          rcases hfollows.2 with hprov | hrefused
          · rw [hgrow] at hprov
            cases hprov
          · exact absurd hrefused href
      | badAlloc => exact hfollows.elim
      | overrun => exact hfollows.elim

end

/-! ## Programs that serialize -/

/-- What a `serialize` does to the stream it is given. -/
inductive Prog where
  | done
  | op (op : Op) (next : Prog)
  | getOffset (next : ℕ → Prog)

namespace Prog

def append : Prog → Prog → Prog
  | done, q => q
  | op o next, q => op o (next.append q)
  | getOffset next, q => getOffset fun n => (next n).append q

def run (heap : Heap) : Prog → Call
  | done => fun s => .ok () s
  | op o next => andThen (o.run heap) (next.run heap)
  | getOffset next => fun s => (next s.offset).run heap s

/-- Every operation of the execution is granted. -/
def Meets (heap : Heap) : Prog → BufferOutputStream → Prop
  | done, _ => True
  | op o next, s => Granted heap s o.need ∧ ∀ s', o.run heap s = .ok () s' → next.Meets heap s'
  | getOffset next, s => (next s.offset).Meets heap s

/-- `Wrapped::serialize`, around what the content does. -/
def wrapped (content : Prog) : Prog :=
  op (.advance 1) <| getOffset fun len => content.append <| getOffset fun offset =>
    op (.rewind (sizeT (sizeT (2 ^ 64 + offset - len) + 1))) <|
    op (.writeByte (UInt8.ofNat (sizeT (2 ^ 64 + offset - len)))) <|
    op (.advance (sizeT (2 ^ 64 + offset - len))) done

/-- On a growing stream, the program writes `bs` at the cursor. -/
def Writes (heap : Heap) (p : Prog) (bs : Bytes) : Prop :=
  ∀ s t, Shows s t → s.bufferProvided = false → p.Meets heap s →
    ∃ s', p.run heap s = .ok () s' ∧ Shows s' (t.write bs) ∧ s'.bufferProvided = false

variable {heap : Heap} {p q : Prog} {bs cs : Bytes}

theorem run_append (p q : Prog) : (p.append q).run heap = andThen (p.run heap) (q.run heap) := by
  induction p with
  | done => rfl
  | op o next ih =>
      funext s
      simp only [append, run, ih, andThen]
      cases o.run heap s <;> rfl
  | getOffset next ih =>
      funext s
      show ((next s.offset).append q).run heap s = _
      rw [ih]
      rfl

theorem meets_append (p q : Prog) (s : BufferOutputStream) :
    (p.append q).Meets heap s ↔
      p.Meets heap s ∧ ∀ s', p.run heap s = .ok () s' → q.Meets heap s' := by
  induction p generalizing s with
  | done =>
      refine ⟨fun h => ⟨trivial, fun s' hrun => ?_⟩, fun h => h.2 s rfl⟩
      cases hrun
      exact h
  | op o next ih =>
      constructor
      · rintro ⟨hg, hnext⟩
        refine ⟨⟨hg, fun s' hs' => ((ih s').mp (hnext s' hs')).1⟩, fun s' hrun => ?_⟩
        cases ho : o.run heap s with
        | ok _ s₁ => exact ((ih s₁).mp (hnext s₁ ho)).2 s' ((andThen_ok ho).symm.trans hrun)
        | error fault s₁ => cases (andThen_error ho).symm.trans hrun
      · rintro ⟨⟨hg, hp⟩, hq⟩
        refine ⟨hg, fun s₁ ho => (ih s₁).mpr ⟨hp s₁ ho, fun s' hrun => hq s' ?_⟩⟩
        exact (andThen_ok ho).trans hrun
  | getOffset next ih => exact ih s.offset s

theorem Writes.done : Writes heap done [] := by
  intro s t hs hgrow _
  exact ⟨s, rfl, t.write_nil.symm ▸ hs, hgrow⟩

theorem Writes.append (hp : Writes heap p bs) (hq : Writes heap q cs) :
    Writes heap (p.append q) (bs ++ cs) := by
  intro s t hs hgrow hmeets
  obtain ⟨hp', hq'⟩ := (meets_append p q s).mp hmeets
  obtain ⟨s₁, hrun₁, hs₁, hgrow₁⟩ := hp s t hs hgrow hp'
  obtain ⟨s₂, hrun₂, hs₂, hgrow₂⟩ := hq s₁ _ hs₁ hgrow₁ (hq' s₁ hrun₁)
  refine ⟨s₂, ?_, t.write_write bs cs ▸ hs₂, hgrow₂⟩
  rw [run_append, andThen_ok hrun₁, hrun₂]

/-- **The length is patched in behind the content.** -/
theorem Writes.wrapped (hp : Writes heap p bs) :
    Writes heap (wrapped p) (serializeWrapped bs) := by
  intro s t hs hgrow ⟨hg₀, hmeets⟩
  -- leave a byte for the length
  obtain ⟨s₀, hrun₀, hs₀, hgrow₀⟩ := run_ok hs hgrow hg₀ (fun h => h)
  obtain ⟨hp', hrest⟩ := (meets_append p _ s₀).mp (hmeets s₀ hrun₀)
  obtain ⟨s₁, hrun₁, hs₁, hgrow₁⟩ := hp s₀ _ hs₀ hgrow₀ hp'
  obtain ⟨hg₁, hrest⟩ := hrest s₁ hrun₁
  -- what was written since is the difference of the offsets
  have hoff₀ : s₀.offset = t.cursor + 1 := hs₀.cursor.symm
  have hoff₁ : s₁.offset = t.cursor + 1 + bs.length := hs₁.cursor.symm
  have hlt := Nat.lt_of_le_of_lt hs₁.inside hs₁.small
  have hlen : sizeT (2 ^ 64 + s₁.offset - s₀.offset) = bs.length := by
    rw [sizeT, hoff₀, hoff₁]
    omega
  have hback : sizeT (bs.length + 1) = bs.length + 1 := Nat.mod_eq_of_lt (by omega)
  rw [hlen, hback] at hg₁ hrest
  -- go back, write it, and go forward again
  have hnear : ¬ (bs.length + 1 > ((t.advance 1).write bs).cursor) := by
    rw [Tape.cursor_write, Tape.cursor_advance]
    omega
  obtain ⟨s₂, hrun₂, hs₂, hgrow₂⟩ := run_ok hs₁ hgrow₁ hg₁ hnear
  have htape : (Op.rewind (bs.length + 1)).onTape ((t.advance 1).write bs) =
      ((t.advance 1).write bs).rewind (bs.length + 1) :=
    if_neg hnear
  replace hs₂ : Shows s₂ (((t.advance 1).write bs).rewind (bs.length + 1)) := by
    rw [← htape]
    exact hs₂
  obtain ⟨hg₂, hrest⟩ := hrest s₂ hrun₂
  obtain ⟨s₃, hrun₃, hs₃, hgrow₃⟩ := run_ok hs₂ hgrow₂ hg₂ (fun h => h)
  obtain ⟨hg₃, -⟩ := hrest s₃ hrun₃
  obtain ⟨s₄, hrun₄, hs₄, hgrow₄⟩ := run_ok hs₃ hgrow₃ hg₃ (fun h => h)
  refine ⟨s₄, ?_, t.write_patch _ bs ▸ hs₄, hgrow₄⟩
  rw [Prog.wrapped, run, andThen_ok hrun₀]
  show (p.append _).run heap s₀ = _
  rw [run_append, andThen_ok hrun₁]
  show (op _ _).run heap s₁ = _
  rw [hlen, hback, run, andThen_ok hrun₂, run, andThen_ok hrun₃, run, andThen_ok hrun₄]
  rfl

end Prog

/-! ## Nested objects -/

namespace Op

/-- The bytes of a write, none for the moves. -/
def written : Op → Bytes
  | writeByte byte => [byte]
  | writeInt16 i => le16 i.toUInt16
  | writeInt32 i => le32 i.toUInt32
  | writeInt64 i => le64 i.toUInt64
  | writeBytes bytes => bytes
  | _ => []

def isWrite : Op → Bool
  | advance _ | rewind _ | reset => false
  | _ => true

end Op

/-- An object to serialize: writes in any order, with `Wrapped` objects
among them at any depth. -/
inductive Content where
  | empty
  | write (op : Op) (h : op.isWrite = true)
  | append (c d : Content)
  | wrapped (c : Content)

namespace Content

def serialize : Content → Prog
  | empty => .done
  | write op _ => .op op .done
  | append c d => c.serialize.append d.serialize
  | wrapped c => Prog.wrapped c.serialize

def bytes : Content → Bytes
  | empty => []
  | write op _ => op.written
  | append c d => c.bytes ++ d.bytes
  | wrapped c => serializeWrapped c.bytes

/-- **Nesting**: what an object writes is the bytes of the wire format. -/
theorem writes (heap : Heap) (c : Content) : Prog.Writes heap c.serialize c.bytes := by
  induction c with
  | empty => exact .done
  | write op h =>
      intro s t hs hgrow ⟨hg, _⟩
      have href : ¬ op.Refused t := by
        cases op with
        | rewind n => cases h
        | _ => exact fun h => h
      have htape : op.onTape t = t.write op.written := by
        cases op with
        | advance n => cases h
        | rewind n => cases h
        | reset => cases h
        | _ => rfl
      obtain ⟨s', hrun, hs', hgrow'⟩ := run_ok hs hgrow hg href
      exact ⟨s', andThen_ok hrun, htape ▸ hs', hgrow'⟩
  | append c d ihc ihd => exact ihc.append ihd
  | wrapped c ih => exact ih.wrapped

end Content

/-! ## Runs -/

/-- A new stream: nothing is written, the memory holds anything. -/
structure Fresh (s : BufferOutputStream) : Prop where
  offset : s.offset = 0
  memory : s.buffer.length = s.size
  small : s.size < 2 ^ 64

/-- The stream and the list side by side: the list takes the operations
that did not throw. -/
def both (heap : Heap) (st : BufferOutputStream × Tape UInt8) (op : Op) :
    BufferOutputStream × Tape UInt8 :=
  match op.run heap st.1 with
  | .ok _ s' => (s', op.onTape st.2)
  | .error _ s' => (s', st.2)

/-- The heap grants what the operation needs. -/
def Grants (heap : Heap) (st : BufferOutputStream × Tape UInt8) (op : Op) : Prop :=
  Granted heap st.1 op.need

instance (heap : Heap) (st : BufferOutputStream × Tape UInt8) (op : Op) :
    Decidable (Grants heap st op) :=
  inferInstanceAs (Decidable (Granted heap st.1 op.need))

section
variable {heap : Heap} {s : BufferOutputStream} {st : BufferOutputStream × Tape UInt8}

theorem Fresh.shows (hs : Fresh s) : Shows s {} where
  cursor := hs.offset.symm
  memory := hs.memory
  inside := hs.offset ▸ Nat.zero_le _
  small := hs.small
  content := fun _ _ h => (nomatch h)

/-- What one operation keeps. -/
theorem both_shows (op : Op) (hs : Shows st.1 st.2) (hg : Grants heap st op) :
    Shows (both heap st op).1 (both heap st op).2 ∧
      (both heap st op).1.bufferProvided = st.1.bufferProvided := by
  have hfollows := follows_of_granted op hs hg
  rw [Follows] at hfollows
  rw [both]
  cases hrun : op.run heap st.1 with
  | ok _ s' =>
      rw [hrun] at hfollows
      exact hfollows
  | error fault s' =>
      rw [hrun] at hfollows
      cases fault with
      | outOfRange =>
          obtain ⟨rfl, -⟩ := hfollows
          exact ⟨hs, rfl⟩
      | badAlloc => exact hfollows.elim
      | overrun => exact hfollows.elim

end

/-- **The output stream is a byte list.** In every run whose operations the
heap grants, each operation does what it does on the list or throws with the
stream unchanged, and the stream shows the list at the end. A `Wrapped`
object, whatever is nested in it, is then written as its length byte and its
content, and the cursor is behind it. -/
theorem follows_run (heap : Heap) (s : BufferOutputStream) (hs : Fresh s) (ops : List Op)
    (hg : Runs.Along (both heap) (Grants heap) (s, {}) ops) :
    Runs.Along (both heap) (Follows heap) (s, {}) ops ∧
      Shows (Runs.exec (both heap) (s, {}) ops).1 (Runs.exec (both heap) (s, {}) ops).2 ∧
      (s.bufferProvided = false → ∀ c : Content,
        (Content.wrapped c).serialize.Meets heap (Runs.exec (both heap) (s, {}) ops).1 →
        ∃ s', (Content.wrapped c).serialize.run heap (Runs.exec (both heap) (s, {}) ops).1 =
            .ok () s' ∧
          Shows s' ((Runs.exec (both heap) (s, {}) ops).2.write (serializeWrapped c.bytes))) := by
  have hend := hg.invariant
    (I := fun st => Shows st.1 st.2 ∧ st.1.bufferProvided = s.bufferProvided)
    (fun st op hst hop => (both_shows op hst.1 hop).imp_right fun h => h.trans hst.2)
    ⟨hs.shows, rfl⟩
  refine ⟨?_, hend.1, fun hgrow c hmeets => ?_⟩
  · refine hg.strengthen (I := fun st => Shows st.1 st.2) ?_ ?_ hs.shows
    · exact fun st op hst hop => (both_shows op hst hop).1
    · exact fun st op hst hop => follows_of_granted op hst hop
  · obtain ⟨s', hrun, hshows, -⟩ := Content.writes heap (.wrapped c) _ _ hend.1
      (hend.2.trans hgrow) hmeets
    exact ⟨s', hrun, hshows⟩

/-- Six bytes, of which one is written again and one stepped over; a rewind that goes too far;
and more bytes than the memory has grown by. -/
def grownRun : List Op :=
  [.writeInt32 1, .writeBytes [2, 3], .rewind 3, .writeByte 4, .advance 1, .rewind 6,
    .writeBytes (List.replicate 1500 5), .rewind 2, .writeInt16 6]

/-- The memory grows twice. -/
theorem follows_run_grown :
    Runs.Along (both fun _ => some fun _ => 0) (Follows fun _ => some fun _ => 0)
        (⟨[0, 0], 2, 0, false, 0⟩, {}) grownRun ∧
      ∃ st, Runs.exec (both fun _ => some fun _ => 0) (⟨[0, 0], 2, 0, false, 0⟩, {}) grownRun =
        st ∧ Shows st.1 st.2 ∧ st.1.offset = 1505 ∧ st.1.reallocs = 2 := by
  obtain ⟨hfollows, hshows, -⟩ := follows_run (fun _ => some fun _ => 0)
    ⟨[0, 0], 2, 0, false, 0⟩ ⟨rfl, rfl, by decide⟩ grownRun (by decide +kernel)
  exact ⟨hfollows, _, rfl, hshows, by decide +kernel, by decide +kernel⟩

/-- A heap that is full once, and then has room again. -/
def fullOnce : Heap := fun n => if n = 0 then none else some fun _ => 0

/-- A reallocation that fails leaves the offset behind a memory of size 0;
behind 1024 bytes, the next write leaves the memory. -/
theorem follows_fails :
    (¬ ∀ (heap : Heap) (s : BufferOutputStream), Fresh s → ∀ ops,
      Runs.Along (both heap) (Follows heap) (s, {}) ops) ∧
      ∃ s', (Op.writeByte 0).run fullOnce (Runs.exec (both fullOnce)
        (⟨List.replicate 1024 0, 1024, 0, false, 0⟩, {})
          [.writeBytes (List.replicate 1024 7), .writeByte 0]).1 = .error .overrun s' := by
  constructor
  · intro h
    exact (h fullOnce ⟨[0], 1, 0, false, 0⟩ ⟨rfl, rfl, by decide⟩
      [.writeByte 1, .writeByte 2]).2.1
  · have hfull : (Runs.exec (both fullOnce) (⟨List.replicate 1024 0, 1024, 0, false, 0⟩, {})
        [.writeBytes (List.replicate 1024 7), .writeByte 0]).1 = ⟨[], 0, 1024, false, 1⟩ := by
      decide +kernel
    have hgrown : expandBufferIfNeeded fullOnce 1 ⟨[], 0, 1024, false, 1⟩ =
        .ok () ⟨realloc [] 1024 fun _ => 0, 1024, 1024, false, 2⟩ := rfl
    have hwrite : (Op.writeByte 0).run fullOnce =
        andThen (expandBufferIfNeeded fullOnce 1) (store [0]) := rfl
    have hstore : store [0] ⟨realloc [] 1024 fun _ => 0, 1024, 1024, false, 2⟩ =
        .error .overrun ⟨realloc [] 1024 fun _ => 0, 1024, 1024, false, 2⟩ :=
      if_neg (by rw [length_realloc]; simp)
    rw [hfull, hwrite, andThen_ok hgrown]
    exact ⟨_, hstore⟩

end BufferOutputStream

end Tgvoip
