import Tgvoip.Lib.ByteReader
import Tgvoip.Lib.Fallible

/-!
# BufferInputStream — reading that throws, and reading that asks

`tools/Buffers.{h,cpp}`, the input stream. There are two readers for
everything: `Read…` throws when bytes are missing, `TryRead…` returns
false. Each was written for itself: the first compares what is left with
what it needs, the second adds what it needs to the offset, in 64 bits.

A call keeps the stream also when it throws. A read behind the bytes is an
`overrun`: the program has then no defined state.
-/

namespace Tgvoip

open ByteReader (Bytes Reader)
open Fallible

/-- What a call does instead of returning. -/
inductive ReadFault where
  | outOfRange
  | assertion
  | overrun
  deriving DecidableEq, Repr

structure BufferInputStream where
  buffer : Bytes
  /-- The length is a `size_t`. -/
  fits : buffer.length < 2 ^ 64
  offset : UInt64 := 0

namespace BufferInputStream

variable {α β : Type}

abbrev Call (α : Type) := EStateM ReadFault BufferInputStream α

def length (s : BufferInputStream) : UInt64 := UInt64.ofNat s.buffer.length

def advance (s : BufferInputStream) (n : UInt64) : BufferInputStream :=
  { s with offset := s.offset + n }

/-- `buffer[offset + i]`. -/
def byteAt (s : BufferInputStream) (i : ℕ) : UInt8 := s.buffer.getD (s.offset.toNat + i) 0

/-- What `n` bytes stand for; the offset is moved behind them. -/
def load (n : UInt64) (value : (ℕ → UInt8) → α) : Call α := fun s =>
  if s.offset.toNat + n.toNat ≤ s.buffer.length then .ok (value s.byteAt) (s.advance n)
  else .error .overrun s

/-! ## Values -/

/-- Two bytes, both promoted to `int`. -/
def intOfTwo (b : ℕ → UInt8) : Int32 :=
  (b 0).toUInt32.toInt32 ||| ((b 1).toUInt32.toInt32 <<< 8)

/-- `(int32_t)x & 0xFF`, and so on for the other types. -/
def signed32 (x : UInt8) : Int32 := x.toUInt32.toInt32 &&& 0xFF

def unsigned32 (x : UInt8) : UInt32 := x.toUInt32 &&& 0xFF

def signed64 (x : UInt8) : Int64 := x.toUInt64.toInt64 &&& 0xFF

def unsigned64 (x : UInt8) : UInt64 := x.toUInt64 &&& 0xFF

def int32Of (b : ℕ → UInt8) : Int32 :=
  signed32 (b 0) ||| (signed32 (b 1) <<< 8) ||| (signed32 (b 2) <<< 16) |||
    (signed32 (b 3) <<< 24)

def uint32Of (b : ℕ → UInt8) : UInt32 :=
  unsigned32 (b 0) ||| (unsigned32 (b 1) <<< 8) ||| (unsigned32 (b 2) <<< 16) |||
    (unsigned32 (b 3) <<< 24)

def int64Of (b : ℕ → UInt8) : Int64 :=
  signed64 (b 0) ||| (signed64 (b 1) <<< 8) ||| (signed64 (b 2) <<< 16) |||
    (signed64 (b 3) <<< 24) ||| (signed64 (b 4) <<< 32) ||| (signed64 (b 5) <<< 40) |||
    (signed64 (b 6) <<< 48) ||| (signed64 (b 7) <<< 56)

def uint64Of (b : ℕ → UInt8) : UInt64 :=
  unsigned64 (b 0) ||| (unsigned64 (b 1) <<< 8) ||| (unsigned64 (b 2) <<< 16) |||
    (unsigned64 (b 3) <<< 24) ||| (unsigned64 (b 4) <<< 32) ||| (unsigned64 (b 5) <<< 40) |||
    (unsigned64 (b 6) <<< 48) ||| (unsigned64 (b 7) <<< 56)

/-- The three bytes behind a first byte of 254 or 255. -/
def tlLengthOf (b : ℕ → UInt8) : UInt32 :=
  unsigned32 (b 0) ||| (unsigned32 (b 1) <<< 8) ||| (unsigned32 (b 2) <<< 16)

/-! ## Read -/

def seek (offset : UInt64) : Call Unit := fun s =>
  if offset > s.length then .error .outOfRange s else .ok () { s with offset }

def ensureEnoughRemaining (need : UInt64) : Call Unit := fun s =>
  if s.length - s.offset < need then .error .outOfRange s else .ok () s

/-- A reader of the first family. -/
def reading (n : UInt64) (value : (ℕ → UInt8) → α) : Call α := do
  ensureEnoughRemaining n
  load n value

def readByte : Call UInt8 := reading 1 fun b => b 0

def readInt16 : Call Int16 := reading 2 fun b => (intOfTwo b).toInt16

def readInt32 : Call Int32 := reading 4 int32Of

def readInt64 : Call Int64 := reading 8 int64Of

def readUInt16 : Call UInt16 := Int16.toUInt16 <$> readInt16

def readUInt32 : Call UInt32 := Int32.toUInt32 <$> readInt32

def readUInt64 : Call UInt64 := Int64.toUInt64 <$> readInt64

def readBytes (count : UInt64) : Call Bytes :=
  reading count fun b => (List.range count.toNat).map b

def assertRemaining (need : UInt64) : Call Unit := fun s =>
  if s.length - s.offset ≥ need then .ok () s else .error .assertion s

def readTlLength : Call UInt32 := do
  let l ← readByte
  if l < 254 then pure l.toUInt32
  else do
    assertRemaining 3
    reading 3 tlLengthOf

/-! ## TryRead -/

/-- A reader of the second family. -/
def tryReading (n : UInt64) (value : (ℕ → UInt8) → α) : Call (Option α) := fun s =>
  if s.offset + n > s.length then .ok none s else (some <$> load n value) s

def tryReadUInt8 : Call (Option UInt8) := tryReading 1 fun b => b 0

def tryReadUInt16 : Call (Option UInt16) := tryReading 2 fun b => (intOfTwo b).toUInt32.toUInt16

def tryReadUInt32 : Call (Option UInt32) := tryReading 4 uint32Of

def tryReadUInt64 : Call (Option UInt64) := tryReading 8 uint64Of

def tryReadInt16 : Call (Option Int16) := tryReading 2 fun b => (intOfTwo b).toInt16

def tryReadInt32 : Call (Option Int32) := tryReading 4 int32Of

def tryReadInt64 : Call (Option Int64) := tryReading 8 int64Of

def tryReadBytes (len : UInt64) : Call (Option Bytes) :=
  tryReading len fun b => (List.range len.toNat).map b

def has (s : BufferInputStream) (len : UInt64) : Bool := s.offset + len > s.length

/-- The rest of a long TL length: the one check that does not add. -/
def tryReadLong : Call (Option UInt32) := fun s =>
  if s.length - s.offset < 3 then .ok none s else (some <$> load 3 tlLengthOf) s

def tryReadTlLength : Call (Option UInt32) := do
  match ← tryReadUInt8 with
  | none => pure none
  | some byte => if byte < 254 then pure (some byte.toUInt32) else tryReadLong

/-! ## The kinds of read -/

inductive ReadKind where
  | uint8 | uint16 | uint32 | uint64 | int16 | int32 | int64
  | bytes (count : UInt64)
  | tlLength

namespace ReadKind

@[reducible] def Value : ReadKind → Type
  | uint8 => UInt8
  | uint16 => UInt16
  | uint32 => UInt32
  | uint64 => UInt64
  | int16 => Int16
  | int32 => Int32
  | int64 => Int64
  | bytes _ => Bytes
  | tlLength => UInt32

def read : (k : ReadKind) → Call k.Value
  | uint8 => readByte
  | uint16 => readUInt16
  | uint32 => readUInt32
  | uint64 => readUInt64
  | int16 => readInt16
  | int32 => readInt32
  | int64 => readInt64
  | bytes count => readBytes count
  | tlLength => readTlLength

def tryRead : (k : ReadKind) → Call (Option k.Value)
  | uint8 => tryReadUInt8
  | uint16 => tryReadUInt16
  | uint32 => tryReadUInt32
  | uint64 => tryReadUInt64
  | int16 => tryReadInt16
  | int32 => tryReadInt32
  | int64 => tryReadInt64
  | bytes len => tryReadBytes len
  | tlLength => tryReadTlLength

/-- The bytes that the first check asks for. -/
def need : ReadKind → UInt64
  | uint8 => 1
  | uint16 => 2
  | uint32 => 4
  | uint64 => 8
  | int16 => 2
  | int32 => 4
  | int64 => 8
  | bytes count => count
  | tlLength => 1

end ReadKind

/-! ## One read -/

section
variable {s : BufferInputStream} {n : UInt64}

theorem toNat_length (s : BufferInputStream) : s.length.toNat = s.buffer.length := by
  rw [length, UInt64.toNat_ofNat']
  exact Nat.mod_eq_of_lt s.fits

/-- The offset is in the bytes or behind the last one. -/
def Bounded (s : BufferInputStream) : Prop := s.offset ≤ s.length

theorem bounded_iff : s.Bounded ↔ s.offset.toNat ≤ s.buffer.length := by
  rw [Bounded, UInt64.le_iff_toNat_le, toNat_length]

/-- There are `n` bytes from the offset on. -/
def Room (s : BufferInputStream) (n : UInt64) : Prop :=
  s.offset.toNat + n.toNat ≤ s.buffer.length

instance : Decidable (s.Room n) := inferInstanceAs (Decidable (_ ≤ _))

/-- The first family's check. -/
theorem remaining_lt_iff (hs : s.Bounded) : s.length - s.offset < n ↔ ¬ s.Room n := by
  have hle := bounded_iff.mp hs
  rw [UInt64.lt_iff_toNat_lt, UInt64.toNat_sub_of_le _ _ hs, toNat_length, Room]
  omega

/-- The second family's check, while the sum fits. -/
theorem lt_offset_add_iff (hfit : s.offset.toNat + n.toNat < 2 ^ 64) :
    s.length < s.offset + n ↔ ¬ s.Room n := by
  rw [UInt64.lt_iff_toNat_lt, UInt64.toNat_add, Nat.mod_eq_of_lt hfit, toNat_length, Room]
  omega

/-- A sum that does not fit comes out as a small one. -/
theorem not_lt_offset_add (hs : s.Bounded) (hwrap : 2 ^ 64 ≤ s.offset.toNat + n.toNat) :
    ¬ s.length < s.offset + n := by
  have hle := bounded_iff.mp hs
  have hoff := s.offset.toNat_lt
  have hn := n.toNat_lt
  have hfits := s.fits
  rw [UInt64.lt_iff_toNat_lt, UInt64.toNat_add, toNat_length]
  omega

theorem Room.fits (h : s.Room n) : s.offset.toNat + n.toNat < 2 ^ 64 :=
  Nat.lt_of_le_of_lt h s.fits

theorem Room.toNat_advance (h : s.Room n) :
    (s.advance n).offset.toNat = s.offset.toNat + n.toNat := by
  rw [advance, UInt64.toNat_add, Nat.mod_eq_of_lt h.fits]

theorem Room.bounded (h : s.Room n) : (s.advance n).Bounded := by
  rw [bounded_iff, h.toNat_advance]
  exact h

variable (value : (ℕ → UInt8) → α)

theorem load_ok (h : s.Room n) : load n value s = .ok (value s.byteAt) (s.advance n) := if_pos h

theorem load_overruns (h : ¬ s.Room n) : load n value s = .error .overrun s := if_neg h

theorem reading_ok (hs : s.Bounded) (h : s.Room n) :
    reading n value s = .ok (value s.byteAt) (s.advance n) := by
  have hcheck : ensureEnoughRemaining n s = .ok () s :=
    if_neg fun hlt => (remaining_lt_iff hs).mp hlt h
  rw [reading, bind_ok hcheck, load_ok value h]

theorem reading_throws (hs : s.Bounded) (h : ¬ s.Room n) :
    reading n value s = .error .outOfRange s := by
  have hcheck : ensureEnoughRemaining n s = .error .outOfRange s :=
    if_pos ((remaining_lt_iff hs).mpr h)
  rw [reading, bind_error hcheck]

theorem tryReading_ok (h : s.Room n) :
    tryReading n value s = .ok (some (value s.byteAt)) (s.advance n) := by
  have hcheck : ¬ s.offset + n > s.length := fun hlt => (lt_offset_add_iff h.fits).mp hlt h
  rw [tryReading, if_neg hcheck, map_ok some (load_ok value h)]

theorem tryReading_refuses (hfit : s.offset.toNat + n.toNat < 2 ^ 64) (h : ¬ s.Room n) :
    tryReading n value s = .ok none s := by
  rw [tryReading, if_pos ((lt_offset_add_iff hfit).mpr h)]

theorem tryReading_overruns (hs : s.Bounded) (hwrap : 2 ^ 64 ≤ s.offset.toNat + n.toNat) :
    tryReading n value s = .error .overrun s := by
  have hroom : ¬ s.Room n := fun h => Nat.not_lt.mpr hwrap h.fits
  rw [tryReading, if_neg (not_lt_offset_add hs hwrap), map_error some (load_overruns value hroom)]

/-- The throwing reader of another type is a cast. -/
theorem map_reading (f : α → β) : f <$> reading n value = reading n fun b => f (value b) := by
  funext s
  by_cases hcheck : s.length - s.offset < n
  · have hthrow : ensureEnoughRemaining n s = .error .outOfRange s := if_pos hcheck
    rw [reading, reading, map_error f (bind_error hthrow), bind_error hthrow]
  · have hpass : ensureEnoughRemaining n s = .ok () s := if_neg hcheck
    rw [reading, reading, bind_ok hpass]
    by_cases hroom : s.Room n
    · rw [map_ok f ((bind_ok hpass).trans (load_ok value hroom)), load_ok _ hroom]
    · rw [map_error f ((bind_ok hpass).trans (load_overruns value hroom)), load_overruns _ hroom]

end

/-! ## Both families -/

section
variable {s : BufferInputStream}

/-- Either both return, the same value and the same stream, or one returns
false, the other throws or fails an assertion, and the stream is as before. -/
def Agrees (tryRead : Call (Option α)) (read : Call α) (s : BufferInputStream) : Prop :=
  (∃ a s', tryRead s = .ok (some a) s' ∧ read s = .ok a s' ∧ s'.Bounded) ∨
    (tryRead s = .ok none s ∧ ∃ fault, fault ≠ .overrun ∧ read s = .error fault s)

theorem agrees_reading_iff {n : UInt64} (value : (ℕ → UInt8) → α) (hs : s.Bounded) :
    Agrees (tryReading n value) (reading n value) s ↔ s.offset.toNat + n.toNat < 2 ^ 64 := by
  constructor
  · intro h
    by_contra hwrap
    have hover := tryReading_overruns value hs (Nat.not_lt.mp hwrap)
    rcases h with ⟨a, s', htry, -⟩ | ⟨htry, -⟩ <;> cases hover.symm.trans htry
  · intro hfit
    by_cases hroom : s.Room n
    · exact .inl ⟨_, _, tryReading_ok value hroom, reading_ok value hs hroom, hroom.bounded⟩
    · exact .inr ⟨tryReading_refuses value hfit hroom, .outOfRange, by decide,
        reading_throws value hs hroom⟩

theorem toUInt16_toInt16 (x : Int32) : x.toInt16.toUInt16 = x.toUInt32.toUInt16 := by
  apply UInt16.toBitVec_inj.mp
  show x.toBitVec.signExtend 16 = x.toBitVec.setWidth 16
  exact BitVec.signExtend_eq_setWidth_of_le _ (by decide)

theorem readUInt16_eq : readUInt16 = reading 2 fun b => (intOfTwo b).toUInt32.toUInt16 := by
  rw [readUInt16, readInt16, map_reading]
  simp only [toUInt16_toInt16]

theorem readUInt32_eq : readUInt32 = reading 4 uint32Of := map_reading int32Of Int32.toUInt32

theorem readUInt64_eq : readUInt64 = reading 8 uint64Of := map_reading int64Of Int64.toUInt64

/-- The bytes end within a TL length: the first says that three follow. -/
def CutOff (s : BufferInputStream) : Prop :=
  s.Room 1 ∧ ¬ s.byteAt 0 < 254 ∧ ¬ (s.advance 1).Room 3

theorem readTlLength_run (hs : s.Bounded) (hroom : s.Room 1) :
    readTlLength s =
      if s.byteAt 0 < 254 then .ok (s.byteAt 0).toUInt32 (s.advance 1)
      else if (s.advance 1).Room 3 then
        .ok (tlLengthOf (s.advance 1).byteAt) ((s.advance 1).advance 3)
      else .error .assertion (s.advance 1) := by
  have hbyte : readByte s = .ok (s.byteAt 0) (s.advance 1) := reading_ok _ hs hroom
  have hs' := hroom.bounded
  rw [readTlLength, bind_ok hbyte]
  by_cases hshort : s.byteAt 0 < 254
  · rw [if_pos hshort, if_pos hshort]
    rfl
  · rw [if_neg hshort, if_neg hshort]
    by_cases h : (s.advance 1).Room 3
    · have hcheck := mt (remaining_lt_iff hs').mp (not_not_intro h)
      have hassert : assertRemaining 3 (s.advance 1) = .ok () (s.advance 1) :=
        if_pos (UInt64.not_lt.mp hcheck)
      rw [if_pos h, bind_ok hassert, reading_ok _ hs' h]
    · have hassert : assertRemaining 3 (s.advance 1) = .error .assertion (s.advance 1) :=
        if_neg (UInt64.not_le.mpr ((remaining_lt_iff hs').mpr h))
      rw [if_neg h, bind_error hassert]

theorem tryReadTlLength_run (hroom : s.Room 1) :
    tryReadTlLength s =
      if s.byteAt 0 < 254 then .ok (some (s.byteAt 0).toUInt32) (s.advance 1)
      else if (s.advance 1).Room 3 then
        .ok (some (tlLengthOf (s.advance 1).byteAt)) ((s.advance 1).advance 3)
      else .ok none (s.advance 1) := by
  have hbyte : tryReadUInt8 s = .ok (some (s.byteAt 0)) (s.advance 1) := tryReading_ok _ hroom
  rw [tryReadTlLength, bind_ok hbyte]
  show (if s.byteAt 0 < 254 then pure (some (s.byteAt 0).toUInt32) else tryReadLong)
    (s.advance 1) = _
  by_cases hshort : s.byteAt 0 < 254
  · rw [if_pos hshort, if_pos hshort]
    rfl
  · rw [if_neg hshort, if_neg hshort, tryReadLong]
    by_cases h : (s.advance 1).Room 3
    · rw [if_pos h, if_neg (mt (remaining_lt_iff hroom.bounded).mp (not_not_intro h)),
        map_ok some (load_ok _ h)]
    · rw [if_neg h, if_pos ((remaining_lt_iff hroom.bounded).mpr h)]

/-- A cut off length is refused by both, one byte further on. -/
theorem agrees_tlLength_iff (hs : s.Bounded) :
    Agrees tryReadTlLength readTlLength s ↔ s.offset.toNat + 1 < 2 ^ 64 ∧ ¬ s.CutOff := by
  by_cases hroom : s.Room 1
  · have hread := readTlLength_run hs hroom
    have htry := tryReadTlLength_run hroom
    have hfit : s.offset.toNat + 1 < 2 ^ 64 := hroom.fits
    by_cases hshort : s.byteAt 0 < 254
    · rw [if_pos hshort] at hread htry
      exact iff_of_true (.inl ⟨_, _, htry, hread, hroom.bounded⟩) ⟨hfit, fun h => h.2.1 hshort⟩
    · rw [if_neg hshort] at hread htry
      by_cases hrest : (s.advance 1).Room 3
      · rw [if_pos hrest] at hread htry
        exact iff_of_true (.inl ⟨_, _, htry, hread, hrest.bounded⟩) ⟨hfit, fun h => h.2.2 hrest⟩
      · rw [if_neg hrest] at hread htry
        refine iff_of_false ?_ fun h => h.2 ⟨hroom, hshort, hrest⟩
        rintro (⟨a, s', hok, -⟩ | ⟨hnone, -⟩)
        · cases htry.symm.trans hok
        · -- the byte is gone, so the stream is another one
          have hmoved : s.advance 1 = s := by
            have := htry.symm.trans hnone
            injection this
          have hoff : (s.advance 1).offset.toNat = s.offset.toNat + 1 := hroom.toNat_advance
          rw [hmoved] at hoff
          omega
  · have hread : readTlLength s = .error .outOfRange s := by
      rw [readTlLength, readByte, bind_error (reading_throws _ hs hroom)]
    by_cases hfit : s.offset.toNat + 1 < 2 ^ 64
    · have hbyte : tryReadUInt8 s = .ok none s := tryReading_refuses _ hfit hroom
      have htry : tryReadTlLength s = .ok none s := by
        rw [tryReadTlLength, bind_ok hbyte]
        rfl
      exact iff_of_true (.inr ⟨htry, .outOfRange, by decide, hread⟩)
        ⟨hfit, fun h => hroom h.1⟩
    · have hbyte : tryReadUInt8 s = .error .overrun s :=
        tryReading_overruns _ hs (Nat.not_lt.mp hfit)
      have htry : tryReadTlLength s = .error .overrun s := by
        rw [tryReadTlLength, bind_error hbyte]
      refine iff_of_false ?_ fun h => hfit h.1
      rintro (⟨a, s', hok, -⟩ | ⟨hnone, -⟩)
      · cases htry.symm.trans hok
      · cases htry.symm.trans hnone

/-- The reads that the two families agree on: the first sum fits, and no TL
length is cut off. -/
def ReadKind.Sound (k : ReadKind) (s : BufferInputStream) : Prop :=
  s.offset.toNat + k.need.toNat < 2 ^ 64 ∧ (k = .tlLength → ¬ s.CutOff)

theorem agrees_kind_iff (hs : s.Bounded) (k : ReadKind) :
    Agrees k.tryRead k.read s ↔ k.Sound s := by
  have hfixed : k ≠ .tlLength → (k.Sound s ↔ s.offset.toNat + k.need.toNat < 2 ^ 64) :=
    fun hk => and_iff_left fun h => absurd h hk
  cases k with
  | uint8 => exact (agrees_reading_iff _ hs).trans (hfixed nofun).symm
  | uint16 =>
      refine Iff.trans ?_ (hfixed nofun).symm
      rw [ReadKind.read, readUInt16_eq]
      exact agrees_reading_iff _ hs
  | uint32 =>
      refine Iff.trans ?_ (hfixed nofun).symm
      rw [ReadKind.read, readUInt32_eq]
      exact agrees_reading_iff _ hs
  | uint64 =>
      refine Iff.trans ?_ (hfixed nofun).symm
      rw [ReadKind.read, readUInt64_eq]
      exact agrees_reading_iff _ hs
  | int16 => exact (agrees_reading_iff _ hs).trans (hfixed nofun).symm
  | int32 => exact (agrees_reading_iff _ hs).trans (hfixed nofun).symm
  | int64 => exact (agrees_reading_iff _ hs).trans (hfixed nofun).symm
  | bytes count => exact (agrees_reading_iff _ hs).trans (hfixed nofun).symm
  | tlLength =>
      refine (agrees_tlLength_iff hs).trans (and_congr_right fun _ => ?_)
      exact ⟨fun h _ => h, fun h => h rfl⟩

/-- Reading `n` bytes succeeds. -/
def Readable (s : BufferInputStream) (n : UInt64) : Prop :=
  ∃ bs s', readBytes n s = .ok bs s'

theorem readable_iff {n : UInt64} (hs : s.Bounded) : s.Readable n ↔ s.Room n := by
  constructor
  · rintro ⟨bs, s', h⟩
    by_contra hroom
    cases (reading_throws _ hs hroom).symm.trans h
  · exact fun hroom => ⟨_, _, reading_ok _ hs hroom⟩

/-- `Has` is the negation of what it should be. -/
theorem has_iff {n : UInt64} (hfit : s.offset.toNat + n.toNat < 2 ^ 64) :
    s.has n = true ↔ ¬ s.Room n := by
  rw [has, decide_eq_true_iff]
  exact lt_offset_add_iff hfit

end

/-! ## The stream and the bytes that are left -/

/-- What is behind the offset. -/
def rest (s : BufferInputStream) : Bytes := s.buffer.drop s.offset.toNat

/-- The call is the reader on the bytes that are left. -/
def Refines (call : Call (Option α)) (p : Reader α) (s : BufferInputStream) : Prop :=
  match p.run s.rest with
  | none => call s = .ok none s
  | some (a, r) => ∃ s', call s = .ok (some a) s' ∧ s'.rest = r ∧ s'.Bounded

/-- A reader that looks at its first `n` bytes and nothing else. -/
def LooksAt (p : Reader α) (n : ℕ) (value : (ℕ → UInt8) → α) : Prop :=
  ∀ bs : Bytes, p.run bs =
    if bs.length < n then none else some (value fun i => bs.getD i 0, bs.drop n)

section
variable {s : BufferInputStream}

theorem room_iff {n : UInt64} (hs : s.Bounded) : s.Room n ↔ ¬ s.rest.length < n.toNat := by
  have hle := bounded_iff.mp hs
  rw [Room, rest, List.length_drop]
  omega

theorem refines_tryReading {n : UInt64} {value : (ℕ → UInt8) → α} {p : Reader α}
    (hp : LooksAt p n.toNat value) (hs : s.Bounded)
    (hfit : s.offset.toNat + n.toNat < 2 ^ 64) : Refines (tryReading n value) p s := by
  rw [Refines, hp]
  by_cases hroom : s.Room n
  · rw [if_neg ((room_iff hs).mp hroom)]
    have hbytes : (fun i => s.rest.getD i 0) = s.byteAt := by
      funext i
      simp [rest, byteAt, List.getD_eq_getElem?_getD]
    have hrest : (s.advance n).rest = s.rest.drop n.toNat := by
      rw [rest, hroom.toNat_advance, rest, List.drop_drop]
      rfl
    exact ⟨_, hbytes ▸ tryReading_ok value hroom, hrest, hroom.bounded⟩
  · rw [if_pos (not_not.mp (mt (room_iff hs).mpr hroom))]
    exact tryReading_refuses value hfit hroom

theorem unsigned32_eq (x : UInt8) : unsigned32 x = x.toUInt32 := by
  apply UInt32.toNat_inj.mp
  rw [unsigned32, UInt32.toNat_and]
  show x.toNat &&& (2 ^ 8 - 1) = x.toNat
  rw [Nat.and_two_pow_sub_one_eq_mod]
  exact Nat.mod_eq_of_lt x.toNat_lt

/-- The sum of two promoted bytes fits the short. -/
theorem toUInt16_intOfTwo (b : ℕ → UInt8) :
    (intOfTwo b).toUInt32.toUInt16 = (b 0).toUInt16 ||| ((b 1).toUInt16 <<< 8) := by
  have h0 := (b 0).toNat_lt
  have h1 := (b 1).toNat_lt
  have hs : (b 1).toNat <<< 8 < 2 ^ 16 := by
    rw [Nat.shiftLeft_eq]
    omega
  apply UInt16.toNat_inj.mp
  show ((b 0).toNat ||| ((b 1).toNat <<< 8 % 2 ^ 32)) % 2 ^ 16 =
    (b 0).toNat ||| ((b 1).toNat <<< 8 % 2 ^ 16)
  rw [Nat.mod_eq_of_lt (Nat.lt_trans hs (by decide)), Nat.mod_eq_of_lt hs]
  exact Nat.mod_eq_of_lt (Nat.or_lt_two_pow (by omega) hs)

theorem looksAt_u8 : LooksAt ByteReader.u8 1 fun b => b 0
  | [] => rfl
  | _ :: _ => rfl

theorem looksAt_u16 : LooksAt ByteReader.u16 2 fun b => (intOfTwo b).toUInt32.toUInt16
  | [] => rfl
  | [_] => rfl
  | a :: b :: bs => by
      simp only [toUInt16_intOfTwo]
      rfl

theorem looksAt_u32 : LooksAt ByteReader.u32 4 uint32Of
  | [] => rfl
  | [_] => rfl
  | [_, _] => rfl
  | [_, _, _] => rfl
  | a :: b :: c :: d :: bs => by
      simp only [uint32Of, unsigned32_eq]
      rfl

theorem take_eq_map_range {bs : Bytes} {n : ℕ} (h : n ≤ bs.length) :
    bs.take n = (List.range n).map fun i => bs.getD i 0 := by
  apply List.ext_getElem?
  intro i
  by_cases hi : i < n
  · have hbs : i < bs.length := by omega
    simp [hi, hbs]
  · rw [List.getElem?_take, if_neg hi]
    simp [hi]

theorem looksAt_bytes (n : ℕ) :
    LooksAt (ByteReader.bytes n) n fun b => (List.range n).map b := by
  intro bs
  show (if _ then none else some (bs.take n, bs.drop n)) = _
  by_cases hlt : bs.length < n
  · rw [if_pos hlt, if_pos hlt]
  · rw [if_neg hlt, if_neg hlt, take_eq_map_range (Nat.not_lt.mp hlt)]

/-- **The parsers' readers are the checked reads**, while the offset and
what is asked for fit 64 bits. -/
theorem tryRead_refines (hs : s.Bounded) :
    (s.offset.toNat + 1 < 2 ^ 64 → Refines tryReadUInt8 ByteReader.u8 s) ∧
      (s.offset.toNat + 2 < 2 ^ 64 → Refines tryReadUInt16 ByteReader.u16 s) ∧
      (s.offset.toNat + 4 < 2 ^ 64 → Refines tryReadUInt32 ByteReader.u32 s) ∧
      ∀ n : UInt64, s.offset.toNat + n.toNat < 2 ^ 64 →
        Refines (tryReadBytes n) (ByteReader.bytes n.toNat) s :=
  ⟨fun h => refines_tryReading (n := 1) looksAt_u8 hs h,
    fun h => refines_tryReading (n := 2) looksAt_u16 hs h,
    fun h => refines_tryReading (n := 4) looksAt_u32 hs h,
    fun n h => refines_tryReading (looksAt_bytes n.toNat) hs h⟩

end

/-! ## Runs -/

inductive Move where
  | seek (offset : UInt64)
  | read (k : ReadKind)
  | tryRead (k : ReadKind)

/-- The stream that a call leaves, whether it returns or throws. -/
def after : EStateM.Result ReadFault BufferInputStream α → BufferInputStream
  | .ok _ s => s
  | .error _ s => s

def move (s : BufferInputStream) : Move → BufferInputStream
  | .seek offset => after (seek offset s)
  | .read k => after (k.read s)
  | .tryRead k => after (k.tryRead s)

/-- The first sum of the call fits. -/
def InSizeT (s : BufferInputStream) : Move → Prop
  | .seek _ => True
  | .read k => s.offset.toNat + k.need.toNat < 2 ^ 64
  | .tryRead k => s.offset.toNat + k.need.toNat < 2 ^ 64

section
variable {s : BufferInputStream}

/-- Both families leave a TL length that is cut off at the byte behind it. -/
theorem bounded_tlLength (hs : s.Bounded) (hfit : s.offset.toNat + 1 < 2 ^ 64) :
    (after (readTlLength s)).Bounded ∧ (after (tryReadTlLength s)).Bounded := by
  by_cases hcut : s.CutOff
  · have hread := readTlLength_run hs hcut.1
    have htry := tryReadTlLength_run hcut.1
    rw [if_neg hcut.2.1, if_neg hcut.2.2] at hread htry
    rw [hread, htry]
    exact ⟨hcut.1.bounded, hcut.1.bounded⟩
  · rcases (agrees_tlLength_iff hs).mpr ⟨hfit, hcut⟩ with
      ⟨a, s', htry, hread, hb⟩ | ⟨htry, fault, -, hread⟩
    · rw [hread, htry]
      exact ⟨hb, hb⟩
    · rw [hread, htry]
      exact ⟨hs, hs⟩

theorem bounded_kind (hs : s.Bounded) (k : ReadKind)
    (hfit : s.offset.toNat + k.need.toNat < 2 ^ 64) :
    (after (k.read s)).Bounded ∧ (after (k.tryRead s)).Bounded := by
  by_cases hk : k = .tlLength
  · subst hk
    exact bounded_tlLength hs hfit
  · rcases (agrees_kind_iff hs k).mpr ⟨hfit, fun h => absurd h hk⟩ with
      ⟨a, s', htry, hread, hb⟩ | ⟨htry, fault, -, hread⟩
    · rw [hread, htry]
      exact ⟨hb, hb⟩
    · rw [hread, htry]
      exact ⟨hs, hs⟩

theorem bounded_move (m : Move) (hs : s.Bounded) (hfit : s.InSizeT m) : (s.move m).Bounded := by
  cases m with
  | seek offset =>
      by_cases hfar : offset > s.length
      · simpa [move, seek, hfar, after] using hs
      · have hmove : s.move (.seek offset) = { s with offset } := by
          simp [move, seek, hfar, after]
        rw [hmove]
        exact UInt64.not_lt.mp hfar
  | read k => exact (bounded_kind hs k hfit).1
  | tryRead k => exact (bounded_kind hs k hfit).2

/-- **The offset stays in the bytes**, over any reads and seeks. -/
theorem bounded_run (ms : List Move) (hs : s.Bounded) (hfit : Runs.Along move InSizeT s ms) :
    (Runs.exec move s ms).Bounded :=
  hfit.invariant (fun _ m hb hm => bounded_move m hb hm) hs

end

/-! ## Which reads agree -/

/-- **The two families of readers.** A kind of read agrees exactly if its
first sum fits 64 bits and it is not a TL length cut off behind its first
byte. `Has` is right only where its sum does not fit. -/
theorem families_agree_iff (s : BufferInputStream) (hs : s.Bounded) :
    (∀ k : ReadKind, Agrees k.tryRead k.read s ↔ k.Sound s) ∧
      ∀ n, (s.has n = true ↔ s.Readable n) ↔ 2 ^ 64 ≤ s.offset.toNat + n.toNat := by
  refine ⟨agrees_kind_iff hs, fun n => ?_⟩
  rw [readable_iff hs]
  by_cases hfit : s.offset.toNat + n.toNat < 2 ^ 64
  · rw [has_iff hfit]
    exact iff_of_false (by tauto) (Nat.not_le.mpr hfit)
  · have hwrap := Nat.not_lt.mp hfit
    have hhas : ¬ s.has n = true := by
      rw [has, decide_eq_true_iff]
      exact not_lt_offset_add hs hwrap
    exact iff_of_true (iff_of_false hhas fun h => hfit h.fits) hwrap

theorem families_agree_two :
    Agrees ReadKind.uint16.tryRead ReadKind.uint16.read ⟨[1, 2, 3], by decide, 1⟩ :=
  ((families_agree_iff ⟨[1, 2, 3], by decide, 1⟩ (by unfold Bounded; decide)).1 .uint16).mpr
    ⟨by decide, nofun⟩

/-- `Has` denies the one byte that is there, and a TL length of one byte
254 is refused by both families with the offset behind it. -/
theorem families_disagree :
    ¬ (∀ s : BufferInputStream, s.Bounded → (∀ k : ReadKind, Agrees k.tryRead k.read s) ∧
        ∀ n, s.has n = true ↔ s.Readable n) ∧
      tryReadTlLength ⟨[254], by decide, 0⟩ = .ok none ⟨[254], by decide, 1⟩ ∧
      readTlLength ⟨[254], by decide, 0⟩ = .error .assertion ⟨[254], by decide, 1⟩ := by
  constructor
  · intro h
    have hone := (h ⟨[254], by decide, 0⟩ (by unfold Bounded; decide)).2 1
    have hroom : Room ⟨[254], by decide, 0⟩ 1 := by decide
    rw [readable_iff (by unfold Bounded; decide), has_iff (by decide)] at hone
    exact hone.mpr hroom hroom
  · exact ⟨rfl, rfl⟩

end BufferInputStream

end Tgvoip
