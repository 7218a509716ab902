import Mathlib.Data.Fintype.Basic
import Mathlib.Data.List.FinRange
import Mathlib.Tactic.Convert
import Tgvoip.Lib.ByteReader

/-!
# Interface — the containers of the wire format

`controller/protocol/protocol/Interface.h`: `Wrapped` puts an 8-bit
length in front of an object, `Array` an 8-bit count in front of a list,
`Mask` an 8-bit presence mask in front of at most eight byte strings.

The length of a `Wrapped` object and the count of an `Array` are
truncated to a byte when written; the round trips below ask for objects
that fit.
-/

namespace Tgvoip

open ByteReader

variable {α : Type}

/-! ## Wrapped -/

/-- `Wrapped<T>::parse`; `p` is given the part buffer it reads from. -/
def parseWrapped (p : Bytes → Reader α) : Reader α := do
  let len ← u8
  let buf ← bytes len.toNat
  within buf (p buf)

def serializeWrapped (content : Bytes) : Bytes := UInt8.ofNat content.length :: content

/-- `Wrapped<Bytes>`: all of the part buffer. -/
def parseBytes : Reader Bytes := parseWrapped fun buf => bytes buf.length

def serializeBytes (data : Bytes) : Bytes := serializeWrapped data

/-- The inner parser is given the content up to its truncated length. -/
theorem run_parseWrapped (p : Bytes → Reader α) (content rest : Bytes) :
    (parseWrapped p).run (serializeWrapped content ++ rest) =
      ((p (content.take (content.length % 256))).run (content.take (content.length % 256))).map
        fun r => (r.1, content.drop (content.length % 256) ++ rest) := by
  have hle : content.length % 256 ≤ content.length := Nat.mod_le _ _
  have hbytes : (bytes (content.length % 256)).run (content ++ rest) =
      some (content.take (content.length % 256),
        content.drop (content.length % 256) ++ rest) := by
    show (if _ then none else _) = _
    rw [if_neg (by rw [List.length_append]; omega), List.take_append_of_le_length hle,
      List.drop_append_of_le_length hle]
  have hlen : u8.run (serializeWrapped content ++ rest) =
      some (UInt8.ofNat content.length, content ++ rest) := rfl
  rw [parseWrapped, StateT.run_bind, hlen]
  simp only [Option.bind_eq_bind, Option.bind_some, StateT.run_bind, UInt8.toNat_ofNat']
  rw [hbytes]
  rfl

theorem decodes_wrapped {p : Bytes → Reader α} {content r : Bytes} {a : α}
    (hlen : content.length ≤ 255) (h : (p content).run content = some (a, r)) :
    Decodes (parseWrapped p) (serializeWrapped content) a := by
  intro rest
  have hmod : content.length % 256 = content.length := Nat.mod_eq_of_lt (by omega)
  rw [run_parseWrapped, hmod, List.take_length, h, List.drop_length]
  rfl

theorem decodes_parseBytes {data : Bytes} (h : data.length ≤ 255) :
    Decodes parseBytes (serializeBytes data) data :=
  decodes_wrapped h (decodes_bytes data).run_nil

theorem takes_parseBytes : Takes parseBytes fun data => 1 + data.length := by
  intro bs data r h
  obtain ⟨len, r₁, hlen, h⟩ := run_bind_eq_some.mp h
  obtain ⟨buf, r₂, hbuf, h⟩ := run_bind_eq_some.mp h
  have hall : (bytes buf.length).run buf = some (buf, []) := (decodes_bytes buf).run_nil
  rw [run_within hall] at h
  cases h
  have h₁ := takes_u8 _ _ _ hlen
  have h₂ := takes_bytes _ _ _ _ hbuf
  simp only at h₁ h₂ ⊢
  omega

/-! ## Array -/

def parseArray (p : Reader α) : Reader (List α) := do
  let extraCount ← u8
  times p extraCount.toNat

def serializeArray (enc : α → Bytes) (v : List α) : Bytes := UInt8.ofNat v.length :: v.flatMap enc

theorem decodes_array {p : Reader α} {enc : α → Bytes} {v : List α} (hlen : v.length ≤ 255)
    (h : ∀ a ∈ v, Decodes p (enc a) a) : Decodes (parseArray p) (serializeArray enc v) v := by
  have hcount : (UInt8.ofNat v.length).toNat = v.length := by
    rw [UInt8.toNat_ofNat']
    omega
  have hv := decodes_times v h
  rw [← hcount] at hv
  exact (decodes_u8 (UInt8.ofNat v.length)).bind hv

theorem takes_array {p : Reader α} {size : α → ℕ} (hp : Takes p size) :
    Takes (parseArray p) fun v => 1 + (v.map size).sum := by
  intro bs v r h
  obtain ⟨n, r₁, hn, h⟩ := run_bind_eq_some.mp h
  rw [takes_u8 _ _ _ hn, takes_times hp _ _ _ _ h, Nat.add_assoc]

/-! ## Mask -/

/-- The eight entries of a `Mask<Wrapped<Bytes>>`. -/
abbrev Entries := Fin 8 → Option Bytes

namespace Entries

/-- `Wrapped<Bytes>::operator bool`: there is a buffer and it is not empty. -/
def has (v : Entries) (i : Fin 8) : Bool := !(v i).getD [] == []

/-- `Mask::operator bool`. -/
def any (v : Entries) : Bool := (List.finRange 8).any v.has

def none : Entries := fun _ => .none

/-- The entries of `v`, and those of `w` where `v` has none. -/
def writtenOver (v w : Entries) : Entries := fun i => (v i).or (w i)

end Entries

def maskBit (i : Fin 8) : UInt8 := 1 <<< UInt8.ofNat i.val

/-- One round of the loop in `Mask::parse`. -/
def parseEntry (mask : UInt8) (v : Entries) (i : Fin 8) : Reader Entries :=
  if mask &&& maskBit i = 0 then pure v
  else do
    let data ← parseBytes
    pure (Function.update v i (some data))

/-- The entries whose bit is set. -/
def parseMask : Reader Entries := do
  let mask ← u8
  (List.finRange 8).foldlM (parseEntry mask) Entries.none

/-- The presence byte. -/
def presence (v : Entries) : UInt8 :=
  (List.finRange 8).foldl (fun mask i => if v.has i then mask ||| maskBit i else mask) 0

def serializeMask (v : Entries) : Bytes :=
  presence v :: (List.finRange 8).flatMap fun i =>
    if v.has i then serializeBytes ((v i).getD []) else []

theorem maskBit_toNat (i : Fin 8) : (maskBit i).toNat = 2 ^ i.val := by
  revert i
  decide

@[simp] theorem maskBit_testBit (i j : Fin 8) :
    (maskBit i).toNat.testBit j.val = decide (i = j) := by
  rw [maskBit_toNat, Nat.testBit_two_pow]
  simp [Fin.ext_iff]

/-- Testing a presence bit of the byte. -/
theorem and_maskBit_eq_zero (m : UInt8) (i : Fin 8) :
    m &&& maskBit i = 0 ↔ m.toNat.testBit i.val = false := by
  rw [← UInt8.toNat_inj, UInt8.toNat_and, maskBit_toNat, Nat.and_two_pow]
  cases m.toNat.testBit i.val <;> simp

theorem presence_testBit (v : Entries) (j : Fin 8) :
    (presence v).toNat.testBit j.val = v.has j := by
  have hgen : ∀ (is : List (Fin 8)) (m : UInt8),
      (is.foldl (fun mask i => if v.has i then mask ||| maskBit i else mask) m).toNat.testBit j.val
        = (m.toNat.testBit j.val || (decide (j ∈ is) && v.has j)) := by
    intro is
    induction is with
    | nil => simp
    | cons i is ih =>
        intro m
        rw [List.foldl_cons, ih]
        by_cases hij : i = j
        · subst hij
          cases v.has i <;> simp
        · have hji : j ≠ i := fun h => hij h.symm
          cases v.has i <;> simp [hij, hji]
  rw [presence, hgen]
  simp

/-- **The presence mask round trip**: the entries with contents come back at
their positions. -/
theorem decodes_mask {v : Entries} (h : ∀ i, ((v i).getD []).length ≤ 255) :
    Decodes parseMask (serializeMask v) fun i => if v.has i then some ((v i).getD []) else none := by
  have hgen : ∀ (is : List (Fin 8)) (w : Entries), is.Nodup →
      Decodes (is.foldlM (parseEntry (presence v)) w)
        (is.flatMap fun i => if v.has i then serializeBytes ((v i).getD []) else [])
        fun j => if j ∈ is ∧ v.has j = true then some ((v j).getD []) else w j := by
    intro is
    induction is with
    | nil =>
        intro w _
        simpa using Decodes.pure w
    | cons i is ih =>
        intro w hnd
        obtain ⟨hi, hnd⟩ := List.nodup_cons.mp hnd
        rw [List.foldlM_cons, List.flatMap_cons, parseEntry]
        by_cases hv : v.has i = true
        · have hbit : ¬ presence v &&& maskBit i = 0 := by
            rw [and_maskBit_eq_zero, presence_testBit, hv]
            simp
          rw [if_neg hbit, if_pos hv]
          refine ((decodes_parseBytes (h i)).last).bind ?_
          convert ih (Function.update w i (some ((v i).getD []))) hnd using 1
          funext j
          by_cases hj : j = i
          · subst hj
            simp [hi, hv]
          · simp [hj]
        · have hbit : presence v &&& maskBit i = 0 := by
            rw [and_maskBit_eq_zero, presence_testBit]
            simpa using hv
          rw [if_pos hbit, if_neg hv]
          refine (Decodes.pure w).bind ?_
          convert ih w hnd using 1
          funext j
          by_cases hj : j = i
          · subst hj
            simp [hv]
          · simp [hj]
  have hall : Decodes parseMask (serializeMask v) _ :=
    (decodes_u8 (presence v)).bind (hgen (List.finRange 8) Entries.none (List.nodup_finRange 8))
  simpa [Entries.none] using hall

end Tgvoip
