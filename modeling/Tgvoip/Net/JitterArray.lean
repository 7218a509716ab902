import Tgvoip.Lib.Ring
import Tgvoip.Lib.Runs

/-!
# JitterArray — the slots of the jitter buffer

`controller/net/JitterBuffer.{h,cpp}`, `struct JitterArray`: a circle of
64 slots for the audio frames between `backSeq` (at slot `back`) and
`frontSeq` (at slot `front`). A slot holds a buffer or nothing. Slot
numbers are below 64 by their type: the source reduces them modulo
`JITTER_SLOT_COUNT` at each change, and 64 divides 256, so that the
8-bit sum `front += diff` loses nothing.

The iterator of `get` is the buffer it points to; `take` is the removal
of that buffer by `JitterBuffer::HandleOutput`.

`Aligned` says that front and back stand for their seqs. It is kept by
`advance`, `take` and `clear`. `put` moves the front by the distance
from the BACK, so it keeps the invariant only while the two are one
slot; the last section says that this is exact.
-/

namespace Tgvoip

open Ring Runs

/-- `JITTER_SLOT_COUNT`. -/
abbrev jitterSlotCount : ℕ := 64

/-- `INVALID_SEQ`: no seq. -/
def invalidSeq : UInt32 := 0xFFFFFFFF

structure JitterArray (β : Type*) where
  front : Fin jitterSlotCount := 0
  back : Fin jitterSlotCount := 0
  frontSeq : UInt32 := invalidSeq
  backSeq : UInt32 := invalidSeq
  slots : Fin jitterSlotCount → Option β := fun _ => none

namespace JitterArray

variable {β : Type*}

def empty (a : JitterArray β) : Bool := a.frontSeq == invalidSeq

def getOffset (a : JitterArray β) (seq : UInt32) : Fin jitterSlotCount :=
  pos a.back (seq - a.backSeq).toNat

def new : JitterArray β := {}

def get (a : JitterArray β) (seq : UInt32) : Option β :=
  if a.empty || seq > a.frontSeq || seq < a.backSeq then none
  else a.slots (a.getOffset seq)

def has (a : JitterArray β) (seq : UInt32) : Bool := (a.get seq).isSome

def clear (_ : JitterArray β) : JitterArray β := {}

def advance (a : JitterArray β) (seq : UInt32) : JitterArray β :=
  if a.empty then a
  else if seq > a.frontSeq then a.clear
  else if seq < a.backSeq then a
  else
    { a with
      slots := Ring.clear (a.getOffset seq) jitterSlotCount a.back a.slots
      back := a.getOffset seq
      backSeq := seq }

/-- How many slots were given up, and the array after it. -/
def put (a : JitterArray β) (seq : UInt32) (buffer : β) : UInt32 × JitterArray β :=
  if a.empty then
    (0, { a with
      backSeq := seq, frontSeq := seq, back := 0, front := 0
      slots := Function.update a.slots 0 (some buffer) })
  else if seq < a.backSeq then (0, a)
  else
    let diff := seq - a.backSeq
    let advance : UInt32 := if diff > 64 then diff - 64 else 0
    let a := if diff > 64 then a.advance (a.backSeq + advance) else a
    let front := pos a.front diff.toNat
    (advance, { a with
      front, frontSeq := seq, slots := Function.update a.slots front (some buffer) })

/-- The removal of a buffer through the iterator returned by `get`. -/
def take (a : JitterArray β) (seq : UInt32) : JitterArray β :=
  if (a.get seq).isSome then
    { a with slots := Function.update a.slots (a.getOffset seq) none }
  else a

def count (a : JitterArray β) : ℕ :=
  if a.empty then 0
  else if a.back = a.front ∧ (a.slots a.back).isSome then 1
  else filled a.front a.slots jitterSlotCount a.back

/-! ## Aligned arrays -/

/-- Nothing is stored. -/
structure Idle (a : JitterArray β) : Prop where
  frontSeq : a.frontSeq = invalidSeq
  slots : ∀ i, a.slots i = none

theorem neZero_slots : NeZero jitterSlotCount := ⟨by decide⟩

/-- Front and back stand for `frontSeq` and `backSeq`, and only the slots
between them hold buffers. -/
structure Live (a : JitterArray β) : Prop where
  valid : a.frontSeq ≠ invalidSeq
  order : a.backSeq ≤ a.frontSeq
  span : a.frontSeq.toNat - a.backSeq.toNat < jitterSlotCount
  front : a.front = pos a.back (a.frontSeq.toNat - a.backSeq.toNat)
  inside : ∀ k, a.frontSeq.toNat - a.backSeq.toNat < k → k < jitterSlotCount →
    a.slots (pos a.back k) = none

def Aligned (a : JitterArray β) : Prop := a.Idle ∨ a.Live

/-- The put is refused as older than the oldest kept seq. -/
def Rejects (a : JitterArray β) (seq : UInt32) : Prop := a.empty = false ∧ seq < a.backSeq

instance (a : JitterArray β) (seq : UInt32) : Decidable (a.Rejects seq) :=
  inferInstanceAs (Decidable (_ ∧ _))

/-- **The puts the array is made for**: into an empty array, or too old, or
less than 64 above a single kept seq. -/
def Fits (a : JitterArray β) (seq : UInt32) : Prop :=
  a.empty = true ∨ seq < a.backSeq ∨
    (a.front = a.back ∧ seq.toNat - a.backSeq.toNat < jitterSlotCount)

instance (a : JitterArray β) (seq : UInt32) : Decidable (a.Fits seq) :=
  inferInstanceAs (Decidable (_ ∨ _ ∨ _))

section
variable {a : JitterArray β} {s x : UInt32} {b : β}

theorem ne_invalid_of_lt (h : s.toNat < 2 ^ 31) : s ≠ invalidSeq := fun he => by
  rw [he] at h
  exact absurd h (by decide)

@[simp] theorem empty_eq_true : a.empty = true ↔ a.frontSeq = invalidSeq := by simp [empty]

@[simp] theorem empty_eq_false : a.empty = false ↔ a.frontSeq ≠ invalidSeq := by simp [empty]

theorem idle_clear (a : JitterArray β) : a.clear.Idle := ⟨rfl, fun _ => rfl⟩

theorem Idle.get_eq (h : a.Idle) : a.get x = none := by simp [get, h.frontSeq]

theorem toNat_sub_of_ge {p q : UInt32} (h : ¬ p < q) : (p - q).toNat = p.toNat - q.toNat :=
  UInt32.toNat_sub_of_le _ _ (UInt32.not_lt.mp h)

/-- Reading a non-empty array. -/
theorem get_of_valid (h : a.frontSeq ≠ invalidSeq) :
    a.get x = if a.backSeq ≤ x ∧ x ≤ a.frontSeq then
      a.slots (pos a.back (x.toNat - a.backSeq.toNat)) else none := by
  simp only [get, getOffset, empty, gt_iff_lt, Bool.or_eq_true, beq_iff_eq, decide_eq_true_eq,
    UInt32.lt_iff_toNat_lt, UInt32.le_iff_toNat_le]
  by_cases hx : a.backSeq.toNat ≤ x.toNat ∧ x.toNat ≤ a.frontSeq.toNat
  · have hge : ¬ x < a.backSeq := by rw [UInt32.lt_iff_toNat_lt]; omega
    rw [if_pos hx, if_neg (by simp only [h, false_or]; omega), toNat_sub_of_ge hge]
  · rw [if_neg hx, if_pos (by simp only [h, false_or]; omega)]

theorem getOffset_of_le (h : a.backSeq ≤ s) :
    a.getOffset s = pos a.back (s.toNat - a.backSeq.toNat) := by
  rw [getOffset, toNat_sub_of_ge (UInt32.not_lt.mpr h)]

/-- Every distance up to the front is that of a seq. -/
theorem exists_seq_at (h : a.backSeq ≤ a.frontSeq) {k : ℕ}
    (hk : k ≤ a.frontSeq.toNat - a.backSeq.toNat) :
    ∃ s, a.backSeq ≤ s ∧ s ≤ a.frontSeq ∧ a.getOffset s = pos a.back k := by
  have hle := UInt32.le_iff_toNat_le.mp h
  have hlt := a.frontSeq.toNat_lt
  have hs : (UInt32.ofNat (a.backSeq.toNat + k)).toNat = a.backSeq.toNat + k := by
    rw [UInt32.toNat_ofNat']
    omega
  have hback : a.backSeq ≤ .ofNat (a.backSeq.toNat + k) := by
    rw [UInt32.le_iff_toNat_le, hs]
    omega
  refine ⟨.ofNat (a.backSeq.toNat + k), hback, ?_, ?_⟩
  · rw [UInt32.le_iff_toNat_le, hs]
    omega
  · rw [getOffset_of_le hback, hs, Nat.add_sub_cancel_left]

/-! ## What each operation does to the stored map -/

theorem Idle.put (h : a.Idle) (hs : s ≠ invalidSeq) :
    (a.put s b).2.Live ∧ ∀ x, (a.put s b).2.get x = if x = s then some b else a.get x := by
  have hput : (a.put s b).2 = { a with
      backSeq := s, frontSeq := s, back := 0, front := 0
      slots := Function.update a.slots 0 (some b) } := by
    simp [JitterArray.put, h.frontSeq]
  rw [hput]
  refine ⟨⟨hs, UInt32.le_refl s, by simp, by simp, ?_⟩, ?_⟩
  · intro k hk hk64
    simp only [Nat.sub_self] at hk
    have hne : pos (0 : Fin jitterSlotCount) k ≠ 0 := by
      rw [← pos_zero 0, pos_add, Ne, pos_inj _ (by omega) (by omega)]
      omega
    simp only [Function.update_of_ne hne, h.slots]
  · intro x
    rw [get_of_valid hs, h.get_eq]
    by_cases hx : x = s
    · simp [hx]
    · have : ¬ (s ≤ x ∧ x ≤ s) := fun hc => hx (UInt32.le_antisymm hc.2 hc.1)
      simp [hx, this]

theorem put_rejects (h : a.Rejects s) : (a.put s b).2 = a := by
  simp [put, h.1, h.2]

/-- Less than 65 above the oldest seq nothing is given up. -/
theorem put_near (hv : a.frontSeq ≠ invalidSeq) (hs : ¬ s < a.backSeq)
    (hd : s.toNat - a.backSeq.toNat ≤ jitterSlotCount) :
    (a.put s b).2 = { a with
      front := pos a.front (s.toNat - a.backSeq.toNat), frontSeq := s
      slots := Function.update a.slots (pos a.front (s.toNat - a.backSeq.toNat)) (some b) } := by
  have h64 : (64 : UInt32).toNat = jitterSlotCount := rfl
  have hdiff : ¬ s - a.backSeq > 64 := by
    rw [gt_iff_lt, UInt32.lt_iff_toNat_lt, toNat_sub_of_ge hs, h64]
    omega
  simp [put, hv, hs, hdiff, toNat_sub_of_ge hs]

theorem Live.single (h : a.Live) (hone : a.front = a.back) : a.frontSeq = a.backSeq := by
  have hf := h.front
  have hle := UInt32.le_iff_toNat_le.mp h.order
  rw [hone, ← pos_zero a.back, pos_add, pos_inj _ (by decide) (by have := h.span; omega)] at hf
  exact UInt32.toNat_inj.mp (by omega)

/-- **A fitting put stores the buffer and touches nothing else.** -/
theorem Live.put (h : a.Live) (hs : s ≠ invalidSeq) (hge : ¬ s < a.backSeq)
    (hone : a.front = a.back) (hd : s.toNat - a.backSeq.toNat < jitterSlotCount) :
    (a.put s b).2.Live ∧ ∀ x, (a.put s b).2.get x = if x = s then some b else a.get x := by
  have hse := h.single hone
  have hsge : a.backSeq.toNat ≤ s.toNat := by rw [UInt32.lt_iff_toNat_lt] at hge; omega
  rw [put_near h.valid hge (by omega), hone]
  refine ⟨⟨hs, UInt32.le_iff_toNat_le.mpr hsge, hd, rfl, ?_⟩, ?_⟩
  · intro k hk hk64
    simp only at hk ⊢
    rw [Function.update_of_ne (by rw [Ne, pos_inj _ hk64 hd]; omega)]
    exact h.inside k (by rw [hse]; omega) hk64
  · intro x
    rw [get_of_valid hs, get_of_valid h.valid]
    simp only [UInt32.le_iff_toNat_le, hse]
    by_cases hx : x = s
    · subst hx
      simp [hsge]
    · have hx' : x.toNat ≠ s.toNat := fun he => hx (UInt32.toNat_inj.mp he)
      rw [if_neg hx]
      by_cases hin : a.backSeq.toNat ≤ x.toNat ∧ x.toNat ≤ s.toNat
      · rw [if_pos hin,
          Function.update_of_ne (by rw [Ne, pos_inj _ (by omega) hd]; omega)]
        by_cases hb : x.toNat = a.backSeq.toNat
        · rw [if_pos (by omega)]
        · -- strictly between the single kept seq and the new one
          rw [if_neg (by omega), h.inside _ (by rw [hse]; omega) (by omega)]
      · rw [if_neg hin, if_neg (by omega)]

/-- What is left after an advance is not older than where it went. -/
theorem le_backSeq_advance (hleft : (a.advance s).empty = false) : s ≤ (a.advance s).backSeq := by
  unfold advance at hleft ⊢
  split_ifs at hleft ⊢ with hempty hbeyond hbelow
  · rw [hleft] at hempty
    cases hempty
  · cases hleft
  · exact UInt32.le_of_lt hbelow
  · exact UInt32.le_refl s

theorem advance_beyond (hv : a.frontSeq ≠ invalidSeq) (hs : a.frontSeq < s) :
    a.advance s = a.clear := by
  simp [advance, hv, hs]

theorem advance_within (hv : a.frontSeq ≠ invalidSeq) (hf : ¬ a.frontSeq < s)
    (hb : ¬ s < a.backSeq) :
    a.advance s = { a with
      slots := Ring.clear (pos a.back (s.toNat - a.backSeq.toNat)) jitterSlotCount a.back a.slots
      back := pos a.back (s.toNat - a.backSeq.toNat), backSeq := s } := by
  simp [advance, hv, hf, hb, getOffset_of_le (UInt32.not_lt.mp hb)]

theorem advance_below (hb : s < a.backSeq) (hf : ¬ a.frontSeq < s) : a.advance s = a := by
  simp [advance, hf, hb]

/-- The slots behind the new back are those that were not emptied. -/
theorem Live.cleared (h : a.Live) (hf : ¬ a.frontSeq < s) (hb : ¬ s < a.backSeq)
    (i : Fin jitterSlotCount) :
    (a.advance s).slots i =
      if ∃ k < s.toNat - a.backSeq.toNat, pos a.back k = i then none else a.slots i := by
  have hspan := h.span
  have hn : jitterSlotCount = 64 := rfl
  rw [advance_within h.valid hf hb]
  rw [UInt32.lt_iff_toNat_lt] at hf hb
  exact clear_spec (s.toNat - a.backSeq.toNat) (by omega) jitterSlotCount (by omega) a.back a.slots i

theorem Live.advance_live (h : a.Live) (hf : ¬ a.frontSeq < s) (hb : ¬ s < a.backSeq) :
    (a.advance s).Live := by
  have hle := UInt32.le_iff_toNat_le.mp h.order
  have hspan := h.span
  have hclear := h.cleared hf hb
  rw [advance_within h.valid hf hb] at hclear ⊢
  rw [UInt32.lt_iff_toNat_lt] at hf hb
  refine ⟨h.valid, UInt32.le_iff_toNat_le.mpr (Nat.not_lt.mp hf), ?_, ?_, ?_⟩
  · simp only
    omega
  · simp only
    rw [h.front, pos_add]
    congr 1
    omega
  · intro k hk hk64
    simp only at hk hclear ⊢
    rw [hclear, pos_add]
    split
    · rfl
    · rename_i hno
      rcases Nat.lt_or_ge (s.toNat - a.backSeq.toNat + k) jitterSlotCount with hin | hout
      · exact h.inside _ (by omega) hin
      · -- the position has come round to a slot that the loop emptied
        refine absurd ⟨s.toNat - a.backSeq.toNat + k - jitterSlotCount, by omega, ?_⟩ hno
        rw [← pos_add_size, Nat.sub_add_cancel hout]

theorem Live.get_advance (h : a.Live) (hf : ¬ a.frontSeq < s) (hb : ¬ s < a.backSeq)
    (x : UInt32) : (a.advance s).get x = if s ≤ x then a.get x else none := by
  have hspan := h.span
  have hclear := h.cleared hf hb
  rw [get_of_valid h.valid, get_of_valid (h.advance_live hf hb).valid]
  rw [advance_within h.valid hf hb] at hclear ⊢
  rw [UInt32.lt_iff_toNat_lt] at hf hb
  simp only [UInt32.le_iff_toNat_le] at hclear ⊢
  by_cases hin : s.toNat ≤ x.toNat ∧ x.toNat ≤ a.frontSeq.toNat
  · have hdist : s.toNat - a.backSeq.toNat + (x.toNat - s.toNat)
        = x.toNat - a.backSeq.toNat := by omega
    rw [if_pos hin, if_pos hin.1, if_pos (by omega), hclear, pos_add, hdist, if_neg]
    rintro ⟨k, hk, he⟩
    rw [pos_inj _ (by omega) (by omega)] at he
    omega
  · rw [if_neg hin]
    split
    · rw [if_neg (by omega)]
    · rfl

/-- `advance` drops exactly the older seqs. -/
theorem Live.advance (h : a.Live) :
    (a.advance s).Aligned ∧ ∀ x, (a.advance s).get x = if s ≤ x then a.get x else none := by
  by_cases hgt : a.frontSeq < s
  · rw [advance_beyond h.valid hgt]
    refine ⟨Or.inl a.idle_clear, fun x => ?_⟩
    rw [a.idle_clear.get_eq, get_of_valid h.valid]
    simp only [UInt32.le_iff_toNat_le, UInt32.lt_iff_toNat_lt] at hgt ⊢
    split
    · rw [if_neg (by omega)]
    · rfl
  · by_cases hlt : s < a.backSeq
    · rw [advance_below hlt hgt]
      refine ⟨Or.inr h, fun x => ?_⟩
      rw [get_of_valid h.valid]
      simp only [UInt32.le_iff_toNat_le, UInt32.lt_iff_toNat_lt] at hlt ⊢
      split
      · rw [if_pos (by omega)]
      · simp
    · exact ⟨Or.inr (h.advance_live hgt hlt), h.get_advance hgt hlt⟩

/-- `take` removes the buffer of the seq and no other. -/
theorem Live.take (h : a.Live) :
    (a.take s).Live ∧ ∀ x, (a.take s).get x = if x = s then none else a.get x := by
  by_cases hg : (a.get s).isSome = true
  · have hin : a.backSeq ≤ s ∧ s ≤ a.frontSeq := by
      by_contra hc
      rw [get_of_valid h.valid, if_neg hc] at hg
      cases hg
    have htake : a.take s = { a with
        slots := Function.update a.slots (pos a.back (s.toNat - a.backSeq.toNat)) none } := by
      simp [JitterArray.take, hg, getOffset_of_le hin.1]
    simp only [UInt32.le_iff_toNat_le] at hin
    have hspan := h.span
    have hlive : (a.take s).Live := by
      rw [htake]
      refine ⟨h.valid, h.order, h.span, h.front, ?_⟩
      intro k hk hk64
      simp only at hk ⊢
      rw [Function.update_of_ne (by rw [Ne, pos_inj _ hk64 (by omega)]; omega)]
      exact h.inside k hk hk64
    refine ⟨hlive, fun x => ?_⟩
    rw [get_of_valid h.valid, get_of_valid hlive.valid, htake]
    simp only [UInt32.le_iff_toNat_le]
    by_cases hx : x = s
    · simp [hx]
    · have hx' : x.toNat ≠ s.toNat := fun he => hx (UInt32.toNat_inj.mp he)
      rw [if_neg hx]
      split
      · rw [Function.update_of_ne (by rw [Ne, pos_inj _ (by omega) (by omega)]; omega)]
      · rfl
  · have htake : a.take s = a := by simp [JitterArray.take, hg]
    rw [htake]
    refine ⟨h, fun x => ?_⟩
    by_cases hx : x = s
    · subst hx
      simpa using hg
    · rw [if_neg hx]

/-! ## Puts that do not fit -/

/-- What a slot of a live array holds is found under some seq. -/
theorem Live.exists_get (h : a.Live) {i : Fin jitterSlotCount} (hi : a.slots i = some b) :
    ∃ x, a.get x = some b := by
  obtain ⟨k, hk, rfl⟩ := exists_pos a.back i
  have hin : k ≤ a.frontSeq.toNat - a.backSeq.toNat := by
    by_contra hc
    rw [h.inside k (by omega) hk] at hi
    cases hi
  obtain ⟨x, hb, hf, hx⟩ := exists_seq_at h.order hin
  refine ⟨x, ?_⟩
  rw [get_of_valid h.valid, if_pos ⟨hb, hf⟩, ← getOffset_of_le hb, hx, hi]

/-- More than 64 above the oldest seq the array first advances to 64 below. -/
theorem put_far (hv : a.frontSeq ≠ invalidSeq) (hs : ¬ s < a.backSeq)
    (hd : jitterSlotCount < s.toNat - a.backSeq.toNat) :
    (a.put s b).2 = { a.advance (s - 64) with
      front := pos (a.advance (s - 64)).front (s.toNat - a.backSeq.toNat), frontSeq := s
      slots := Function.update (a.advance (s - 64)).slots
        (pos (a.advance (s - 64)).front (s.toNat - a.backSeq.toNat)) (some b) } := by
  have h64 : (64 : UInt32).toNat = jitterSlotCount := rfl
  have hdiff : s - a.backSeq > 64 := by
    rw [gt_iff_lt, UInt32.lt_iff_toNat_lt, toNat_sub_of_ge hs, h64]
    omega
  have hto : a.backSeq + (s - a.backSeq - 64) = s - 64 := by grind
  simp [put, hv, hs, hdiff, hto, toNat_sub_of_ge hs]

/-- More than 64 above, the buffer is not found: `backSeq` is no seq after
everything was dropped, and front and back have come round otherwise. -/
theorem Live.put_far_lost (h : a.Live) (hs : s.toNat < 2 ^ 31) (hge : ¬ s < a.backSeq)
    (hd : jitterSlotCount < s.toNat - a.backSeq.toNat) (hfresh : ∀ i, a.slots i ≠ some b) :
    (a.put s b).2.get s ≠ some b := by
  have hle := UInt32.le_iff_toNat_le.mp h.order
  have hn : jitterSlotCount = 64 := rfl
  have h64 : (64 : UInt32) ≤ s := by
    rw [UInt32.le_iff_toNat_le, show (64 : UInt32).toNat = 64 from rfl]
    omega
  have hto : (s - 64).toNat = s.toNat - 64 := UInt32.toNat_sub_of_le _ _ h64
  intro hget
  rw [put_far h.valid hge hd, get_of_valid (ne_invalid_of_lt hs)] at hget
  by_cases hgt : a.frontSeq < s - 64
  · rw [advance_beyond h.valid hgt] at hget
    have : ¬ invalidSeq ≤ s := by
      rw [UInt32.le_iff_toNat_le]
      exact Nat.not_le.mpr (Nat.lt_trans hs (by decide))
    simp [JitterArray.clear, this] at hget
  · have hlt : ¬ s - 64 < a.backSeq := by
      rw [UInt32.lt_iff_toNat_lt, hto]
      omega
    have hone : a.front ≠ a.back := fun hone => by
      rw [h.single hone, UInt32.lt_iff_toNat_lt, hto] at hgt
      omega
    have hturn : s.toNat - a.backSeq.toNat
        = (s.toNat - 64 - a.backSeq.toNat) + jitterSlotCount := by omega
    have hdist : s.toNat - (s.toNat - 64) = 0 + jitterSlotCount := by omega
    rw [advance_within h.valid hgt hlt] at hget
    simp only [hto, hdist, hturn, pos_add_size, pos_zero] at hget
    split at hget
    · rw [Function.update_of_ne fun he => hone ((pos_left_inj _).mp he).symm] at hget
      exact hfresh _ (clear_sub _ _ _ _ _ hget)
    · cases hget

/-- **Every other put goes wrong**: the buffer is not found under its seq,
or it is found under the oldest seq as well. -/
theorem Live.put_misfit (h : a.Live) (hs : s.toNat < 2 ^ 31) (hge : ¬ s < a.backSeq)
    (hbad : ¬ a.Fits s) (hfresh : ∀ i, a.slots i ≠ some b) :
    (a.put s b).2.get s ≠ some b ∨ ((a.put s b).2.get a.backSeq = some b ∧ s ≠ a.backSeq) := by
  have hne := ne_invalid_of_lt hs
  rcases Nat.lt_or_ge jitterSlotCount (s.toNat - a.backSeq.toNat) with hd | hd
  · exact .inl (h.put_far_lost hs hge hd hfresh)
  · rw [put_near h.valid hge hd]
    by_cases hone : a.front = a.back
    · -- exactly 64 above: the slot of the oldest seq is written
      have hd64 : s.toNat - a.backSeq.toNat = 0 + jitterSlotCount := by
        have hfar : ¬ s.toNat - a.backSeq.toNat < jitterSlotCount :=
          fun hd => hbad (.inr (.inr ⟨hone, hd⟩))
        omega
      refine Or.inr ⟨?_, fun he => by rw [he] at hd64; omega⟩
      rw [get_of_valid hne, if_pos ⟨UInt32.le_refl _, UInt32.not_lt.mp hge⟩]
      have hback : pos a.back (0 + jitterSlotCount) = a.back := by rw [pos_add_size, pos_zero]
      simp only [hone, hd64, hback, Nat.sub_self, pos_zero, Function.update_self]
    · refine Or.inl fun hget => ?_
      rw [get_of_valid hne, if_pos ⟨UInt32.not_lt.mp hge, UInt32.le_refl _⟩] at hget
      simp only at hget
      rw [Function.update_of_ne fun he => hone ((pos_left_inj _).mp he).symm] at hget
      exact hfresh _ hget

end

/-! ## Runs -/

/-- An array and, as history, everything that was put into it. -/
structure JitterRun (β : Type*) where
  array : JitterArray β := {}
  puts : List (UInt32 × β) := []

inductive JitterEvent (β : Type*) where
  | put (seq : UInt32) (buffer : β)
  | take (seq : UInt32)
  | advance (seq : UInt32)
  | clear

namespace JitterRun

def step (r : JitterRun β) : JitterEvent β → JitterRun β
  | .put s b => { array := (r.array.put s b).2, puts := (s, b) :: r.puts }
  | .take s => { r with array := r.array.take s }
  | .advance s => { r with array := r.array.advance s }
  | .clear => { r with array := r.array.clear }

/-- Seqs are below `2^31`, and a buffer is an object of its own: it is put
once. -/
def Admissible (r : JitterRun β) : JitterEvent β → Prop
  | .put s b => s.toNat < 2 ^ 31 ∧ ∀ y, (y, b) ∉ r.puts
  | .take s => s.toNat < 2 ^ 31
  | .advance s => s.toNat < 2 ^ 31
  | .clear => True

/-- What a step owes the sliding-window map: a put that is not refused is
found under its seq, every stored seq down to 63 below it stays with its
own buffer, and no buffer is found under the seq of another put. -/
structure StepOk (r : JitterRun β) (e : JitterEvent β) : Prop where
  stored : ∀ s b, e = .put s b → ¬ r.array.Rejects s → (r.step e).array.get s = some b
  kept : ∀ s b, e = .put s b → ¬ r.array.Rejects s → ∀ x c, x ≠ s → s.toNat ≤ x.toNat + 63 →
    r.array.get x = some c → (r.step e).array.get x = some c
  own : ∀ x b, (r.step e).array.get x = some b → ∀ y, (y, b) ∈ (r.step e).puts → y = x

/-- Every put fits. -/
def PutFits (r : JitterRun β) : JitterEvent β → Prop
  | .put s _ => r.array.Fits s
  | _ => True

/-- The invariant: the array is aligned, what is found was put there, and
the buffers put are distinct. -/
structure Inv (r : JitterRun β) : Prop where
  aligned : r.array.Aligned
  owner : ∀ x b, r.array.get x = some b → (x, b) ∈ r.puts
  once : ∀ x y b, (x, b) ∈ r.puts → (y, b) ∈ r.puts → x = y

theorem inv_init : Inv ({} : JitterRun β) where
  aligned := Or.inl ⟨rfl, fun _ => rfl⟩
  owner := fun x b h => by simp [JitterArray.get, JitterArray.empty] at h
  once := by simp

variable {r : JitterRun β} {e : JitterEvent β} {s : UInt32} {b : β}

theorem Inv.own (h : Inv r) {x : UInt32} (hx : r.array.get x = some b) {y : UInt32}
    (hy : (y, b) ∈ r.puts) : y = x :=
  h.once y x b hy (h.owner x b hx)

/-- A put that is not refused is the insertion of the map. -/
theorem Inv.put_get (h : Inv r) (hs : s.toNat < 2 ^ 31) (hf : r.array.Fits s)
    (hr : ¬ r.array.Rejects s) :
    (r.array.put s b).2.Aligned ∧
      ∀ x, (r.array.put s b).2.get x = if x = s then some b else r.array.get x := by
  have hne := ne_invalid_of_lt hs
  rcases h.aligned with hidle | hlive
  · have := hidle.put (b := b) hne
    exact ⟨Or.inr this.1, this.2⟩
  · have hempty : r.array.empty = false := empty_eq_false.mpr hlive.valid
    have hge : ¬ s < r.array.backSeq := fun hlt => hr ⟨hempty, hlt⟩
    rcases hf with hf | hf | ⟨hone, hd⟩
    · rw [hempty] at hf
      cases hf
    · exact absurd hf hge
    · have := hlive.put (b := b) hne hge hone hd
      exact ⟨Or.inr this.1, this.2⟩

/-- What is found in an array of fewer buffers was put. -/
theorem Inv.fewer (h : Inv r) {a : JitterArray β} (ha : a.Aligned)
    (hget : ∀ x c, a.get x = some c → r.array.get x = some c) : Inv { r with array := a } :=
  ⟨ha, fun x c hx => h.owner x c (hget x c hx), h.once⟩

/-- **The step lemma.** -/
theorem Inv.step (h : Inv r) (ha : Admissible r e) (hf : PutFits r e) : Inv (r.step e) := by
  cases e with
  | put s b =>
      have honce : ∀ x y c, (x, c) ∈ (s, b) :: r.puts → (y, c) ∈ (s, b) :: r.puts → x = y := by
        intro x y c hx hy
        simp only [List.mem_cons, Prod.mk.injEq] at hx hy
        rcases hx with ⟨rfl, rfl⟩ | hx <;> rcases hy with ⟨rfl, hc⟩ | hy
        · rfl
        · exact absurd hy (ha.2 y)
        · subst hc
          exact absurd hx (ha.2 x)
        · exact h.once x y c hx hy
      by_cases hr : r.array.Rejects s
      · refine ⟨?_, ?_, honce⟩ <;> simp only [JitterRun.step, put_rejects hr]
        · exact h.aligned
        · exact fun x c hx => List.mem_cons_of_mem _ (h.owner x c hx)
      · obtain ⟨hal, hget⟩ := h.put_get (b := b) ha.1 hf hr
        refine ⟨hal, ?_, honce⟩
        intro x c hx
        simp only [JitterRun.step, hget] at hx ⊢
        split at hx
        · rename_i he
          cases hx
          exact he ▸ List.mem_cons_self
        · exact List.mem_cons_of_mem _ (h.owner x c hx)
  | take s =>
      rcases h.aligned with hidle | hlive
      · have htake : r.array.take s = r.array := by simp [JitterArray.take, hidle.get_eq]
        rw [JitterRun.step, htake]
        exact h
      · obtain ⟨hl, hget⟩ := hlive.take (s := s)
        refine h.fewer (.inr hl) ?_
        intro x c hx
        rw [hget] at hx
        split at hx
        · cases hx
        · exact hx
  | advance s =>
      rcases h.aligned with hidle | hlive
      · have hadv : r.array.advance s = r.array := by simp [JitterArray.advance, hidle.frontSeq]
        rw [JitterRun.step, hadv]
        exact h
      · obtain ⟨hal, hget⟩ := hlive.advance (s := s)
        refine h.fewer hal ?_
        intro x c hx
        rw [hget] at hx
        split at hx
        · exact hx
        · cases hx
  | clear =>
      refine h.fewer (.inl r.array.idle_clear) ?_
      intro x c hx
      rw [r.array.idle_clear.get_eq] at hx
      cases hx

/-- A fitting step does what it owes. -/
theorem Inv.stepOk (h : Inv r) (ha : Admissible r e) (hf : PutFits r e) : StepOk r e := by
  have hown := fun x b hx y hy => (h.step ha hf).own (x := x) (b := b) hx (y := y) hy
  refine ⟨?_, ?_, hown⟩
  · rintro s b rfl hr
    simp [JitterRun.step, (h.put_get ha.1 hf hr).2]
  · rintro s b rfl hr x c hne - hx
    simp only [JitterRun.step, (h.put_get ha.1 hf hr).2, if_neg hne, hx]

/-- A step that does what it owes is a fitting one. -/
theorem StepOk.fits (hok : StepOk r e) (h : Inv r) (ha : Admissible r e) : PutFits r e := by
  cases e with
  | put s b =>
      by_contra hbad
      rcases h.aligned with hidle | hlive
      · exact hbad (Or.inl (empty_eq_true.mpr hidle.frontSeq))
      · have hge : ¬ s < r.array.backSeq := fun hlt => hbad (Or.inr (Or.inl hlt))
        have hfresh : ∀ i, r.array.slots i ≠ some b := fun i hi => by
          obtain ⟨x, hx⟩ := hlive.exists_get hi
          exact ha.2 x (h.owner x b hx)
        rcases hlive.put_misfit ha.1 hge hbad hfresh with hno | ⟨htwice, hne⟩
        · exact hno (hok.stored s b rfl fun hr => hge hr.2)
        · exact hne (hok.own _ b htwice s (by simp [JitterRun.step]))
  | take s => trivial
  | advance s => trivial
  | clear => trivial

/-- **The sliding-window map, exactly**: over every run of puts, removals,
advances and clears with seqs below `2^31` and each buffer put once, every
step does what the map owes if and only if every put fits. -/
theorem sliding_window_iff_fits (es : List (JitterEvent β))
    (hadm : Along step Admissible {} es) :
    Along step StepOk ({} : JitterRun β) es ↔ Along step PutFits {} es := by
  refine along_congr (I := Inv) ?_ ?_ inv_init hadm
  · exact fun r e hinv ha => ⟨fun hok => hok.fits hinv ha, fun hf => hinv.stepOk ha hf⟩
  · exact fun r e hinv ha hf => hinv.step ha hf

/-- A run that uses the array as it is made for: each put follows the
removal of what was before. -/
theorem sliding_window_in_step :
    Along step StepOk ({} : JitterRun ℕ)
        [.put 5 0, .put 7 1, .take 5, .advance 7, .put 9 2] ↔
      Along step PutFits ({} : JitterRun ℕ)
        [.put 5 0, .put 7 1, .take 5, .advance 7, .put 9 2] :=
  sliding_window_iff_fits _ (by simp [Along, Admissible, JitterRun.step])

/-- Three packets in order: the third is not found. -/
theorem sliding_window_fails :
    ¬ Along step StepOk ({} : JitterRun ℕ) [.put 10 0, .put 11 1, .put 12 2] := by
  rintro ⟨-, -, h, -⟩
  exact absurd (h.stored 12 2 rfl (by decide)) (by decide)

end JitterRun

end JitterArray

end Tgvoip
