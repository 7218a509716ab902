import Mathlib.Data.Rat.Defs
import Tgvoip.Lib.BitMask

/-!
# PacketManager — sequence numbers and the two acknowledgement masks

`controller/protocol/packets/PacketManager.{h,cpp}`: one manager per
stream. It numbers the packets sent on the stream, remembers the last
acknowledgement the peer returned (`lastAckedSeq`, `lastAckedSeqsMask`)
and keeps the receive window it will acknowledge itself
(`lastRemoteSeq`, `lastRemoteSeqsMask`).

All arithmetic is the source's 32-bit unsigned arithmetic. C++ leaves a
shift of a 32-bit word by 32 or more undefined; `<<<` on `UInt32` takes
the amount modulo 32, which is what the x86-64 and AArch64 shift
instructions do. `ackRemoteShifts` lists the amounts a call shifts by,
so that a result can speak of them.
-/

namespace Tgvoip

open BitMask

/-- Seconds. The source's `double` clock values are exact rationals here. -/
abbrev Time := ℚ

/-- `MAX_RECENT_PACKETS` (`Constants.h`). -/
def maxRecentPackets : UInt32 := 128

/-- `SEQ_MAX` (`PacketManager.h`). -/
def seqMax : UInt32 := 0xFFFFFFFF

def seqgt (s1 s2 : UInt32) : Bool :=
  (s1 > s2 && s1 - s2 ≤ seqMax / 2) || (s1 < s2 && s2 - s1 > seqMax / 2)

def seqgte (s1 s2 : UInt32) : Bool := s1 == s2 || seqgt s1 s2

/-- `CongestionControlPacket` (`CongestionControl.h`): what a sent packet is
known by afterwards. -/
structure CongestionControlPacket where
  seq : UInt32
  streamId : UInt8
  deriving DecidableEq, Repr

/-- What a `PacketSender` is told of a packet. -/
inductive SenderCall where
  | packetAcknowledged
  | packetLost
  deriving DecidableEq, Repr

/-- `RecentOutgoingPacket` (`PacketStructs.h`), without the field used by
group calls only. -/
structure RecentOutgoingPacket where
  pkt : CongestionControlPacket
  size : Nat
  endpoint : Int64
  sendTime : Time
  ackTime : Time := 0
  rttTime : Time := 0
  lost : Bool := false
  /-- History: what the packet's sender was told of it. -/
  reports : List SenderCall := []
  deriving DecidableEq, Repr

structure PacketManager where
  transportId : UInt8
  lastSentSeq : UInt32 := 0
  /-- The next local seqno. -/
  seq : UInt32 := 1
  lastAckedSeq : UInt32 := 0
  lastAckedSeqsMask : UInt32 := 0
  lastRemoteSeq : UInt32 := 0
  /-- No initialiser in the source. -/
  lastRemoteSeqsMask : UInt32
  recentOutgoingPackets : List RecentOutgoingPacket := []
  deriving DecidableEq, Repr

namespace PacketManager

/-- The constructor; `mask` is whatever the uninitialised field holds. -/
def new (transportId : UInt8) (mask : UInt32) : PacketManager :=
  { transportId, lastRemoteSeqsMask := mask }

/-- `nextLocalSeq`: the number handed out, and the manager after it. -/
def nextLocalSeq (pm : PacketManager) : UInt32 × PacketManager :=
  (pm.seq, { pm with seq := pm.seq + 1 })

def setLocalSeq (pm : PacketManager) (seq : UInt32) : PacketManager := { pm with seq }

def ackLocal (pm : PacketManager) (ackId mask : UInt32) : PacketManager :=
  { pm with lastAckedSeq := ackId, lastAckedSeqsMask := mask }

/-- The guard in front of `ackLocal` in `ProcessIncomingPacket`. -/
def takesAck (pm : PacketManager) (ackSeq : UInt32) : Bool :=
  ackSeq ≠ 0 && seqgt ackSeq pm.lastAckedSeq

def wasLocalAcked (pm : PacketManager) (seq : UInt32) : Bool :=
  if seq = pm.lastAckedSeq then true
  else if seq > pm.lastAckedSeq then false
  else
    let distance := pm.lastAckedSeq - seq
    if distance > 0 ∧ distance ≤ 32 then
      (pm.lastAckedSeqsMask >>> (32 - distance)) &&& 1 ≠ 0
    else false

/-- `ackRemoteSeq(uint32_t)`: whether the seq is new, and the window after it. -/
def ackRemoteSeq (pm : PacketManager) (ackId : UInt32) : Bool × PacketManager :=
  if seqgt ackId (pm.lastRemoteSeq - maxRecentPackets) then
    if ackId = pm.lastRemoteSeq then (false, pm)
    else if ackId > pm.lastRemoteSeq then
      let mask := (pm.lastRemoteSeqsMask <<< 1) ||| 1
      (true, { pm with
        lastRemoteSeqsMask := mask <<< ((ackId - pm.lastRemoteSeq) - 1)
        lastRemoteSeq := ackId })
    else
      let pos : UInt32 := 1 <<< ((pm.lastRemoteSeq - ackId) - 1)
      if pm.lastRemoteSeqsMask &&& pos ≠ 0 then (false, pm)
      else (true, { pm with lastRemoteSeqsMask := pm.lastRemoteSeqsMask ||| pos })
  else (false, pm)

/-- The amounts by which `ackRemoteSeq` shifts a 32-bit word on this call. -/
def ackRemoteShifts (pm : PacketManager) (ackId : UInt32) : List UInt32 :=
  if seqgt ackId (pm.lastRemoteSeq - maxRecentPackets) then
    if ackId = pm.lastRemoteSeq then []
    else if ackId > pm.lastRemoteSeq then [1, (ackId - pm.lastRemoteSeq) - 1]
    else [(pm.lastRemoteSeq - ackId) - 1]
  else []

def addRecentOutgoingPacket (pm : PacketManager) (pkt : RecentOutgoingPacket) : PacketManager :=
  let recent := pm.recentOutgoingPackets ++ [pkt]
  { pm with
    recentOutgoingPackets := recent.drop (recent.length - maxRecentPackets.toNat)
    lastSentSeq := pkt.pkt.seq }

/-! ## Spec lemmas -/

section
variable (pm : PacketManager)

@[simp] theorem nextLocalSeq_fst : pm.nextLocalSeq.1 = pm.seq := rfl

@[simp] theorem nextLocalSeq_snd : pm.nextLocalSeq.2 = { pm with seq := pm.seq + 1 } := rfl

@[simp] theorem ackLocal_lastAckedSeq (a m : UInt32) : (pm.ackLocal a m).lastAckedSeq = a := rfl

@[simp] theorem ackLocal_mask (a m : UInt32) : (pm.ackLocal a m).lastAckedSeqsMask = m := rfl

@[simp] theorem ackLocal_seq (a m : UInt32) : (pm.ackLocal a m).seq = pm.seq := rfl

@[simp] theorem ackLocal_recents (a m : UInt32) :
    (pm.ackLocal a m).recentOutgoingPackets = pm.recentOutgoingPackets := rfl

@[simp] theorem ackLocal_transportId (a m : UInt32) :
    (pm.ackLocal a m).transportId = pm.transportId := rfl

end

theorem toNat_sub_of_le {a b : UInt32} (h : b.toNat ≤ a.toNat) :
    (a - b).toNat = a.toNat - b.toNat := by
  have := a.toNat_lt
  rw [UInt32.toNat_sub]
  omega

theorem toNat_sub_of_lt {a b : UInt32} (h : a.toNat < b.toNat) :
    (a - b).toNat = 2 ^ 32 + a.toNat - b.toNat := by
  have := b.toNat_lt
  rw [UInt32.toNat_sub]
  omega

/-- The amount by which `ackRemoteSeq` shifts. -/
theorem toNat_shift {a b : UInt32} (h : b.toNat < a.toNat) :
    ((a - b) - 1).toNat = a.toNat - b.toNat - 1 := by
  have hsub : (a - b).toNat = a.toNat - b.toNat := toNat_sub_of_le (Nat.le_of_lt h)
  rw [toNat_sub_of_le (by rw [hsub, UInt32.toNat_one]; omega), hsub, UInt32.toNat_one]

/-- The serial-number order, in numbers. -/
theorem seqgt_iff (a b : UInt32) :
    seqgt a b = true ↔ (b.toNat < a.toNat ∧ a.toNat - b.toNat < 2 ^ 31) ∨
      (a.toNat < b.toNat ∧ 2 ^ 31 ≤ b.toNat - a.toNat) := by
  have hhalf : (seqMax / 2).toNat = 2 ^ 31 - 1 := rfl
  simp only [seqgt, gt_iff_lt, UInt32.lt_iff_toNat_lt, UInt32.le_iff_toNat_le, hhalf,
    Bool.or_eq_true, Bool.and_eq_true, decide_eq_true_eq]
  rcases Nat.lt_trichotomy a.toNat b.toNat with h | h | h
  · rw [toNat_sub_of_le (Nat.le_of_lt h)]; omega
  · omega
  · rw [toNat_sub_of_le (Nat.le_of_lt h)]; omega

/-- The window test. Below the head 128 the difference wraps, and then the
test only asks that the seq is not half the number space ahead. -/
theorem seqgt_window {head s : UInt32} (hh : head.toNat < 2 ^ 31) (hs : 1 ≤ s.toNat)
    (hs' : s.toNat < 2 ^ 31) :
    seqgt s (head - maxRecentPackets) = true ↔
      head.toNat < s.toNat + 128 ∧ s.toNat + 128 ≤ head.toNat + 2 ^ 31 := by
  have h128 : maxRecentPackets.toNat = 128 := rfl
  rw [seqgt_iff]
  rcases Nat.lt_or_ge head.toNat 128 with h | h
  · rw [toNat_sub_of_lt (by omega), h128]; omega
  · rw [toNat_sub_of_le (by omega), h128]; omega

/-- What the decoder reads: the bit of distance `d` is bit `32 - d`. -/
theorem wasLocalAcked_eq (pm : PacketManager) {s : UInt32} (hs : s < pm.lastAckedSeq)
    (hd : pm.lastAckedSeq.toNat - s.toNat ≤ 32) :
    pm.wasLocalAcked s =
      bit pm.lastAckedSeqsMask (32 - (pm.lastAckedSeq.toNat - s.toNat)) := by
  have hlt : s.toNat < pm.lastAckedSeq.toNat := UInt32.lt_iff_toNat_lt.mp hs
  have hdist : (pm.lastAckedSeq - s).toNat = pm.lastAckedSeq.toNat - s.toNat :=
    toNat_sub_of_le (Nat.le_of_lt hlt)
  have hne : s ≠ pm.lastAckedSeq := fun h => by rw [h] at hlt; omega
  have hngt : ¬ s > pm.lastAckedSeq := by
    rw [gt_iff_lt, UInt32.lt_iff_toNat_lt]; omega
  have hcond : pm.lastAckedSeq - s > 0 ∧ pm.lastAckedSeq - s ≤ 32 := by
    rw [gt_iff_lt, UInt32.lt_iff_toNat_lt, UInt32.le_iff_toNat_le, hdist]
    exact ⟨by simp only [UInt32.toNat_zero]; omega, hd⟩
  have hamount : (32 - (pm.lastAckedSeq - s)).toNat
      = 32 - (pm.lastAckedSeq.toNat - s.toNat) := by
    rw [toNat_sub_of_le (by rw [hdist]; exact hd), hdist]
    rfl
  simp only [wasLocalAcked, hne, hngt, hcond, if_false, if_true, and_self]
  rw [shiftRight_and_one _ _ (by omega), hamount]
  cases bit pm.lastAckedSeqsMask (32 - (pm.lastAckedSeq.toNat - s.toNat)) <;> simp

/-! ## The branches of `ackRemoteSeq` -/

/-- The call shifts by amounts C++ defines: the seq is at most 32 ahead of
the head, or at most 32 behind it, or too old to be looked at. -/
def Narrow (pm : PacketManager) (s : UInt32) : Prop :=
  (pm.lastRemoteSeq < s → s.toNat - pm.lastRemoteSeq.toNat ≤ 32) ∧
  (s < pm.lastRemoteSeq → pm.lastRemoteSeq.toNat - s.toNat ≤ 32 ∨
    128 ≤ pm.lastRemoteSeq.toNat - s.toNat)

instance (pm : PacketManager) (s : UInt32) : Decidable (pm.Narrow s) :=
  inferInstanceAs (Decidable (_ ∧ _))

section
variable {pm : PacketManager} {s : UInt32}

/-- Nothing but the receive window changes. -/
theorem ackRemoteSeq_window (pm : PacketManager) (s : UInt32) : ∃ head mask,
    (pm.ackRemoteSeq s).2 = { pm with lastRemoteSeq := head, lastRemoteSeqsMask := mask } := by
  unfold ackRemoteSeq
  dsimp only
  split_ifs <;> exact ⟨_, _, rfl⟩

theorem ackRemoteSeq_same : pm.ackRemoteSeq pm.lastRemoteSeq = (false, pm) := by
  unfold ackRemoteSeq
  split <;> simp

theorem ackRemoteSeq_outside (h : seqgt s (pm.lastRemoteSeq - maxRecentPackets) = false) :
    pm.ackRemoteSeq s = (false, pm) := by
  simp [ackRemoteSeq, h]

theorem ackRemoteSeq_ahead (h : seqgt s (pm.lastRemoteSeq - maxRecentPackets) = true)
    (hs : pm.lastRemoteSeq < s) :
    pm.ackRemoteSeq s = (true, { pm with
      lastRemoteSeqsMask :=
        ((pm.lastRemoteSeqsMask <<< 1) ||| 1) <<< ((s - pm.lastRemoteSeq) - 1)
      lastRemoteSeq := s }) := by
  have hne : s ≠ pm.lastRemoteSeq := fun he => by
    rw [he] at hs; exact absurd (UInt32.lt_iff_toNat_lt.mp hs) (Nat.lt_irrefl _)
  simp [ackRemoteSeq, h, hne, hs]

theorem ackRemoteSeq_behind (h : seqgt s (pm.lastRemoteSeq - maxRecentPackets) = true)
    (hs : s < pm.lastRemoteSeq) (hd : pm.lastRemoteSeq.toNat - s.toNat ≤ 32) :
    pm.ackRemoteSeq s =
      if bit pm.lastRemoteSeqsMask (pm.lastRemoteSeq.toNat - s.toNat - 1) then (false, pm)
      else (true, { pm with lastRemoteSeqsMask :=
        pm.lastRemoteSeqsMask ||| (1 <<< ((pm.lastRemoteSeq - s) - 1)) }) := by
  have hlt : s.toNat < pm.lastRemoteSeq.toNat := UInt32.lt_iff_toNat_lt.mp hs
  have hne : s ≠ pm.lastRemoteSeq := fun he => by rw [he] at hlt; omega
  have hngt : ¬ pm.lastRemoteSeq < s := by rw [UInt32.lt_iff_toNat_lt]; omega
  have hamount := toNat_shift hlt
  have hz := and_one_shiftLeft_eq_zero pm.lastRemoteSeqsMask ((pm.lastRemoteSeq - s) - 1)
    (by omega)
  rw [hamount] at hz
  simp only [ackRemoteSeq, h, hne, hngt, if_true, if_false, ne_eq, hz]
  cases bit pm.lastRemoteSeqsMask (pm.lastRemoteSeq.toNat - s.toNat - 1) <;> simp

/-- The mask after a step ahead by `g ≤ 32`: the old head takes distance `g`,
every older position moves up by `g`. -/
theorem bit_mask_ahead (m g : UInt32) (hg : 1 ≤ g.toNat) (hg' : g.toNat ≤ 32) (i : Nat) :
    bit (((m <<< 1) ||| 1) <<< (g - 1)) i =
      (decide (i < 32) && (decide (i + 1 = g.toNat) ||
        (decide (g.toNat ≤ i) && bit m (i - g.toNat)))) := by
  have hsub : (g - 1).toNat = g.toNat - 1 := toNat_sub_of_le (by simpa using hg)
  have hone : (1 : UInt32).toNat = 1 := rfl
  rw [bit_shiftLeft _ _ (by omega), hsub, bit_or, bit_one,
    bit_shiftLeft _ _ (by rw [hone]; omega), hone]
  have hi : i - (g.toNat - 1) - 1 = i - g.toNat := by omega
  rw [hi, Bool.eq_iff_iff]
  grind

end

end PacketManager

end Tgvoip
