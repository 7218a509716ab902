import Tgvoip.Lib.Runs
import Tgvoip.Lib.SlotTable
import Tgvoip.Packets.PacketManager
import Tgvoip.Tools.HistoricBuffer

/-!
# CongestionControl — the packets in flight

`controller/net/CongestionControl.{h,cpp}`. A table of a hundred packets
that were sent and not heard of again: `packetSent` takes a free slot, or
the oldest packet's, which then counts as lost; an acknowledgement, a
report of loss and the age check of `tick` free slots. The bytes in flight
and the losses are kept beside the table.

Reading the clock is a parameter of the operations: `now` is the time read,
and `tick` reads it once for each slot.
-/

namespace Tgvoip

/-- `tgvoip_congestionctl_packet_t`, without `ack`, which nothing reads. -/
structure InflightPacket where
  seq : UInt32 := 0
  streamId : UInt8 := 0
  sendTime : Time := 0
  size : UInt64 := 0
  deriving DecidableEq, Repr

/-- What the accounting uses of the class; the window size and the
bandwidth action are not among it. -/
structure CongestionControl where
  rttHistory : HistoricBuffer Time 100 := .new
  inflightHistory : HistoricBuffer UInt64 30 := .new
  inflightPackets : Fin 100 → InflightPacket := fun _ => {}
  lossCount : UInt32 := 0
  tmpRtt : Time := 0
  tmpRttCount : UInt32 := 0
  /-- `std::map` by stream. -/
  lastSentSeq : UInt8 → Option UInt32 := fun _ => none
  tickCount : UInt32 := 0
  inflightDataSize : UInt64 := 0

namespace CongestionControl

/-- `TGVOIP_CONCTL_LOST_AFTER`. -/
def lostAfter : Time := 2

/-- The loop of `PacketSent`: the first free slot, or else the first of those
sent earliest. `slot` is what was found so far, with `smallestSendTime`. -/
def chooseSlot (packets : Fin 100 → InflightPacket) :
    List (Fin 100) → Option (Fin 100 × Time) → Option (Fin 100)
  | [], slot => slot.map Prod.fst
  | i :: is, slot =>
      if (packets i).sendTime = 0 then some i
      else
        match slot with
        | none => chooseSlot packets is (some (i, (packets i).sendTime))
        | some (_, smallestSendTime) =>
            if smallestSendTime > (packets i).sendTime then
              chooseSlot packets is (some (i, (packets i).sendTime))
            else chooseSlot packets is slot

def lastSeq (c : CongestionControl) (streamId : UInt8) : UInt32 := (c.lastSentSeq streamId).getD 0

/-- Whether `PacketSent` goes beyond its check of the seq. -/
def passes (c : CongestionControl) (pkt : CongestionControlPacket) : Bool :=
  seqgt pkt.seq (c.lastSeq pkt.streamId) && pkt.seq != c.lastSeq pkt.streamId

def fillSlot (c : CongestionControl) (i : Fin 100) (packet : InflightPacket) : CongestionControl :=
  { c with
    inflightPackets := Function.update c.inflightPackets i packet
    inflightDataSize := c.inflightDataSize + packet.size }

/-- A packet that was still in the slot counts as lost. -/
def takeSlot (c : CongestionControl) (slot : Fin 100) (packet : InflightPacket) :
    CongestionControl :=
  let c := if (c.inflightPackets slot).sendTime > 0 then
      { c with
        inflightDataSize := c.inflightDataSize - (c.inflightPackets slot).size
        lossCount := c.lossCount + 1 }
    else c
  c.fillSlot slot packet

def setLastSeq (c : CongestionControl) (streamId : UInt8) (seq : UInt32) : CongestionControl :=
  { c with lastSentSeq := Function.update c.lastSentSeq streamId (some seq) }

def packetSent (c : CongestionControl) (pkt : CongestionControlPacket) (size : UInt64)
    (now : Time) : CongestionControl :=
  if !c.passes pkt then c.setLastSeq pkt.streamId (c.lastSeq pkt.streamId)
  else
    let c := c.setLastSeq pkt.streamId pkt.seq
    match chooseSlot c.inflightPackets (List.finRange 100) none with
    | none => c  -- `assert(slot != NULL)`
    | some slot =>
        c.takeSlot slot { seq := pkt.seq, size, streamId := pkt.streamId, sendTime := now }

/-- The loops of `PacketAcknowledged` and `PacketLost`. -/
def findPacket (c : CongestionControl) (pkt : CongestionControlPacket) : Option (Fin 100) :=
  (List.finRange 100).find? fun i =>
    (c.inflightPackets i).seq == pkt.seq && (c.inflightPackets i).streamId == pkt.streamId
      && (c.inflightPackets i).sendTime > 0

/-- `packet.sendTime = 0; inflightDataSize -= packet.size;` -/
def freeSlot (c : CongestionControl) (i : Fin 100) : CongestionControl :=
  { c with
    inflightPackets := Function.update c.inflightPackets i
      { c.inflightPackets i with sendTime := 0 }
    inflightDataSize := c.inflightDataSize - (c.inflightPackets i).size }

def packetAcknowledged (c : CongestionControl) (pkt : CongestionControlPacket) (now : Time) :
    CongestionControl :=
  match c.findPacket pkt with
  | none => c
  | some i =>
      freeSlot { c with
        tmpRtt := c.tmpRtt + (now - (c.inflightPackets i).sendTime)
        tmpRttCount := c.tmpRttCount + 1 } i

def loseSlot (c : CongestionControl) (i : Fin 100) : CongestionControl :=
  { c.freeSlot i with lossCount := c.lossCount + 1 }

def packetLost (c : CongestionControl) (pkt : CongestionControlPacket) : CongestionControl :=
  match c.findPacket pkt with
  | none => c
  | some i => c.loseSlot i

/-- One round of the loop of `Tick`. -/
def tickSlot (now : Fin 100 → Time) (c : CongestionControl) (i : Fin 100) : CongestionControl :=
  if (c.inflightPackets i).sendTime ≠ 0 ∧ now i - (c.inflightPackets i).sendTime > lostAfter then
    c.loseSlot i
  else c

/-- The round trip times of the acknowledgements since the last tick. -/
def rollRtt (c : CongestionControl) : CongestionControl :=
  if c.tmpRttCount > 0 then
    { c with
      rttHistory := c.rttHistory.add (c.tmpRtt / c.tmpRttCount.toNat)
      tmpRtt := 0
      tmpRttCount := 0 }
  else c

def tick (c : CongestionControl) (now : Fin 100 → Time) : CongestionControl :=
  let c := rollRtt { c with tickCount := c.tickCount + 1 }
  let c := (List.finRange 100).foldl (tickSlot now) c
  { c with inflightHistory := c.inflightHistory.add c.inflightDataSize }

/-! ## The choice of a slot -/

theorem chooseSlot_some (packets : Fin 100 → InflightPacket) (is : List (Fin 100))
    (slot : Fin 100 × Time) : ∃ i, chooseSlot packets is (some slot) = some i := by
  induction is generalizing slot with
  | nil => exact ⟨slot.1, rfl⟩
  | cons i is ih =>
      obtain ⟨j, smallest⟩ := slot
      rw [chooseSlot]
      split_ifs
      · exact ⟨i, rfl⟩
      · exact ih _
      · exact ih _

/-- The assertion of `PacketSent`. -/
theorem exists_chooseSlot (packets : Fin 100 → InflightPacket) :
    ∃ i, chooseSlot packets (List.finRange 100) none = some i := by
  rw [List.finRange_succ, chooseSlot]
  split
  · exact ⟨0, rfl⟩
  · exact chooseSlot_some packets _ _

/-! ## What is kept of the table -/

open SlotTable

/-- A packet that is counted as in flight. -/
def InFlight (p : InflightPacket) : Prop := p.sendTime ≠ 0

instance (p : InflightPacket) : Decidable (InFlight p) := inferInstanceAs (Decidable (_ ≠ _))

def bytes (p : InflightPacket) : UInt64 := if InFlight p then p.size else 0

def count (p : InflightPacket) : ℕ := if InFlight p then 1 else 0

/-- Which packet a slot is about. -/
def key (p : InflightPacket) : UInt8 × UInt32 := (p.streamId, p.seq)

/-- The books are right: `sent` packets passed the check, `gone` of them are
no longer in flight. -/
structure Accounted (c : CongestionControl) (sent gone : ℕ) : Prop where
  bytes_eq : c.inflightDataSize = total bytes c.inflightPackets
  unique : Unique InFlight key c.inflightPackets
  sendTime_nonneg : ∀ i, 0 ≤ (c.inflightPackets i).sendTime
  seq_le : ∀ i, InFlight (c.inflightPackets i) →
    (c.inflightPackets i).seq.toNat ≤ (c.lastSeq (c.inflightPackets i).streamId).toNat
  lastSeq_lt : ∀ s, (c.lastSeq s).toNat < 2 ^ 31
  sent_eq : sent = total count c.inflightPackets + gone

/-- The books are right, and the loss counter is the number of packets that
are gone without an acknowledgement. -/
def Balanced (c : CongestionControl) (sent acked : ℕ) : Prop :=
  ∃ lost, Accounted c sent (acked + lost) ∧ c.lossCount = UInt32.ofNat lost

theorem accounted_init : Accounted {} 0 0 where
  bytes_eq := by simp [total, bytes, InFlight]
  unique := fun i _ hi => absurd rfl hi
  sendTime_nonneg := fun _ => le_refl _
  seq_le := fun _ hi => absurd rfl hi
  lastSeq_lt := fun _ => Nat.two_pow_pos 31
  sent_eq := by simp [total, count, InFlight]

variable {c d : CongestionControl} {sent gone acked : ℕ} {i : Fin 100}

@[simp] theorem freeSlot_inflightPackets : (c.freeSlot i).inflightPackets
    = Function.update c.inflightPackets i { c.inflightPackets i with sendTime := 0 } := rfl

@[simp] theorem lastSeq_freeSlot : (c.freeSlot i).lastSeq = c.lastSeq := rfl

@[simp] theorem fillSlot_inflightPackets (p : InflightPacket) :
    (c.fillSlot i p).inflightPackets = Function.update c.inflightPackets i p := rfl

@[simp] theorem lastSeq_fillSlot (p : InflightPacket) : (c.fillSlot i p).lastSeq = c.lastSeq := rfl

/-- Nothing but the table, its total and the last seqs matters. -/
theorem Accounted.same (h : Accounted c sent gone) (hp : d.inflightPackets = c.inflightPackets)
    (hb : d.inflightDataSize = c.inflightDataSize) (hs : d.lastSeq = c.lastSeq) :
    Accounted d sent gone where
  bytes_eq := by rw [hp, hb, h.bytes_eq]
  unique := hp ▸ h.unique
  sendTime_nonneg := hp ▸ h.sendTime_nonneg
  seq_le := by rw [hp, hs]; exact h.seq_le
  lastSeq_lt := hs ▸ h.lastSeq_lt
  sent_eq := hp ▸ h.sent_eq

theorem Balanced.same (h : Balanced c sent acked) (hp : d.inflightPackets = c.inflightPackets)
    (hb : d.inflightDataSize = c.inflightDataSize) (hs : d.lastSeq = c.lastSeq)
    (hl : d.lossCount = c.lossCount) : Balanced d sent acked := by
  obtain ⟨lost, h, hloss⟩ := h
  exact ⟨lost, h.same hp hb hs, hl.trans hloss⟩

theorem Accounted.freeSlot (h : Accounted c sent gone) (hi : InFlight (c.inflightPackets i)) :
    Accounted (c.freeSlot i) sent (gone + 1) where
  bytes_eq := by
    have hfree : bytes { c.inflightPackets i with sendTime := 0 } = 0 := if_neg fun h => h rfl
    have hold : bytes (c.inflightPackets i) = (c.inflightPackets i).size := if_pos hi
    have hsum := total_update bytes c.inflightPackets i { c.inflightPackets i with sendTime := 0 }
    rw [hfree, hold, add_zero] at hsum
    show c.inflightDataSize - _ = _
    rw [h.bytes_eq, ← hsum]
    exact add_sub_cancel_right _ _
  unique := h.unique.free i fun h => h rfl
  sendTime_nonneg := (Function.forall_update_iff _ fun _ (q : InflightPacket) => 0 ≤ q.sendTime).mpr
    ⟨le_refl _, fun j _ => h.sendTime_nonneg j⟩
  seq_le := (Function.forall_update_iff _ fun _ (q : InflightPacket) =>
      InFlight q → q.seq.toNat ≤ (c.lastSeq q.streamId).toNat).mpr
    ⟨fun hfree => absurd rfl hfree, fun j _ => h.seq_le j⟩
  lastSeq_lt := h.lastSeq_lt
  sent_eq := by
    have hfree : count { c.inflightPackets i with sendTime := 0 } = 0 := if_neg fun h => h rfl
    have hold : count (c.inflightPackets i) = 1 := if_pos hi
    have hsum := total_update count c.inflightPackets i { c.inflightPackets i with sendTime := 0 }
    have hsent := h.sent_eq
    show sent = total count (Function.update _ _ _) + _
    omega

theorem Balanced.loseSlot (h : Balanced c sent acked) (hi : InFlight (c.inflightPackets i)) :
    Balanced (c.loseSlot i) sent acked := by
  obtain ⟨lost, h, hloss⟩ := h
  refine ⟨lost + 1, (h.freeSlot hi).same rfl rfl rfl, ?_⟩
  show c.lossCount + 1 = _
  rw [hloss, UInt32.ofNat_add]
  rfl

/-- A free slot is taken for a packet that no slot is about. -/
theorem Accounted.fillSlot (h : Accounted c sent gone) (hi : ¬ InFlight (c.inflightPackets i))
    {p : InflightPacket} (hp : 0 < p.sendTime)
    (hseq : p.seq.toNat ≤ (c.lastSeq p.streamId).toNat)
    (hfresh : ∀ j, InFlight (c.inflightPackets j) → key (c.inflightPackets j) ≠ key p) :
    Accounted (c.fillSlot i p) (sent + 1) gone where
  bytes_eq := by
    have hnew : bytes p = p.size := if_pos (ne_of_gt hp)
    have hold : bytes (c.inflightPackets i) = 0 := if_neg hi
    have hsum := total_update bytes c.inflightPackets i p
    rw [hnew, hold, add_zero] at hsum
    show c.inflightDataSize + _ = _
    rw [h.bytes_eq, ← hsum]
    rfl
  unique := h.unique.fill i hfresh
  sendTime_nonneg := (Function.forall_update_iff _ fun _ (q : InflightPacket) => 0 ≤ q.sendTime).mpr
    ⟨le_of_lt hp, fun j _ => h.sendTime_nonneg j⟩
  seq_le := (Function.forall_update_iff _ fun _ (q : InflightPacket) =>
      InFlight q → q.seq.toNat ≤ (c.lastSeq q.streamId).toNat).mpr
    ⟨fun _ => hseq, fun j _ => h.seq_le j⟩
  lastSeq_lt := h.lastSeq_lt
  sent_eq := by
    have hnew : count p = 1 := if_pos (ne_of_gt hp)
    have hold : count (c.inflightPackets i) = 0 := if_neg hi
    have hsum := total_update count c.inflightPackets i p
    have hsent := h.sent_eq
    show sent + 1 = total count (Function.update _ _ _) + _
    omega

theorem Balanced.fillSlot (h : Balanced c sent acked) (hi : ¬ InFlight (c.inflightPackets i))
    {p : InflightPacket} (hp : 0 < p.sendTime)
    (hseq : p.seq.toNat ≤ (c.lastSeq p.streamId).toNat)
    (hfresh : ∀ j, InFlight (c.inflightPackets j) → key (c.inflightPackets j) ≠ key p) :
    Balanced (c.fillSlot i p) (sent + 1) acked := by
  obtain ⟨lost, h, hloss⟩ := h
  exact ⟨lost, h.fillSlot hi hp hseq hfresh, hloss⟩

theorem Balanced.takeSlot (h : Balanced c sent acked) {p : InflightPacket} (hp : 0 < p.sendTime)
    (hseq : p.seq.toNat ≤ (c.lastSeq p.streamId).toNat)
    (hfresh : ∀ j, InFlight (c.inflightPackets j) → key (c.inflightPackets j) ≠ key p) :
    Balanced (c.takeSlot i p) (sent + 1) acked := by
  by_cases hused : 0 < (c.inflightPackets i).sendTime
  · -- the old packet is lost, then the new one written over it
    have hlose := h.loseSlot (i := i) (ne_of_gt hused)
    have htake : c.takeSlot i p = (c.loseSlot i).fillSlot i p := by
      rw [CongestionControl.takeSlot, if_pos hused]
      simp [CongestionControl.fillSlot, CongestionControl.loseSlot, CongestionControl.freeSlot]
    rw [htake]
    refine hlose.fillSlot (by simp [CongestionControl.loseSlot, InFlight]) hp hseq ?_
    intro j hj
    by_cases hji : j = i
    · subst hji
      simp [CongestionControl.loseSlot, InFlight] at hj
    · simp only [CongestionControl.loseSlot, freeSlot_inflightPackets,
        Function.update_of_ne hji] at hj ⊢
      exact hfresh j hj
  · have hfree : ¬ InFlight (c.inflightPackets i) := by
      obtain ⟨_, h, -⟩ := h
      exact fun hne => hused (lt_of_le_of_ne (h.sendTime_nonneg i) (Ne.symm hne))
    rw [CongestionControl.takeSlot, if_neg hused]
    exact h.fillSlot hfree hp hseq hfresh

/-! ## The operations -/

theorem inFlight_of_findPacket {pkt : CongestionControlPacket} (h : c.findPacket pkt = some i) :
    InFlight (c.inflightPackets i) := by
  have := List.find?_some h
  simp only [Bool.and_eq_true, decide_eq_true_eq] at this
  exact ne_of_gt this.2

theorem Balanced.packetLost (h : Balanced c sent acked) (pkt : CongestionControlPacket) :
    Balanced (c.packetLost pkt) sent acked := by
  rw [CongestionControl.packetLost]
  cases hfind : c.findPacket pkt with
  | none => exact h
  | some i => exact h.loseSlot (inFlight_of_findPacket hfind)

theorem Balanced.packetAcknowledged (h : Balanced c sent acked) (pkt : CongestionControlPacket)
    (now : Time) : Balanced (c.packetAcknowledged pkt now) sent
      (if (c.findPacket pkt).isSome then acked + 1 else acked) := by
  rw [CongestionControl.packetAcknowledged]
  cases hfind : c.findPacket pkt with
  | none => exact h
  | some i =>
      obtain ⟨lost, h, hloss⟩ := h
      refine ⟨lost, ?_, hloss⟩
      have hfree := h.freeSlot (inFlight_of_findPacket hfind)
      rw [add_right_comm] at hfree
      exact hfree.same rfl rfl rfl

theorem Balanced.tickSlot (h : Balanced c sent acked) (now : Fin 100 → Time) (i : Fin 100) :
    Balanced (c.tickSlot now i) sent acked := by
  rw [CongestionControl.tickSlot]
  split
  · rename_i hold
    exact h.loseSlot hold.1
  · exact h

theorem Balanced.foldl_tickSlot (h : Balanced c sent acked) (now : Fin 100 → Time)
    (is : List (Fin 100)) : Balanced (is.foldl (CongestionControl.tickSlot now) c) sent acked := by
  induction is generalizing c with
  | nil => exact h
  | cons i is ih => exact ih (h.tickSlot now i)

theorem Balanced.tick (h : Balanced c sent acked) (now : Fin 100 → Time) :
    Balanced (c.tick now) sent acked := by
  have hroll : Balanced (rollRtt { c with tickCount := c.tickCount + 1 }) sent acked := by
    rw [rollRtt]
    split
    · exact h.same rfl rfl rfl rfl
    · exact h.same rfl rfl rfl rfl
  have hloop := hroll.foldl_tickSlot now (List.finRange 100)
  rw [CongestionControl.tick]
  generalize List.foldl _ _ _ = d at hloop ⊢
  exact hloop.same rfl rfl rfl rfl

/-- Below half of the number space, a packet that passes the check is newer
than all before it. -/
theorem lastSeq_lt_of_passes {pkt : CongestionControlPacket} (h : c.passes pkt = true)
    (hlast : (c.lastSeq pkt.streamId).toNat < 2 ^ 31) (hseq : pkt.seq.toNat < 2 ^ 31) :
    (c.lastSeq pkt.streamId).toNat < pkt.seq.toNat := by
  rw [passes, Bool.and_eq_true, PacketManager.seqgt_iff] at h
  omega

theorem lastSeq_setLastSeq (c : CongestionControl) (s : UInt8) (seq : UInt32) :
    (c.setLastSeq s seq).lastSeq = Function.update c.lastSeq s seq := by
  funext t
  by_cases ht : t = s
  · subst ht
    simp [setLastSeq, lastSeq]
  · simp [setLastSeq, lastSeq, ht]

/-- The last seq of a stream goes up. -/
theorem Balanced.setLastSeq (h : Balanced c sent acked) {s : UInt8} {seq : UInt32}
    (hnew : (c.lastSeq s).toNat ≤ seq.toNat) (hseq : seq.toNat < 2 ^ 31) :
    Balanced (c.setLastSeq s seq) sent acked := by
  obtain ⟨lost, h, hloss⟩ := h
  refine ⟨lost, ⟨h.bytes_eq, h.unique, h.sendTime_nonneg, ?_, ?_, h.sent_eq⟩, hloss⟩
  · intro i hi
    have hle := h.seq_le i hi
    rw [lastSeq_setLastSeq]
    by_cases hs : (c.inflightPackets i).streamId = s
    · have hup : Function.update c.lastSeq s seq (c.inflightPackets i).streamId = seq := by simp [hs]
      exact (hup ▸ (hs ▸ hle).trans hnew :)
    · simpa [CongestionControl.setLastSeq, hs] using hle
  · intro t
    rw [lastSeq_setLastSeq]
    by_cases ht : t = s
    · subst ht
      simpa using hseq
    · simpa [ht] using h.lastSeq_lt t

theorem Balanced.packetSent (h : Balanced c sent acked) {pkt : CongestionControlPacket}
    (size : UInt64) {now : Time} (hseq : pkt.seq.toNat < 2 ^ 31) (hnow : 0 < now) :
    Balanced (c.packetSent pkt size now) (if c.passes pkt then sent + 1 else sent) acked := by
  rw [CongestionControl.packetSent]
  cases hpass : c.passes pkt with
  | false =>
      simp only [Bool.not_false, if_true, Bool.false_eq_true, if_false]
      refine h.same rfl rfl ?_ rfl
      rw [lastSeq_setLastSeq, Function.update_eq_self]
  | true =>
      obtain ⟨slot, hslot⟩ := exists_chooseSlot c.inflightPackets
      obtain ⟨lost, hacc, -⟩ := id h
      have hnew := lastSeq_lt_of_passes hpass (hacc.lastSeq_lt _) hseq
      have hchoose : chooseSlot (c.setLastSeq pkt.streamId pkt.seq).inflightPackets
          (List.finRange 100) none = some slot := hslot
      simp only [Bool.not_true, Bool.false_eq_true, if_false, hchoose, if_true]
      refine (h.setLastSeq (Nat.le_of_lt hnew) hseq).takeSlot hnow ?_ ?_
      · rw [lastSeq_setLastSeq, Function.update_self]
      · intro j hj hkey
        obtain ⟨hs, hq⟩ := Prod.mk.inj hkey
        have hle := hacc.seq_le j hj
        have hs' : (c.inflightPackets j).streamId = pkt.streamId := hs
        have hq' : (c.inflightPackets j).seq = pkt.seq := hq
        rw [hs', hq'] at hle
        omega

/-! ## Runs -/

inductive Event where
  | packetSent (pkt : CongestionControlPacket) (size : UInt64) (now : Time)
  | packetAcknowledged (pkt : CongestionControlPacket) (now : Time)
  | packetLost (pkt : CongestionControlPacket)
  | tick (now : Fin 100 → Time)

/-- The packets of a stream are numbered below `2^31`; the clock is positive. -/
def Event.Admissible : Event → Prop
  | .packetSent pkt _ now => pkt.seq.toNat < 2 ^ 31 ∧ 0 < now
  | _ => True

end CongestionControl

/-- The controller and what happened to it: how many packets passed the
check of the seq, and how many acknowledgements found a packet. -/
structure CongestionLedger where
  control : CongestionControl := {}
  sent : ℕ := 0
  acked : ℕ := 0

namespace CongestionLedger

open CongestionControl Runs SlotTable

def step (l : CongestionLedger) : Event → CongestionLedger
  | .packetSent pkt size now =>
      { l with
        control := l.control.packetSent pkt size now
        sent := if l.control.passes pkt then l.sent + 1 else l.sent }
  | .packetAcknowledged pkt now =>
      { l with
        control := l.control.packetAcknowledged pkt now
        acked := if (l.control.findPacket pkt).isSome then l.acked + 1 else l.acked }
  | .packetLost pkt => { l with control := l.control.packetLost pkt }
  | .tick now => { l with control := l.control.tick now }

def Inv (l : CongestionLedger) : Prop := Balanced l.control l.sent l.acked

theorem Inv.step {l : CongestionLedger} (h : Inv l) {e : Event} (he : e.Admissible) :
    Inv (l.step e) := by
  cases e with
  | packetSent pkt size now => exact Balanced.packetSent h size he.1 he.2
  | packetAcknowledged pkt now => exact Balanced.packetAcknowledged h pkt now
  | packetLost pkt => exact Balanced.packetLost h pkt
  | tick now =>
      simp only [Inv, CongestionLedger.step]
      exact Balanced.tick h now

theorem inv_exec {es : List Event} (hes : ∀ e ∈ es, e.Admissible) : Inv (exec step {} es) :=
  (along_of_forall fun e he _ => hes e he).invariant (fun _ _ h he => h.step he)
    ⟨0, accounted_init, rfl⟩

/-- The bytes of a slot in use, as a number. -/
def byteCount (p : InflightPacket) : ℕ := if InFlight p then p.size.toNat else 0

theorem toNat_total_bytes (packets : Fin 100 → InflightPacket) :
    (total bytes packets).toNat = total byteCount packets % 2 ^ 64 := by
  refine Finset.sum_hom_rel (r := fun (a : UInt64) (b : ℕ) => a.toNat = b % 2 ^ 64) rfl ?_
  intro i a b hab
  have hone : (bytes (packets i)).toNat = byteCount (packets i) := by
    rw [bytes, byteCount]
    split
    · rfl
    · rfl
  rw [UInt64.toNat_add, hab, hone, Nat.add_mod_mod]

/-- **The books of the congestion controller**, over every run. The bytes in
flight are the sum over the slots in use, as far as a `size_t` holds it. No
packet is in two slots. Every packet that passed the check is in flight,
acknowledged or counted as lost, as far as a `uint32_t` holds the losses. -/
theorem accounting (es : List Event) (hes : ∀ e ∈ es, e.Admissible) :
    let l := exec step {} es
    let used := total count l.control.inflightPackets
    l.control.inflightDataSize.toNat = total byteCount l.control.inflightPackets % 2 ^ 64
      ∧ Unique InFlight key l.control.inflightPackets
      ∧ l.sent % 2 ^ 32 = (used + l.acked + l.control.lossCount.toNat) % 2 ^ 32
      ∧ (l.sent < 2 ^ 32 → l.sent = used + l.acked + l.control.lossCount.toNat) := by
  intro l used
  obtain ⟨lost, h, hloss⟩ := inv_exec hes
  have hlost : l.control.lossCount.toNat = lost % 2 ^ 32 := by
    rw [hloss, UInt32.toNat_ofNat']
  have hsent : l.sent = used + (l.acked + lost) := h.sent_eq
  refine ⟨?_, h.unique, ?_, ?_⟩
  · rw [h.bytes_eq, toNat_total_bytes]
  · omega
  · omega

/-- A packet is sent and acknowledged, the next one is sent. -/
theorem accounting_sent_acked :
    let l := exec step {}
      [.packetSent ⟨1, 2⟩ 100 1, .packetAcknowledged ⟨1, 2⟩ 1, .packetSent ⟨2, 2⟩ 50 1]
    l.sent = total count l.control.inflightPackets + l.acked + l.control.lossCount.toNat :=
  (accounting
    [.packetSent ⟨1, 2⟩ 100 1, .packetAcknowledged ⟨1, 2⟩ 1, .packetSent ⟨2, 2⟩ 50 1]
    (by simp [Event.Admissible])).2.2.2 (by decide +kernel)

/-! ## What the machine numbers do not hold -/

/-- `m` packets on one stream, numbered from `1`. -/
def burst (s : UInt8) (m : ℕ) : List Event :=
  (List.range m).map fun k => .packetSent ⟨UInt32.ofNat (k + 1), s⟩ 0 1

theorem admissible_burst {s : UInt8} {m : ℕ} (hm : m < 2 ^ 31) : ∀ e ∈ burst s m, e.Admissible := by
  intro e he
  obtain ⟨k, hk, rfl⟩ := List.mem_map.mp he
  rw [List.mem_range] at hk
  refine ⟨?_, one_pos⟩
  rw [UInt32.toNat_ofNat']
  omega

@[simp] theorem lastSeq_takeSlot (c : CongestionControl) (i : Fin 100) (p : InflightPacket) :
    (c.takeSlot i p).lastSeq = c.lastSeq := by
  rw [takeSlot]
  split
  · rfl
  · rfl

theorem lastSeq_packetSent {c : CongestionControl} {pkt : CongestionControlPacket} {size : UInt64}
    {now : Time} (h : c.passes pkt = true) :
    (c.packetSent pkt size now).lastSeq = Function.update c.lastSeq pkt.streamId pkt.seq := by
  obtain ⟨slot, hslot⟩ := exists_chooseSlot (c.setLastSeq pkt.streamId pkt.seq).inflightPackets
  rw [CongestionControl.packetSent]
  simp only [h, Bool.not_true, Bool.false_eq_true, if_false, hslot]
  rw [lastSeq_takeSlot, lastSeq_setLastSeq]

/-- All of a burst passes, on a stream that was not used before. -/
theorem exec_burst {l : CongestionLedger} {s : UInt8} (hs : l.control.lastSeq s = 0) {m : ℕ}
    (hm : m < 2 ^ 31) :
    let l' := exec step l (burst s m)
    l'.sent = l.sent + m ∧ l'.acked = l.acked
      ∧ l'.control.lastSeq = Function.update l.control.lastSeq s (UInt32.ofNat m) := by
  induction m with
  | zero => exact ⟨rfl, rfl, (Function.update_eq_self_iff.mpr hs.symm).symm⟩
  | succ m ih =>
      obtain ⟨hsent, hacked, hlast⟩ := ih (by omega)
      have hsplit : burst s (m + 1)
          = burst s m ++ [.packetSent ⟨UInt32.ofNat (m + 1), s⟩ 0 1] := by
        simp [burst, List.range_succ]
      intro l'
      have hl' : l' = (exec step l (burst s m)).step (.packetSent ⟨UInt32.ofNat (m + 1), s⟩ 0 1) := by
        show exec step l (burst s (m + 1)) = _
        rw [hsplit, exec_append]
        rfl
      have hpass : (exec step l (burst s m)).control.passes ⟨UInt32.ofNat (m + 1), s⟩ = true := by
        have hm' : (UInt32.ofNat m).toNat = m := by
          rw [UInt32.toNat_ofNat', Nat.mod_eq_of_lt (by omega)]
        have hm1 : (UInt32.ofNat (m + 1)).toNat = m + 1 := by
          rw [UInt32.toNat_ofNat', Nat.mod_eq_of_lt (by omega)]
        have hne : UInt32.ofNat (m + 1) ≠ UInt32.ofNat m := by
          intro h
          have := congrArg UInt32.toNat h
          omega
        simp only [passes, hlast, Function.update_self, Bool.and_eq_true, bne_iff_ne, ne_eq,
          PacketManager.seqgt_iff, hm', hm1]
        exact ⟨by omega, hne⟩
      rw [hl']
      refine ⟨?_, hacked, ?_⟩
      · show (if _ then _ else _) = _
        rw [if_pos hpass, hsent]
        rfl
      · show lastSeq (packetSent _ _ _ _) = _
        rw [lastSeq_packetSent hpass, hlast, Function.update_idem]

/-- Three streams full of packets: the losses do not fit the counter. -/
def threeBursts : List Event :=
  burst 0 (2 ^ 31 - 1) ++ (burst 1 (2 ^ 31 - 1) ++ burst 2 (2 ^ 31 - 1))

theorem admissible_threeBursts : ∀ e ∈ threeBursts, e.Admissible := by
  intro e he
  simp only [threeBursts, List.mem_append] at he
  rcases he with he | he | he
  · exact admissible_burst (by decide) e he
  · exact admissible_burst (by decide) e he
  · exact admissible_burst (by decide) e he

theorem exec_threeBursts :
    (exec step {} threeBursts).sent = 3 * (2 ^ 31 - 1) ∧ (exec step {} threeBursts).acked = 0 := by
  have h31 : 2 ^ 31 - 1 < 2 ^ 31 := by decide
  obtain ⟨hs0, ha0, hl0⟩ := exec_burst (l := {}) (s := 0) rfl h31
  obtain ⟨hs1, ha1, hl1⟩ :=
    exec_burst (l := exec step {} (burst 0 (2 ^ 31 - 1))) (s := 1) (by rw [hl0]; rfl) h31
  obtain ⟨hs2, ha2, -⟩ :=
    exec_burst (l := exec step (exec step {} (burst 0 (2 ^ 31 - 1))) (burst 1 (2 ^ 31 - 1)))
      (s := 2) (by rw [hl1, hl0]; rfl) h31
  rw [threeBursts, exec_append, exec_append]
  exact ⟨by rw [hs2, hs1, hs0]; rfl, by rw [ha2, ha1, ha0]⟩

/-- Two packets of `2^63` bytes in flight are no bytes in flight, and more
losses than a `uint32_t` counts are lost sight of. -/
theorem accounting_fails :
    (¬ ∀ es : List Event, (∀ e ∈ es, e.Admissible) →
        (exec step {} es).control.inflightDataSize.toNat
          = total byteCount (exec step {} es).control.inflightPackets) ∧
    ¬ ∀ es : List Event, (∀ e ∈ es, e.Admissible) →
        (exec step {} es).sent = total count (exec step {} es).control.inflightPackets
          + (exec step {} es).acked + (exec step {} es).control.lossCount.toNat := by
  constructor
  · intro h
    have h := h [.packetSent ⟨1, 0⟩ (2 ^ 63) 1, .packetSent ⟨2, 0⟩ (2 ^ 63) 1]
      (by simp [Event.Admissible])
    revert h
    decide +kernel
  · intro h
    have h := h threeBursts admissible_threeBursts
    have hused := total_le (m := 1) count (exec step {} threeBursts).control.inflightPackets
      fun p => by rw [count]; split <;> omega
    have hloss := (exec step {} threeBursts).control.lossCount.toNat_lt
    obtain ⟨hsent, hacked⟩ := exec_threeBursts
    rw [hsent, hacked] at h
    omega

end CongestionLedger

end Tgvoip
