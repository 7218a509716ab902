import Mathlib.Algebra.Order.BigOperators.Group.Finset
import Mathlib.Algebra.Order.Ring.Rat
import Mathlib.Tactic.Linarith
import Tgvoip.Controller.Accounts
import Tgvoip.Controller.LastSent

/-!
# LossAccounts — the packets that are given up, and those that return

`TickJitterBufferAndCongestionControl` (`Tick.cpp`) marks recent packets as
lost that were not acknowledged in time; an acknowledgement may still come
later. `sendLosses` counts the former up and the latter down, and each
packet's sender is told of one of the two.
-/

namespace Tgvoip

open ByteReader Fallible

/-! ## The tick -/

namespace RecentOutgoingPacket

/-- The packet was not acknowledged in time. -/
def givenUp (opkt : RecentOutgoingPacket) (now packetLossTimeout : Time) : Bool :=
  !(opkt.ackTime != 0 || opkt.lost) && now - opkt.sendTime > packetLossTimeout

/-- The entry of a packet that is given up. -/
def markLost (opkt : RecentOutgoingPacket) : RecentOutgoingPacket :=
  { opkt with lost := true, reports := opkt.reports ++ [.packetLost] }

end RecentOutgoingPacket

namespace PacketManager

def markLosses (pm : PacketManager) (now packetLossTimeout : Time) : PacketManager :=
  { pm with
    recentOutgoingPackets := pm.recentOutgoingPackets.map fun opkt =>
      if opkt.givenUp now packetLossTimeout then opkt.markLost else opkt }

/-- The packets that are given up. -/
def losses (pm : PacketManager) (now packetLossTimeout : Time) : List RecentOutgoingPacket :=
  pm.recentOutgoingPackets.filter (·.givenUp now packetLossTimeout)

end PacketManager

namespace Controller

variable (c : Controller)

def getAverageRTT : Except Fault Time := do
  let stream ← c.outgoingStream c.bestStream
  let pm := stream.packetManager
  if pm.lastSentSeq ≥ pm.lastAckedSeq && pm.lastSentSeq - pm.lastAckedSeq < 32 then
    let rtts := (pm.recentOutgoingPackets.map (·.rttTime)).filter (· != 0)
    pure (if rtts.length = 0 then 0 else rtts.sum / rtts.length)
  else pure 999

/-- `TickJitterBufferAndCongestionControl`, without the jitter buffers. -/
def tickCongestionControl (now : Time) : Except Fault Controller := do
  let rtt ← c.getAverageRTT
  let packetLossTimeout := max (rtt * 2) (1 / 10)
  let lost := c.outgoingStreams.flatMap fun s => s.packetManager.losses now packetLossTimeout
  if c.outgoingStreams.any fun s =>
      !s.hasSender && !(s.packetManager.losses now packetLossTimeout).isEmpty then .error .noSender
  else pure { c with
    outgoingStreams := c.outgoingStreams.map fun s =>
      { s with packetManager := s.packetManager.markLosses now packetLossTimeout }
    sendLosses := c.sendLosses + UInt32.ofNat lost.length
    markedLost := c.markedLost + lost.length
    conctlCalls := c.conctlCalls ++ .tick :: lost.map fun opkt => .packetLost opkt.pkt }

end Controller

/-! ## Runs -/

inductive LossEvent where
  | controller (e : Time × Event)
  | sendOrEnqueuePacket (now : Time) (pkt : PendingOutgoingPacket) (enqueue : Bool)
  | tick (now : Time)

namespace LossEvent

/-- What the clock reads. -/
def time : LossEvent → Time
  | .controller e => e.1
  | .sendOrEnqueuePacket now _ _ => now
  | .tick now => now

def step (env : Platform) (c : Controller) : LossEvent → Except Fault Controller
  | .controller e => c.step env e
  | .sendOrEnqueuePacket now pkt enqueue => c.sendOrEnqueuePacket now pkt enqueue
  | .tick now => c.tickCongestionControl now

end LossEvent

/-! ## The accounts of an entry -/

namespace RecentOutgoingPacket

variable {opkt : RecentOutgoingPacket} {now timeout : Time}

/-- Lost, and not acknowledged since. -/
def missing (opkt : RecentOutgoingPacket) : Bool := opkt.lost && opkt.ackTime == 0

/-- Its sender was told what the flags say, once. -/
def Reported (opkt : RecentOutgoingPacket) : Prop :=
  opkt.reports = if opkt.lost then [.packetLost]
    else if opkt.ackTime ≠ 0 then [.packetAcknowledged] else []

theorem Fresh.reported {i : ℕ} (h : opkt.Fresh i) : opkt.Reported := by
  simp [Reported, h.reports, h.lost, h.ackTime]

theorem Fresh.not_missing {i : ℕ} (h : opkt.Fresh i) : opkt.missing = false := by
  simp [missing, h.lost]

theorem Reported.length_le (h : opkt.Reported) : opkt.reports.length ≤ 1 := by
  rw [h]
  split
  · exact Nat.le_refl 1
  · split
    · exact Nat.le_refl 1
    · exact Nat.zero_le 1

theorem Reported.acked (h : opkt.Reported) (hack : opkt.ackTime = 0) (hnow : now ≠ 0) :
    (PacketManager.acked opkt now).Reported := by
  unfold Reported PacketManager.acked at *
  cases hlost : opkt.lost with
  | true => simpa [hlost] using h
  | false => simp [hlost, hack, h, hnow]

theorem flags_of_givenUp (hup : opkt.givenUp now timeout = true) :
    opkt.ackTime = 0 ∧ opkt.lost = false := by
  simp only [givenUp, Bool.and_eq_true, Bool.not_eq_true', Bool.or_eq_false_iff, bne_eq_false_iff_eq]
    at hup
  exact hup.1

theorem Reported.markLost (h : opkt.Reported) (hup : opkt.givenUp now timeout = true) :
    opkt.markLost.Reported := by
  obtain ⟨hack, hlost⟩ := flags_of_givenUp hup
  have hnone : opkt.reports = [] := by simpa [Reported, hack, hlost] using h
  simp [Reported, RecentOutgoingPacket.markLost, hnone]

end RecentOutgoingPacket

/-! ## The missing packets of a stream -/

namespace PacketManager

variable {pm : PacketManager} {now timeout : Time}

/-- Those acknowledged now are missing no more. -/
theorem countP_markAcked (hnow : now ≠ 0) :
    (pm.markAcked now).recentOutgoingPackets.countP (·.missing) +
        (Controller.ackedEntries pm).countP RecentOutgoingPacket.lost =
      pm.recentOutgoingPackets.countP (·.missing) := by
  unfold markAcked Controller.ackedEntries
  dsimp only
  generalize pm.recentOutgoingPackets = entries
  induction entries with
  | nil => rfl
  | cons opkt entries ih =>
      rw [List.map_cons, List.countP_cons, List.countP_cons, List.filter_cons, ← ih]
      by_cases hnew : pm.newlyAcked opkt = true
      · have hack : opkt.ackTime = 0 := by
          simpa using (Bool.and_eq_true_iff.mp hnew).1
        rw [if_pos hnew, if_pos hnew, List.countP_cons]
        simp [RecentOutgoingPacket.missing, acked, hnow, hack]
        omega
      · rw [if_neg hnew, if_neg hnew]
        omega

/-- Those given up now are missing too. -/
theorem countP_markLosses :
    (pm.markLosses now timeout).recentOutgoingPackets.countP (·.missing) =
      pm.recentOutgoingPackets.countP (·.missing) + (pm.losses now timeout).length := by
  unfold markLosses losses
  dsimp only
  generalize pm.recentOutgoingPackets = entries
  induction entries with
  | nil => rfl
  | cons opkt entries ih =>
      rw [List.map_cons, List.countP_cons, List.countP_cons, List.filter_cons, ih]
      by_cases hup : opkt.givenUp now timeout = true
      · obtain ⟨hack, hlost⟩ := RecentOutgoingPacket.flags_of_givenUp hup
        rw [if_pos hup, if_pos hup, List.length_cons]
        simp [RecentOutgoingPacket.missing, RecentOutgoingPacket.markLost, hack, hlost]
        omega
      · rw [if_neg hup, if_neg hup]
        omega

end PacketManager

/-! ## The missing packets of all streams -/

namespace Controller

variable {env : Platform} {c c' : Controller} {now : Time} {src : Int64} {p : Packet}

def missingPackets (c : Controller) : ℕ :=
  ∑ i ∈ Finset.range c.outgoingStreams.length, (c.recents i).countP (·.missing)

theorem recents_eq_nil {i : ℕ} (h : c.outgoingStreams.length ≤ i) : c.recents i = [] := by
  rw [Transport.recents, List.getElem?_eq_none h]
  rfl

/-- Streams that do not exist miss nothing. -/
theorem missingPackets_eq {n : ℕ} (h : c.outgoingStreams.length ≤ n) :
    c.missingPackets = ∑ i ∈ Finset.range n, (c.recents i).countP (·.missing) := by
  apply Finset.sum_subset (Finset.range_subset_range.mpr h)
  intro i _ hi
  rw [recents_eq_nil (by simpa using hi)]
  rfl

theorem OnlySends.missingPackets_le (h : OnlySends c c') : c'.missingPackets ≤ c.missingPackets := by
  rw [missingPackets_eq h.streams]
  apply Finset.sum_le_sum
  intro i _
  obtain ⟨fresh, hfresh, hsuffix⟩ := h.recents i
  have hnone : fresh.countP (·.missing) = 0 := by
    rw [List.countP_eq_zero]
    intro opkt ho
    simp [(hfresh opkt ho).not_missing]
  calc (c'.recents i).countP (·.missing)
      ≤ (c.recents i ++ fresh).countP (·.missing) := hsuffix.sublist.countP_le
    _ = (c.recents i).countP (·.missing) := by rw [List.countP_append, hnone, Nat.add_zero]

theorem Settles.missingPackets {s : OutgoingStream} {pm : PacketManager}
    (hs : c.outgoingStreams[p.managerIndex.toNat]? = some s)
    (hpm : pm.recentOutgoingPackets = s.packetManager.recentOutgoingPackets) (hnow : now ≠ 0)
    (h : Settles now p pm c c') :
    c'.missingPackets + (ackedEntries pm).countP RecentOutgoingPacket.lost = c.missingPackets := by
  have hlen : c'.outgoingStreams.length = c.outgoingStreams.length := by
    rw [h.streams]
    simp [setManager]
  have hmem : p.managerIndex.toNat ∈ Finset.range c.outgoingStreams.length :=
    Finset.mem_range.mpr (List.getElem?_eq_some_iff.mp hs).1
  have hcount : (pm.markAcked now).recentOutgoingPackets.countP (·.missing) + _ = _ :=
    PacketManager.countP_markAcked hnow
  unfold Controller.missingPackets
  rw [hlen, ← Finset.add_sum_erase _ _ hmem, ← Finset.add_sum_erase _ _ hmem, h.recents hs,
    if_pos rfl, recents_of_stream hs, ← hpm]
  have hrest : ∑ i ∈ (Finset.range c.outgoingStreams.length).erase p.managerIndex.toNat,
      (c'.recents i).countP (·.missing) =
      ∑ i ∈ (Finset.range c.outgoingStreams.length).erase p.managerIndex.toNat,
        (c.recents i).countP (·.missing) := by
    apply Finset.sum_congr rfl
    intro i hi
    rw [h.recents hs, if_neg (Finset.ne_of_mem_erase hi).symm]
  rw [hrest]
  omega

/-! ## The accounts of the controller -/

/-- **The invariant**: every entry was reported as its flags say, what is missing
was counted, and the counter has the difference. -/
structure Accounted (c : Controller) : Prop where
  entries : ∀ i, ∀ opkt ∈ c.recents i, opkt.Reported
  missing : c.recovered + c.missingPackets ≤ c.markedLost
  counter : c.sendLosses = UInt32.ofNat (c.markedLost - c.recovered)

theorem OnlySends.accounted (h : OnlySends c c') (hc : c.Accounted) : c'.Accounted := by
  have hsend : c'.sendLosses = c.sendLosses := congrArg LossCounters.sendLosses h.losses
  have hmarked : c'.markedLost = c.markedLost := congrArg LossCounters.markedLost h.losses
  have hrecovered : c'.recovered = c.recovered := congrArg LossCounters.recovered h.losses
  refine ⟨?_, ?_, ?_⟩
  · intro i opkt ho
    obtain ⟨fresh, hfresh, hsuffix⟩ := h.recents i
    rcases List.mem_append.mp (hsuffix.subset ho) with ho | ho
    · exact hc.entries i opkt ho
    · exact (hfresh opkt ho).reported
  · have hle := h.missingPackets_le
    have hmissing := hc.missing
    omega
  · rw [hsend, hmarked, hrecovered, hc.counter]

theorem Settles.accounted {s : OutgoingStream} {pm : PacketManager}
    (hs : c.outgoingStreams[p.managerIndex.toNat]? = some s)
    (hpm : pm.recentOutgoingPackets = s.packetManager.recentOutgoingPackets) (hnow : now ≠ 0)
    (h : Settles now p pm c c') (hc : c.Accounted) : c'.Accounted := by
  have hsend : c'.sendLosses =
      c.sendLosses - UInt32.ofNat ((ackedEntries pm).countP RecentOutgoingPacket.lost) :=
    congrArg LossCounters.sendLosses h.losses
  have hmarked : c'.markedLost = c.markedLost := congrArg LossCounters.markedLost h.losses
  have hrecovered : c'.recovered =
      c.recovered + (ackedEntries pm).countP RecentOutgoingPacket.lost :=
    congrArg LossCounters.recovered h.losses
  have hcount := h.missingPackets hs hpm hnow
  have hmissing := hc.missing
  refine ⟨?_, ?_, ?_⟩
  · intro i opkt ho
    rw [h.recents hs] at ho
    split at ho
    · obtain ⟨before, hbefore, rfl⟩ := List.mem_map.mp ho
      rw [hpm, ← recents_of_stream hs] at hbefore
      have hreported := hc.entries _ before hbefore
      split
      · rename_i hnew
        have hack : before.ackTime = 0 := by simpa using (Bool.and_eq_true_iff.mp hnew).1
        exact hreported.acked hack hnow
      · exact hreported
    · exact hc.entries i opkt ho
  · omega
  · have hle : (ackedEntries pm).countP RecentOutgoingPacket.lost ≤ c.markedLost - c.recovered := by
      omega
    rw [hsend, hmarked, hrecovered, hc.counter, ← Nat.sub_sub, UInt32.ofNat_sub hle]

/-! ## The tick keeps the accounts -/

theorem length_flatMap_eq_sum {α β : Type} (f : α → List β) (as : List α) :
    (as.flatMap f).length = ∑ i ∈ Finset.range as.length, ((as[i]?).elim [] f).length := by
  induction as with
  | nil => rfl
  | cons a as ih =>
      rw [List.flatMap_cons, List.length_append, ih, List.length_cons, Finset.sum_range_succ',
        Nat.add_comm]
      rfl

/-- What the tick does, with the timeout it takes. -/
theorem tickCongestionControl_ok (h : c.tickCongestionControl now = .ok c') :
    ∃ timeout, c'.outgoingStreams = c.outgoingStreams.map (fun s =>
        { s with packetManager := s.packetManager.markLosses now timeout }) ∧
      c'.losses = { c.losses with
        sendLosses := c.sendLosses + UInt32.ofNat
          (c.outgoingStreams.flatMap fun s => s.packetManager.losses now timeout).length
        markedLost := c.markedLost +
          (c.outgoingStreams.flatMap fun s => s.packetManager.losses now timeout).length } := by
  unfold tickCongestionControl at h
  obtain ⟨rtt, -, h⟩ := bind_eq_ok.mp h
  dsimp only at h
  split at h
  · cases h
  · rw [← pure_eq_ok.mp h]
    exact ⟨_, rfl, rfl⟩

theorem recents_markLosses {timeout : Time} (hstreams : c'.outgoingStreams =
      c.outgoingStreams.map fun s =>
        { s with packetManager := s.packetManager.markLosses now timeout }) (i : ℕ) :
    c'.recents i = (c.recents i).map fun opkt =>
      if opkt.givenUp now timeout then opkt.markLost else opkt := by
  unfold Transport.recents
  rw [hstreams, List.getElem?_map]
  cases c.outgoingStreams[i]? with
  | none => rfl
  | some s => rfl

theorem tickCongestionControl_accounted (hc : c.Accounted)
    (h : c.tickCongestionControl now = .ok c') : c'.Accounted := by
  obtain ⟨timeout, hstreams, hlosses⟩ := tickCongestionControl_ok h
  have hsend : c'.sendLosses = c.sendLosses + UInt32.ofNat
      (c.outgoingStreams.flatMap fun s => s.packetManager.losses now timeout).length :=
    congrArg LossCounters.sendLosses hlosses
  have hmarked : c'.markedLost = c.markedLost +
      (c.outgoingStreams.flatMap fun s => s.packetManager.losses now timeout).length :=
    congrArg LossCounters.markedLost hlosses
  have hrecovered : c'.recovered = c.recovered := congrArg LossCounters.recovered hlosses
  have hmissing : c'.missingPackets = c.missingPackets +
      (c.outgoingStreams.flatMap fun s => s.packetManager.losses now timeout).length := by
    have hlen : c'.outgoingStreams.length = c.outgoingStreams.length := by
      rw [hstreams, List.length_map]
    rw [length_flatMap_eq_sum, Controller.missingPackets, Controller.missingPackets, hlen,
      ← Finset.sum_add_distrib]
    apply Finset.sum_congr rfl
    intro i _
    unfold Transport.recents
    rw [hstreams, List.getElem?_map]
    cases c.outgoingStreams[i]? with
    | none => rfl
    | some s => exact PacketManager.countP_markLosses
  have hbefore := hc.missing
  refine ⟨?_, ?_, ?_⟩
  · intro i opkt ho
    rw [recents_markLosses hstreams] at ho
    obtain ⟨before, hmem, rfl⟩ := List.mem_map.mp ho
    have hreported := hc.entries i before hmem
    split
    · rename_i hup
      exact hreported.markLost hup
    · exact hreported
  · omega
  · rw [hsend, hmarked, hrecovered, hc.counter, ← UInt32.ofNat_add]
    congr 1
    omega

/-! ## Runs -/

/-- **Every event keeps the accounts**, if the clock does not read zero. -/
theorem Accounted.step {e : LossEvent} (hc : c.Accounted) (htime : 0 < e.time)
    (h : LossEvent.step env c e = .ok c') : c'.Accounted := by
  cases e with
  | controller e =>
      by_cases hpacket : ∃ p src, e.2 = .packet p src
      · obtain ⟨p, src, he⟩ := hpacket
        obtain ⟨now, e⟩ := e
        cases he
        obtain rfl | ⟨-, c₁, c₂, s, hbefore, hs, hack, hafter⟩ := processIncomingPacket_settles h
        · exact hc
        · refine hafter.accounted ?_
          obtain ⟨-, rfl⟩ | ⟨-, hack⟩ := hack
          · exact hbefore.accounted hc
          · exact Settles.accounted hs (PacketManager.ackLocal_recents ..) (ne_of_gt htime) hack
              (hbefore.accounted hc)
      · exact (step_onlySends (fun p src he => hpacket ⟨p, src, he⟩) h).accounted hc
  | sendOrEnqueuePacket now pkt enqueue =>
      exact (onlySends_rule.sendOrEnqueuePacket h).accounted hc
  | tick now => exact tickCongestionControl_accounted hc h

/-- Before anything is sent. -/
structure NothingSent (c : Controller) : Prop where
  recents : ∀ i, c.recents i = []
  losses : c.losses = ⟨0, 0, 0⟩

theorem NothingSent.accounted (h : c.NothingSent) : c.Accounted := by
  have hsend : c.sendLosses = 0 := congrArg LossCounters.sendLosses h.losses
  have hmarked : c.markedLost = 0 := congrArg LossCounters.markedLost h.losses
  have hrecovered : c.recovered = 0 := congrArg LossCounters.recovered h.losses
  refine ⟨?_, ?_, ?_⟩
  · intro i opkt ho
    rw [h.recents] at ho
    cases ho
  · have hnone : c.missingPackets = 0 := by
      apply Finset.sum_eq_zero
      intro i _
      rw [h.recents]
      rfl
    omega
  · rw [hsend, hmarked, hrecovered]
    rfl

theorem run_accounted {events : List LossEvent} (hc : c.NothingSent)
    (htime : ∀ e ∈ events, 0 < e.time) (h : events.foldlM (LossEvent.step env) c = .ok c') :
    c'.Accounted :=
  (alongOk_of_forall (P := fun _ e => 0 < LossEvent.time e) fun e he _ => htime e he).invariant
    (I := Accounted) (fun _ _ _ hc he h => hc.step he h) hc.accounted h

/-- **The loss accounting is right**: no more packets returned than were given up,
the counter has the difference, as far as 32 bits hold it, and of each packet its
sender was told once at most. -/
structure LossesRight (c : Controller) : Prop where
  recovered : c.recovered ≤ c.markedLost
  counter : c.sendLosses.toNat = (c.markedLost - c.recovered) % 2 ^ 32
  reports : ∀ s ∈ c.outgoingStreams, ∀ opkt ∈ s.packetManager.recentOutgoingPackets,
    opkt.reports.length ≤ 1

theorem losses_right {events : List LossEvent} (hc : c.NothingSent)
    (htime : ∀ e ∈ events, 0 < e.time) (h : events.foldlM (LossEvent.step env) c = .ok c') :
    c'.LossesRight := by
  have haccounted := run_accounted hc htime h
  refine ⟨?_, ?_, ?_⟩
  · exact (Nat.le_add_right _ _).trans haccounted.missing
  · rw [haccounted.counter, UInt32.toNat_ofNat']
  · intro s hs opkt ho
    obtain ⟨i, hi⟩ := List.getElem?_of_mem hs
    rw [← recents_of_stream hi] at ho
    exact (haccounted.entries i opkt ho).length_le

theorem sampleCall_nothingSent : (sampleCall {}).NothingSent := ⟨sampleCall_recents, rfl⟩

/-- A packet is given up, and acknowledged later. -/
def returning : List LossEvent :=
  [.controller (1, .sendPacket { packet := { streamId := StreamId.audio } } 0 0 0), .tick 2,
    .controller (3, .packet { streamId := StreamId.audio, seq := 1, ackSeq := 1 } 1)]

theorem losses_right_returning :
    ∃ c, returning.foldlM (LossEvent.step samplePlatform) (sampleCall {}) = .ok c ∧
      c.markedLost = 1 ∧ c.recovered = 1 ∧ c.LossesRight := by
  have hvalues : (returning.foldlM (LossEvent.step samplePlatform) (sampleCall {})).map (fun c =>
      (c.markedLost, c.recovered)) = .ok (1, 1) := by decide +kernel
  obtain ⟨c, hrun, hvalue⟩ := exists_of_map_eq_ok hvalues
  obtain ⟨hmarked, hrecovered⟩ := Prod.mk.inj hvalue
  exact ⟨c, hrun, hmarked, hrecovered,
    losses_right sampleCall_nothingSent (by decide +kernel) hrun⟩

/-! ## The end of the counter -/

/-- The packet that is sent again and again. -/
def probe : PendingOutgoingPacket :=
  { packet := [], pktInfo := ⟨1, StreamId.audio⟩, endpoint := 1, carried := {} }

/-- Its entry among the recent packets. -/
def probeEntry (now : Time) : RecentOutgoingPacket :=
  { pkt := probe.pktInfo, size := 0, endpoint := 1, sendTime := now }

/-- It is sent, and given up half a second later. -/
def lossRound (k : ℕ) : List LossEvent :=
  [.sendOrEnqueuePacket (k + 1) probe true, .tick (k + 1 + 1 / 2)]

/-- An entry that was given up, and never acknowledged. -/
def Gone (opkt : RecentOutgoingPacket) : Prop := opkt.lost = true ∧ opkt.rttTime = 0

/-- A call in which `n` packets were given up, and `sent` ones not yet. -/
structure Losing (n : ℕ) (sent : List RecentOutgoingPacket) (c : Controller) : Prop where
  endpoints : c.endpoints = (sampleCall {}).endpoints
  socket : c.udpSocketReady = true
  usable : c.useUDP = true ∧ c.stopping = false
  isNew : c.ver.isNew = true
  streams : ∃ signaling audio gone, c.outgoingStreams = [signaling, audio] ∧
    signaling.packetManager.recentOutgoingPackets = [] ∧ audio.hasSender = true ∧
    audio.packetManager.lastAckedSeq = 0 ∧ (sent ≠ [] → audio.packetManager.lastSentSeq = 1) ∧
    audio.packetManager.recentOutgoingPackets = gone ++ sent ∧ ∀ opkt ∈ gone, Gone opkt
  marked : c.markedLost = n
  recovered : c.recovered = 0

theorem losing_sampleCall : Losing 0 [] (sampleCall {}) where
  endpoints := rfl
  socket := rfl
  usable := ⟨rfl, rfl⟩
  isNew := rfl
  streams := ⟨_, _, [], rfl, rfl, rfl, rfl, fun h => absurd rfl h, rfl,
    fun _ h => absurd h List.not_mem_nil⟩
  marked := rfl
  recovered := rfl

theorem addRecentOutgoingPacket_recents (pm : PacketManager) (opkt : RecentOutgoingPacket) :
    ∃ kept, kept <:+ pm.recentOutgoingPackets ∧
      (pm.addRecentOutgoingPacket opkt).recentOutgoingPackets = kept ++ [opkt] := by
  have h128 : maxRecentPackets.toNat = 128 := rfl
  refine ⟨_, List.drop_suffix (pm.recentOutgoingPackets.length + 1 - 128) _, ?_⟩
  unfold PacketManager.addRecentOutgoingPacket
  dsimp only
  rw [h128, List.length_append, List.length_singleton, List.drop_append_of_le_length]
  omega

theorem Losing.send {n : ℕ} (hc : Losing n [] c) (now : Time) :
    ∃ c₁, c.sendOrEnqueuePacket now probe true = .ok c₁ ∧ Losing n [probeEntry now] c₁ := by
  obtain ⟨signaling, audio, gone, hstreams, hnone, hsender, hacked, -, hrecent, hgone⟩ := hc.streams
  let relay : Endpoint := { id := 1, type := .udpRelay }
  have he : c.endpoints.at? (c.endpointKey probe.endpoint) = some relay := by
    rw [hc.endpoints]
    rfl
  have hs : c.outgoingStreams[probe.pktInfo.streamId.toNat]? = some audio := by
    rw [hstreams]
    rfl
  have huses : (c.usesTransport relay && !c.stopping) = true := by
    rw [hc.usable.2]
    exact Bool.and_eq_true_iff.mpr ⟨hc.usable.1, rfl⟩
  have htransmit : c.transmit now probe relay = .ok _ :=
    bind_eq_ok.mpr ⟨audio, outgoingStream_eq_ok.mpr hs, rfl⟩
  have hrun : c.sendOrEnqueuePacket now probe true = c.transmit now probe relay := by
    unfold sendOrEnqueuePacket
    rw [endpointForPacket_eq_ok.mpr he]
    show (if c.canSend relay = true then
      (if (c.usesTransport relay && !c.stopping) = true then c.transmit now probe relay else pure c)
      else _) = _
    have hcan : c.canSend relay = true := hc.socket
    rw [if_pos hcan, if_pos huses]
  refine ⟨_, hrun.trans htransmit, hc.endpoints, hc.socket, hc.usable, hc.isNew, ?_, hc.marked,
    hc.recovered⟩
  obtain ⟨kept, hkept, hadded⟩ :=
    addRecentOutgoingPacket_recents audio.packetManager (probeEntry now)
  rw [hrecent, List.append_nil] at hkept
  refine ⟨signaling,
    { audio with packetManager := audio.packetManager.addRecentOutgoingPacket (probeEntry now) },
    kept, ?_, hnone, hsender, hacked, fun _ => rfl, hadded,
    fun opkt ho => hgone opkt (hkept.subset ho)⟩
  show c.outgoingStreams.modify 1 _ = _
  rw [hstreams]
  rfl

/-- No round-trip time was measured. -/
theorem Losing.getAverageRTT {n : ℕ} {sent : Time} (hc : Losing n [probeEntry sent] c) :
    c.getAverageRTT = .ok 0 := by
  obtain ⟨signaling, audio, gone, hstreams, -, -, hacked, hsent, hrecent, hgone⟩ := hc.streams
  have hbest : c.outgoingStream c.bestStream = .ok audio := by
    rw [outgoingStream_eq_ok, bestStream, if_pos hc.isNew, hstreams]
    rfl
  refine bind_eq_ok.mpr ⟨audio, hbest, ?_⟩
  have hzero : (audio.packetManager.recentOutgoingPackets.map (·.rttTime)).filter (· != 0) = [] := by
    rw [List.filter_eq_nil_iff]
    intro rtt hmem
    obtain ⟨opkt, ho, rfl⟩ := List.mem_map.mp hmem
    rw [hrecent] at ho
    rcases List.mem_append.mp ho with ho | ho
    · simp [(hgone opkt ho).2]
    · cases List.mem_singleton.mp ho
      exact fun h => Bool.false_ne_true h
  dsimp only
  rw [hacked, hsent (by simp), hzero]
  rfl

theorem probeEntry_givenUp (sent : Time) :
    (probeEntry sent).givenUp (sent + 1 / 2) (1 / 10) = true := by
  have hlate : sent + 1 / 2 - sent > 1 / 10 := by
    rw [add_sub_cancel_left]
    norm_num
  simpa [RecentOutgoingPacket.givenUp, probeEntry] using hlate

/-- What is given up with the probe is gone with the others. -/
theorem gone_markLost {gone : List RecentOutgoingPacket} (hgone : ∀ opkt ∈ gone, Gone opkt)
    (sent : Time) :
    ∀ opkt ∈ (gone ++ [probeEntry sent]).map fun opkt =>
      if opkt.givenUp (sent + 1 / 2) (1 / 10) then opkt.markLost else opkt, Gone opkt := by
  intro opkt ho
  obtain ⟨before, hmem, rfl⟩ := List.mem_map.mp ho
  rcases List.mem_append.mp hmem with hmem | hmem
  · have hbefore := hgone before hmem
    split
    · exact ⟨rfl, hbefore.2⟩
    · exact hbefore
  · cases List.mem_singleton.mp hmem
    rw [if_pos (probeEntry_givenUp sent)]
    exact ⟨rfl, rfl⟩

theorem Losing.tick {n : ℕ} {sent : Time} (hc : Losing n [probeEntry sent] c) :
    ∃ c₁, c.tickCongestionControl (sent + 1 / 2) = .ok c₁ ∧ Losing (n + 1) [] c₁ := by
  obtain ⟨signaling, audio, gone, hstreams, hnone, hsender, hacked, hsent, hrecent, hgone⟩ := hc.streams
  let now := sent + 1 / 2
  have hlosses : audio.packetManager.losses now (1 / 10) = [probeEntry sent] := by
    have hold : gone.filter (·.givenUp now (1 / 10)) = [] := by
      rw [List.filter_eq_nil_iff]
      intro opkt ho
      simp [RecentOutgoingPacket.givenUp, (hgone opkt ho).1]
    have hnew : [probeEntry sent].filter (·.givenUp now (1 / 10)) = [probeEntry sent] :=
      List.filter_cons_of_pos (probeEntry_givenUp sent)
    rw [PacketManager.losses, hrecent, List.filter_append, hold, hnew]
    rfl
  have hsilent : signaling.packetManager.losses now (1 / 10) = [] := by
    rw [PacketManager.losses, hnone]
    rfl
  have hall : (c.outgoingStreams.flatMap fun s => s.packetManager.losses now (1 / 10)) =
      [probeEntry sent] := by
    rw [hstreams, List.flatMap_cons, hsilent, List.flatMap_cons, hlosses]
    rfl
  have hheard : (c.outgoingStreams.any fun s =>
      !s.hasSender && !(s.packetManager.losses now (1 / 10)).isEmpty) = false := by
    rw [hstreams, List.any_cons, hsilent, List.any_cons, hsender]
    simp
  have hrun : c.tickCongestionControl now = .ok { c with
      outgoingStreams := c.outgoingStreams.map fun s =>
        { s with packetManager := s.packetManager.markLosses now (1 / 10) }
      sendLosses := c.sendLosses + UInt32.ofNat [probeEntry sent].length
      markedLost := c.markedLost + [probeEntry sent].length
      conctlCalls := c.conctlCalls ++ .tick :: [probeEntry sent].map fun opkt => .packetLost opkt.pkt } := by
    refine bind_eq_ok.mpr ⟨0, hc.getAverageRTT, ?_⟩
    have htimeout : max ((0 : Time) * 2) (1 / 10) = 1 / 10 := by decide +kernel
    dsimp only
    rw [htimeout, hheard, hall]
    rfl
  refine ⟨_, hrun, hc.endpoints, hc.socket, hc.usable, hc.isNew, ?_, ?_, hc.recovered⟩
  · refine ⟨{ signaling with packetManager := signaling.packetManager.markLosses now (1 / 10) },
      { audio with packetManager := audio.packetManager.markLosses now (1 / 10) },
      (gone ++ [probeEntry sent]).map fun opkt =>
        if opkt.givenUp now (1 / 10) then opkt.markLost else opkt,
      ?_, ?_, hsender, hacked, fun h => absurd rfl h, ?_, gone_markLost hgone sent⟩
    · show c.outgoingStreams.map _ = _
      rw [hstreams]
      rfl
    · show signaling.packetManager.recentOutgoingPackets.map _ = _
      rw [hnone]
      rfl
    · show audio.packetManager.recentOutgoingPackets.map _ = _
      rw [hrecent, List.append_nil]
  · show c.markedLost + _ = n + 1
    rw [hc.marked]
    rfl

theorem losing_rounds (n : ℕ) :
    ∃ c, ((List.range n).flatMap lossRound).foldlM (LossEvent.step samplePlatform)
      (sampleCall {}) = .ok c ∧ Losing n [] c := by
  induction n with
  | zero => exact ⟨_, rfl, losing_sampleCall⟩
  | succ n ih =>
      obtain ⟨c, hrun, hc⟩ := ih
      obtain ⟨c₁, hsend, hc₁⟩ := hc.send (n + 1)
      obtain ⟨c₂, htick, hc₂⟩ := hc₁.tick
      refine ⟨c₂, ?_, hc₂⟩
      rw [List.range_succ, List.flatMap_append, List.foldlM_append, hrun]
      exact bind_eq_ok.mpr ⟨c, rfl, bind_eq_ok.mpr ⟨c₁, hsend, bind_eq_ok.mpr ⟨c₂, htick, rfl⟩⟩⟩

/-- A round lies within its second. -/
theorem lossRound_time {k : ℕ} {e : LossEvent} (he : e ∈ lossRound k) :
    (k : Time) + 1 ≤ e.time ∧ e.time < k + 2 := by
  simp only [lossRound, List.mem_cons, List.not_mem_nil, or_false] at he
  rcases he with rfl | rfl
  · constructor <;> simp only [LossEvent.time] <;> linarith
  · constructor <;> simp only [LossEvent.time] <;> linarith

/-- When 2^32 packets are given up, the counter is back at zero. -/
theorem losses_right_fails :
    ¬ ∀ (env : Platform) (c c' : Controller) (events : List LossEvent), c.NothingSent →
      (∀ e ∈ events, 0 < e.time) → events.Pairwise (fun e e' => e.time < e'.time) →
      events.foldlM (LossEvent.step env) c = .ok c' →
      c'.recovered ≤ c'.markedLost ∧ c'.sendLosses.toNat = c'.markedLost - c'.recovered ∧
        ∀ s ∈ c'.outgoingStreams, ∀ opkt ∈ s.packetManager.recentOutgoingPackets,
          opkt.reports.length ≤ 1 := by
  intro h
  obtain ⟨c, hrun, hc⟩ := losing_rounds (2 ^ 32)
  have hpositive : ∀ e ∈ (List.range (2 ^ 32)).flatMap lossRound, 0 < e.time := by
    intro e he
    obtain ⟨k, -, he⟩ := List.mem_flatMap.mp he
    have hk : (0 : Time) ≤ k := Nat.cast_nonneg k
    linarith [(lossRound_time he).1]
  have hordered : ((List.range (2 ^ 32)).flatMap lossRound).Pairwise
      fun e e' => e.time < e'.time := by
    refine List.pairwise_flatMap.mpr ⟨fun k _ => ?_, List.pairwise_lt_range.imp ?_⟩
    · exact List.pairwise_pair.mpr (lt_add_of_pos_right _ (by norm_num))
    · intro k k' hlt e he e' he'
      have hnext : (k : Time) + 1 ≤ k' := mod_cast Nat.succ_le_of_lt hlt
      linarith [(lossRound_time he).2, (lossRound_time he').1]
  have hexact := (h _ _ _ _ sampleCall_nothingSent hpositive hordered hrun).2.1
  have hlt := c.sendLosses.toNat_lt
  rw [hexact, hc.marked, hc.recovered] at hlt
  exact absurd hlt (Nat.lt_irrefl _)

end Controller

end Tgvoip
