import Tgvoip.Net.CongestionControl
import Tgvoip.Controller.Accounts

/-!
# AcksTold — which packets the congestion controller takes for acknowledged

`ProcessIncomingPacket` tells it of the recent packets the new
acknowledgement covers, and before that of the incoming packet itself,
whose seq is one of the peer's.
-/

namespace Tgvoip

open ByteReader Fallible BitMask

/-- An acknowledgement covers the seq: it is the acknowledged one, or its bit is
set, at the place `wasLocalAcked` reads it from. -/
def Covers (ackSeq ackMask seq : UInt32) : Prop :=
  seq = ackSeq ∨
    ∃ d, 1 ≤ d ∧ d ≤ 32 ∧ seq.toNat + d = ackSeq.toNat ∧ bit ackMask (32 - d) = true

theorem PacketManager.wasLocalAcked_iff_covers (pm : PacketManager) (ackSeq ackMask seq : UInt32) :
    (pm.ackLocal ackSeq ackMask).wasLocalAcked seq = true ↔ Covers ackSeq ackMask seq := by
  by_cases hne : seq = ackSeq
  · simp [hne, Covers, wasLocalAcked]
  · by_cases hlt : seq < ackSeq
    · have hlt' : seq.toNat < ackSeq.toNat := UInt32.lt_iff_toNat_lt.mp hlt
      have hdist : (ackSeq - seq).toNat = ackSeq.toNat - seq.toNat :=
        toNat_sub_of_le (Nat.le_of_lt hlt')
      by_cases hnear : ackSeq.toNat - seq.toNat ≤ 32
      · rw [wasLocalAcked_eq (pm.ackLocal ackSeq ackMask) hlt hnear]
        constructor
        · intro hbit
          exact .inr ⟨_, by omega, hnear, by omega, hbit⟩
        · rintro (heq | ⟨d, -, -, hd, hbit⟩)
          · exact absurd heq hne
          · have hd : ackSeq.toNat - seq.toNat = d := by omega
            exact hd ▸ hbit
      · -- too far behind for a mask of 32 bits
        have hfar : ¬ (ackSeq - seq > 0 ∧ ackSeq - seq ≤ 32) := by
          rintro ⟨-, hle⟩
          have hle := UInt32.le_iff_toNat_le.mp hle
          rw [hdist] at hle
          exact hnear hle
        refine iff_of_false ?_ ?_
        · have hngt : ¬ seq > ackSeq := fun h => by
            have := UInt32.lt_iff_toNat_lt.mp h
            omega
          simp [wasLocalAcked, hne, hngt, hfar]
        · rintro (heq | ⟨d, -, hd, hsum, -⟩)
          · exact hne heq
          · omega
    · have hle : ackSeq.toNat ≤ seq.toNat := by
        rw [UInt32.lt_iff_toNat_lt] at hlt
        omega
      have hgt : seq > ackSeq := by
        have hne' : seq.toNat ≠ ackSeq.toNat := fun h => hne (UInt32.toNat_inj.mp h)
        rw [gt_iff_lt, UInt32.lt_iff_toNat_lt]
        omega
      refine iff_of_false ?_ ?_
      · simp [wasLocalAcked, hne, hgt]
      · rintro (heq | ⟨d, hd, -, hsum, -⟩)
        · exact hne heq
        · omega

/-- The packet is of the stream whose manager the incoming packet's
acknowledgement goes to, and is covered by it. -/
structure Acknowledges (p : Packet) (pkt : CongestionControlPacket) : Prop where
  stream : pkt.streamId = p.managerIndex
  covered : Covers p.ackSeq p.ackMask pkt.seq

/-- A slot that `PacketAcknowledged` frees holds the packet it was called with. -/
theorem CongestionControl.key_of_freed {c : CongestionControl} {pkt : CongestionControlPacket}
    {now : Time} {i : Fin 100} (hbefore : InFlight (c.inflightPackets i))
    (hafter : ¬ InFlight ((c.packetAcknowledged pkt now).inflightPackets i)) :
    (⟨(c.inflightPackets i).seq, (c.inflightPackets i).streamId⟩ : CongestionControlPacket) = pkt := by
  unfold packetAcknowledged at hafter
  cases hfind : c.findPacket pkt with
  | none =>
      rw [hfind] at hafter
      exact absurd hbefore hafter
  | some j =>
      rw [hfind] at hafter
      by_cases hij : i = j
      · subst hij
        have hkey := List.find?_some hfind
        simp only [Bool.and_eq_true, beq_iff_eq] at hkey
        rw [hkey.1.1, hkey.1.2]
      · refine absurd hbefore ?_
        simpa [freeSlot, Function.update_of_ne hij] using hafter

namespace Controller

variable {env : Platform} {c c' c₁ : Controller} {now : Time} {src : Int64} {p : Packet}

/-- What the congestion controller is told is right: only packets that the peer
acknowledged are called acknowledged; so a slot is freed with a round-trip sample
only by the acknowledgement of the very packet it holds. -/
structure ToldRight (p : Packet) (told : List ConctlCall) : Prop where
  acknowledged : ∀ pkt, .packetAcknowledged pkt ∈ told → Acknowledges p pkt
  freed : ∀ pkt, .packetAcknowledged pkt ∈ told → ∀ (conctl : CongestionControl) (now : Time) i,
    CongestionControl.InFlight (conctl.inflightPackets i) →
    ¬ CongestionControl.InFlight ((conctl.packetAcknowledged pkt now).inflightPackets i) →
    Acknowledges p ⟨(conctl.inflightPackets i).seq, (conctl.inflightPackets i).streamId⟩

/-- **The controller is told of an acknowledgement only for packets the peer
acknowledged.** -/
def TellsAcknowledged (env : Platform) (c : Controller) (e : Time × Event) : Prop :=
  ∀ p src c', e.2 = .packet p src → c.step env e = .ok c' →
    ∃ told, c'.conctlCalls = c.conctlCalls ++ told ∧ ToldRight p told

/-- A packet whose acknowledgement is taken acknowledges its own seq too: it came
on the stream of the manager, and both sides' seqs happen to meet. -/
def OwnSeqCovered (c : Controller) (e : Time × Event) : Prop :=
  ∀ p src s, e.2 = .packet p src → c.outgoingStreams[p.managerIndex.toNat]? = some s →
    c.accepts p = true → s.packetManager.takesAck p.ackSeq = true →
    Acknowledges p ⟨p.seq, p.streamId⟩

/-- The recent packets of a stream were sent on it. -/
def Filed (c : Controller) : Prop := ∀ i, ∀ opkt ∈ c.recents i, opkt.pkt.streamId.toNat = i

theorem OnlySends.filed (h : OnlySends c c') (hc : c.Filed) : c'.Filed := by
  intro i opkt ho
  obtain ⟨fresh, hfresh, hsuffix⟩ := h.recents i
  rcases List.mem_append.mp (hsuffix.subset ho) with ho | ho
  · exact hc i opkt ho
  · exact (hfresh opkt ho).stream

/-- The entries behind an acknowledgement are those before it, with other times. -/
theorem Settles.filed {s : OutgoingStream}
    (hs : c.outgoingStreams[p.managerIndex.toNat]? = some s)
    (h : Settles now p (s.packetManager.ackLocal p.ackSeq p.ackMask) c c') (hc : c.Filed) :
    c'.Filed := by
  intro i opkt ho
  rw [h.recents hs] at ho
  split at ho
  · rename_i hi
    subst hi
    obtain ⟨before, hbefore, rfl⟩ := List.mem_map.mp ho
    rw [PacketManager.ackLocal_recents, ← recents_of_stream hs] at hbefore
    have hstream := hc _ before hbefore
    split
    · exact hstream
    · exact hstream
  · exact hc i opkt ho

theorem step_filed {e : Time × Event} (hc : c.Filed) (h : c.step env e = .ok c') : c'.Filed := by
  by_cases hpacket : ∃ p src, e.2 = .packet p src
  · obtain ⟨p, src, he⟩ := hpacket
    obtain ⟨now, e⟩ := e
    cases he
    obtain rfl | ⟨-, c₁, c₂, s, hbefore, hs, hack, hafter⟩ := processIncomingPacket_settles h
    · exact hc
    · refine hafter.filed ?_
      obtain ⟨-, rfl⟩ | ⟨-, hack⟩ := hack
      · exact hbefore.filed hc
      · exact hack.filed hs (hbefore.filed hc)
  · exact (step_onlySends (fun p src he => hpacket ⟨p, src, he⟩) h).filed hc

/-- The acknowledgement stage tells right, if the packet itself may be told of. -/
theorem acknowledges_of_told {s : OutgoingStream}
    (hs : c.outgoingStreams[p.managerIndex.toNat]? = some s) (hc : c.Filed)
    (hown : Acknowledges p ⟨p.seq, p.streamId⟩) :
    ∀ pkt, .packetAcknowledged pkt ∈ toldAcked p (s.packetManager.ackLocal p.ackSeq p.ackMask) →
      Acknowledges p pkt := by
  intro pkt hpkt
  rcases List.mem_cons.mp hpkt with heq | hpkt
  · cases heq
    exact hown
  · obtain ⟨opkt, ho, heq⟩ := List.mem_map.mp hpkt
    cases heq
    obtain ⟨hmem, hnew⟩ := List.mem_filter.mp ho
    rw [PacketManager.ackLocal_recents, ← recents_of_stream hs] at hmem
    refine ⟨UInt8.toNat_inj.mp (hc _ opkt hmem), ?_⟩
    rw [← PacketManager.wasLocalAcked_iff_covers s.packetManager]
    exact (Bool.and_eq_true_iff.mp hnew).2

/-- What is said besides is of no acknowledgement. -/
theorem toldRight_of_sends {before acked after : List ConctlCall}
    (hbefore : ∀ pkt, .packetAcknowledged pkt ∉ before)
    (hacked : ∀ pkt, .packetAcknowledged pkt ∈ acked → Acknowledges p pkt)
    (hafter : ∀ pkt, .packetAcknowledged pkt ∉ after) : ToldRight p (before ++ acked ++ after) := by
  have hall : ∀ pkt, .packetAcknowledged pkt ∈ before ++ acked ++ after → Acknowledges p pkt := by
    intro pkt hpkt
    rcases List.mem_append.mp hpkt with hpkt | hpkt
    · rcases List.mem_append.mp hpkt with hpkt | hpkt
      · exact absurd hpkt (hbefore pkt)
      · exact hacked pkt hpkt
    · exact absurd hpkt (hafter pkt)
  refine ⟨hall, ?_⟩
  intro pkt hpkt conctl at_ i hin hout
  rw [CongestionControl.key_of_freed hin hout]
  exact hall pkt hpkt

theorem exists_of_accepts (h : c.accepts p = true) :
    ∃ s, c.outgoingStreams[p.managerIndex.toNat]? = some s := by
  unfold accepts at h
  cases hs : c.outgoingStreams[p.managerIndex.toNat]? with
  | none =>
      rw [hs] at h
      cases h
  | some s => exact ⟨s, rfl⟩

theorem tells_acknowledged {e : Time × Event} (hc : c.Filed) (hown : c.OwnSeqCovered e) :
    TellsAcknowledged env c e := by
  intro p src c' he h
  obtain ⟨now, e⟩ := e
  cases he
  obtain rfl | ⟨haccepts, c₁, c₂, s, hbefore, hs, hack, hafter⟩ := processIncomingPacket_settles h
  · refine ⟨[], (List.append_nil _).symm, ?_, ?_⟩
    · exact fun _ h => absurd h List.not_mem_nil
    · exact fun _ h => absurd h List.not_mem_nil
  · obtain ⟨told, hcalls, hnone⟩ := hbefore.told
    obtain ⟨told', hcalls', hnone'⟩ := hafter.told
    obtain ⟨-, rfl⟩ | ⟨htakes, hack⟩ := hack
    · refine ⟨told ++ [] ++ told', ?_, toldRight_of_sends hnone ?_ hnone'⟩
      · rw [hcalls', hcalls, List.append_nil, List.append_assoc]
      · exact fun _ h => absurd h List.not_mem_nil
    · -- the stream takes the acknowledgement before the step too
      obtain ⟨s₀, hs₀⟩ := exists_of_accepts haccepts
      have hacked : s.packetManager.lastAckedSeq = s₀.packetManager.lastAckedSeq := by
        rw [← lastAcked_of_stream hs, hbefore.lastAcked, lastAcked_of_stream hs₀]
      have hcovered := hown p src s₀ rfl hs₀ haccepts (by
        rw [PacketManager.takesAck, ← hacked]
        exact htakes)
      refine ⟨told ++ toldAcked p _ ++ told', ?_, toldRight_of_sends hnone
        (acknowledges_of_told hs (hbefore.filed hc) hcovered) hnone'⟩
      rw [hcalls', hack.told, hcalls]
      simp only [List.append_assoc]

/-- **Only acknowledged packets are told of**, in every run whose packets
acknowledge their own seq. -/
theorem told_acknowledged {events : List (Time × Event)} (hstart : ∀ i, c.recents i = [])
    (hown : AlongOk (step env) OwnSeqCovered c events) :
    AlongOk (step env) (TellsAcknowledged env) c events := by
  refine hown.strengthen (I := Filed) (fun _ _ _ hc _ h => step_filed hc h)
    (fun _ _ hc he => tells_acknowledged hc he) ?_
  intro i opkt ho
  rw [hstart] at ho
  cases ho

/-! ## On fixed inputs -/

/-- Two packets on the Audio stream, and the peer's second one, which
acknowledges the packet of its own seq. -/
def echoed (ackSeq : UInt32) : List (Time × Event) :=
  [(0, .sendPacket { packet := { streamId := StreamId.audio } } 0 0 0),
    (1, .sendPacket { packet := { streamId := StreamId.audio } } 0 0 0),
    (2, .packet { streamId := StreamId.audio, seq := 2, ackSeq } 1)]

/-- The steps of `echoed` that are no packets are right by themselves. -/
theorem ownSeqCovered_echoed :
    AlongOk (step samplePlatform) OwnSeqCovered (sampleCall {}) (echoed 2) := by
  have hsends : ∀ e ∈ (echoed 2).take 2, ∀ c : Controller, c.OwnSeqCovered e := by
    intro e he c p src s hpacket
    simp only [echoed, List.take_succ_cons, List.take_zero, List.mem_cons, List.not_mem_nil,
      or_false] at he
    rcases he with rfl | rfl <;> cases hpacket
  refine (alongOk_of_forall hsends).snoc ?_
  intro c _ p src s he _ _ _
  cases he
  exact ⟨rfl, .inl rfl⟩

theorem told_acknowledged_echoed :
    AlongOk (step samplePlatform) (TellsAcknowledged samplePlatform) (sampleCall {}) (echoed 2) :=
  told_acknowledged sampleCall_recents ownSeqCovered_echoed

/-- The peer's second packet acknowledges the first one here: the second one here
counts as acknowledged. -/
theorem told_acknowledged_fails :
    ¬ ∀ (env : Platform) (c : Controller) (events : List (Time × Event)),
      (∀ i, c.recents i = []) → AlongOk (step env) (TellsAcknowledged env) c events := by
  intro h
  have hrun : AlongOk (step samplePlatform) (TellsAcknowledged samplePlatform) (sampleCall {})
      ((echoed 1).take 2 ++ (echoed 1).drop 2) := h _ _ _ sampleCall_recents
  have hvalues : (((echoed 1).take 2).foldlM (step samplePlatform) (sampleCall {})).map (fun c =>
      (c.conctlCalls.length, (c.step samplePlatform
        (2, .packet { streamId := StreamId.audio, seq := 2, ackSeq := 1 } 1)).map
          fun c' => c'.conctlCalls.drop c.conctlCalls.length)) =
      .ok (2, .ok [.packetAcknowledged ⟨2, 1⟩, .packetAcknowledged ⟨1, 1⟩]) := by
    decide +kernel
  obtain ⟨c, hbefore, hvalue⟩ := exists_of_map_eq_ok hvalues
  obtain ⟨hlength, hnext⟩ := Prod.mk.inj hvalue
  obtain ⟨c', hstep, hcalls⟩ := exists_of_map_eq_ok hnext
  obtain ⟨told, htold, hright⟩ := hrun.last hbefore _ _ c' rfl hstep
  rw [htold, List.drop_left] at hcalls
  have hsecond := hright.acknowledged ⟨2, 1⟩ (by rw [hcalls]; exact List.mem_cons_self)
  rcases hsecond.covered with heq | ⟨d, -, -, -, hbit⟩
  · exact absurd heq (by decide)
  · simp at hbit

end Controller

end Tgvoip
