import Tgvoip.Controller.HandlerRule

/-!
# Accounts — what is kept of the packets that were sent

Sending a packet files it with the recent ones of its stream, and tells the
congestion controller. Only two functions go through what was filed: the
acknowledgement stage of `ProcessIncomingPacket`, and the tick that gives
packets up as lost. Whatever else the controller does, it only sends
(`OnlySends`).
-/

namespace Tgvoip

open ByteReader Fallible

/-- The recent packets of a stream. -/
def Transport.recents (t : Transport) (i : ℕ) : List RecentOutgoingPacket :=
  (t.outgoingStreams[i]?).elim [] (·.packetManager.recentOutgoingPackets)

/-- The seq last acknowledged on a stream, 0 where there is none yet. -/
def Transport.lastAcked (t : Transport) (i : ℕ) : UInt32 :=
  (t.outgoingStreams[i]?).elim 0 (·.packetManager.lastAckedSeq)

/-- The entry of a packet that was just sent on stream `i`. -/
structure RecentOutgoingPacket.Fresh (opkt : RecentOutgoingPacket) (i : ℕ) : Prop where
  stream : opkt.pkt.streamId.toNat = i
  ackTime : opkt.ackTime = 0
  lost : opkt.lost = false
  reports : opkt.reports = []

structure LossCounters where
  sendLosses : UInt32
  markedLost : ℕ
  recovered : ℕ

namespace Controller

variable {env : Platform} {c c' c'' c₁ : Controller} {now : Time} {src : Int64} {p : Packet}

def losses (c : Controller) : LossCounters := ⟨c.sendLosses, c.markedLost, c.recovered⟩

/-- What the accounts are about. -/
def books (c : Controller) : List OutgoingStream × List ConctlCall × LossCounters :=
  (c.outgoingStreams, c.conctlCalls, c.losses)

/-- The controller may have sent packets; it did not go through those it sent
before. -/
structure OnlySends (c c' : Controller) : Prop where
  losses : c'.losses = c.losses
  told : ∃ told, c'.conctlCalls = c.conctlCalls ++ told ∧ ∀ pkt, .packetAcknowledged pkt ∉ told
  recents : ∀ i, ∃ fresh, (∀ opkt ∈ fresh, opkt.Fresh i) ∧ c'.recents i <:+ c.recents i ++ fresh
  lastAcked : ∀ i, c'.lastAcked i = c.lastAcked i
  streams : c.outgoingStreams.length ≤ c'.outgoingStreams.length

namespace OnlySends

theorem of_books (h : c'.books = c.books) : OnlySends c c' := by
  obtain ⟨hstreams, hrest⟩ := Prod.mk.inj h
  obtain ⟨hcalls, hlosses⟩ := Prod.mk.inj hrest
  refine ⟨hlosses, ⟨[], ?_, fun _ => List.not_mem_nil⟩, ?_, ?_, ?_⟩
  · rw [hcalls, List.append_nil]
  · intro i
    refine ⟨[], fun _ h => absurd h List.not_mem_nil, ?_⟩
    rw [List.append_nil, Transport.recents, Transport.recents, hstreams]
  · intro i
    rw [Transport.lastAcked, Transport.lastAcked, hstreams]
  · rw [hstreams]

theorem refl (c : Controller) : OnlySends c c := of_books rfl

theorem trans (h : OnlySends c c') (h' : OnlySends c' c'') : OnlySends c c'' where
  losses := h'.losses.trans h.losses
  told := by
    obtain ⟨told, hcalls, hnone⟩ := h.told
    obtain ⟨told', hcalls', hnone'⟩ := h'.told
    refine ⟨told ++ told', ?_, ?_⟩
    · rw [hcalls', hcalls, List.append_assoc]
    · intro pkt hpkt
      rcases List.mem_append.mp hpkt with hpkt | hpkt
      · exact hnone pkt hpkt
      · exact hnone' pkt hpkt
  recents := by
    intro i
    obtain ⟨fresh, hfresh, hsuffix⟩ := h.recents i
    obtain ⟨fresh', hfresh', hsuffix'⟩ := h'.recents i
    refine ⟨fresh ++ fresh', ?_, ?_⟩
    · intro opkt ho
      rcases List.mem_append.mp ho with ho | ho
      · exact hfresh opkt ho
      · exact hfresh' opkt ho
    · rw [← List.append_assoc]
      obtain ⟨evicted, hevicted⟩ := hsuffix
      have hmore : c'.recents i ++ fresh' <:+ c.recents i ++ fresh ++ fresh' :=
        ⟨evicted, by rw [← List.append_assoc, hevicted]⟩
      exact hsuffix'.trans hmore
  lastAcked := fun i => (h'.lastAcked i).trans (h.lastAcked i)
  streams := h.streams.trans h'.streams

theorem ite {p : Prop} [Decidable p] (h : OnlySends c c') : OnlySends c (if p then c' else c) := by
  split
  · exact h
  · exact refl c

end OnlySends

/-! ## Sending -/

theorem recents_setManager {i : ℕ} {s : OutgoingStream} {pm : PacketManager}
    (hs : c.outgoingStreams[i]? = some s) (j : ℕ) :
    (c.setManager i pm).recents j = if i = j then pm.recentOutgoingPackets else c.recents j := by
  unfold Transport.recents
  rw [getElem?_setManager hs]
  split
  · rfl
  · rfl

theorem recents_of_stream {i : ℕ} {s : OutgoingStream} (hs : c.outgoingStreams[i]? = some s) :
    c.recents i = s.packetManager.recentOutgoingPackets := by
  rw [Transport.recents, hs]
  rfl

theorem lastAcked_setManager {i : ℕ} {s : OutgoingStream} {pm : PacketManager}
    (hs : c.outgoingStreams[i]? = some s) (hacked : pm.lastAckedSeq = s.packetManager.lastAckedSeq)
    (j : ℕ) : (c.setManager i pm).lastAcked j = c.lastAcked j := by
  unfold Transport.lastAcked
  rw [getElem?_setManager hs]
  split
  · rename_i hij
    rw [← hij, hs]
    exact hacked
  · rfl

theorem lastAcked_of_stream {i : ℕ} {s : OutgoingStream} (hs : c.outgoingStreams[i]? = some s) :
    c.lastAcked i = s.packetManager.lastAckedSeq := by
  rw [Transport.lastAcked, hs]
  rfl

theorem setManager_onlySends {i : ℕ} {s : OutgoingStream} {pm : PacketManager}
    (hs : c.outgoingStreams[i]? = some s)
    (hpm : pm.recentOutgoingPackets = s.packetManager.recentOutgoingPackets)
    (hacked : pm.lastAckedSeq = s.packetManager.lastAckedSeq) :
    OnlySends c (c.setManager i pm) where
  losses := rfl
  told := ⟨[], (List.append_nil _).symm, fun _ => List.not_mem_nil⟩
  recents := by
    intro j
    refine ⟨[], fun _ h => absurd h List.not_mem_nil, ?_⟩
    rw [recents_setManager hs, List.append_nil]
    by_cases hij : i = j
    · subst hij
      rw [if_pos rfl, hpm, recents_of_stream hs]
    · rw [if_neg hij]
  lastAcked := lastAcked_setManager hs hacked
  streams := by simp [setManager]

theorem addRecentOutgoingPacket_suffix (pm : PacketManager) (opkt : RecentOutgoingPacket) :
    (pm.addRecentOutgoingPacket opkt).recentOutgoingPackets <:+
      pm.recentOutgoingPackets ++ [opkt] := by
  unfold PacketManager.addRecentOutgoingPacket
  dsimp only
  exact List.drop_suffix _ _

theorem transmit_onlySends {pkt : PendingOutgoingPacket} {e : Endpoint}
    (h : c.transmit now pkt e = .ok c') : OnlySends c c' := by
  unfold transmit at h
  obtain ⟨s, hs, h⟩ := bind_eq_ok.mp h
  rw [outgoingStream_eq_ok] at hs
  cases pure_eq_ok.mp h
  let opkt : RecentOutgoingPacket :=
    { pkt := pkt.pktInfo, size := pkt.packet.length, endpoint := pkt.endpoint, sendTime := now }
  refine ⟨rfl, ⟨_, rfl, ?_⟩, ?_, lastAcked_setManager hs rfl, ?_⟩
  · intro told hmem
    cases List.mem_singleton.mp hmem
  · intro i
    have hset : (c.setManager pkt.pktInfo.streamId.toNat
        (s.packetManager.addRecentOutgoingPacket opkt)).recents i = _ := recents_setManager hs i
    by_cases hi : pkt.pktInfo.streamId.toNat = i
    · refine ⟨[opkt], ?_, ?_⟩
      · intro o ho
        cases List.mem_singleton.mp ho
        exact ⟨hi, rfl, rfl, rfl⟩
      · rw [if_pos hi] at hset
        subst hi
        rw [recents_of_stream hs]
        have hsuffix := addRecentOutgoingPacket_suffix s.packetManager opkt
        rw [← hset] at hsuffix
        exact hsuffix
    · rw [if_neg hi] at hset
      refine ⟨[], fun _ h => absurd h List.not_mem_nil, ?_⟩
      rw [List.append_nil]
      exact hset ▸ List.suffix_refl _
  · simp [setManager]

theorem prepare_recents (p : Packet) (pm : PacketManager) :
    (p.prepare pm).2.recentOutgoingPackets = pm.recentOutgoingPackets ∧
      (p.prepare pm).2.lastAckedSeq = pm.lastAckedSeq := by
  unfold Packet.prepare
  split <;> exact ⟨rfl, rfl⟩

theorem prepareLegacySeq_recents (p : Packet) (pm legacyPm : PacketManager) (localSeq : UInt32) :
    ((prepareLegacySeq p pm legacyPm).2.setLocalSeq localSeq).recentOutgoingPackets =
        legacyPm.recentOutgoingPackets ∧
      ((prepareLegacySeq p pm legacyPm).2.setLocalSeq localSeq).lastAckedSeq =
        legacyPm.lastAckedSeq := by
  unfold prepareLegacySeq
  split
  · split <;> exact ⟨rfl, rfl⟩
  · exact ⟨rfl, rfl⟩

/-- **All of sending only sends.** -/
theorem onlySends_rule : SendRule OnlySends where
  refl := .refl
  trans := .trans
  connect := by
    intro c key e _
    unfold connectIfNeeded
    exact .ite (.of_books rfl)
  transmit := transmit_onlySends
  enqueue := fun _ _ => .of_books rfl
  reliably := by
    intro c pkt retryInterval timeout tries
    unfold sendPacketReliably
    dsimp only
    split <;> exact .of_books rfl
  noteSealing := fun _ _ => .of_books rfl
  prepareNew := by
    intro c p endpointId stream hs
    obtain ⟨hrecents, hacked⟩ := prepare_recents p stream.packetManager
    exact (setManager_onlySends hs hrecents hacked).trans (.of_books rfl)
  prepareLegacy := by
    intro c p endpoint stream signaling localSeq hs hsig
    obtain ⟨hrecents, hacked⟩ := prepare_recents p stream.packetManager
    have hset := setManager_onlySends hs hrecents hacked
    obtain ⟨hrecents', hacked'⟩ := prepareLegacySeq_recents (p.prepare stream.packetManager).1
      (p.prepare stream.packetManager).2 signaling.packetManager localSeq
    exact (hset.trans (setManager_onlySends hsig hrecents' hacked')).trans (.of_books rfl)

theorem sendExtra_books (extra : WrappedExtra) (endpointId : Int64) :
    (c.sendExtra extra endpointId).books = c.books := by
  unfold sendExtra
  split <;> rfl

/-! ## The handlers -/

/-- A new video stream has sent nothing yet. -/
theorem videoStream_onlySends (codec : UInt32) :
    OnlySends c { c with outgoingStreams := c.outgoingStreams ++ [env.videoStream codec] } := by
  have hstreams : ∀ i : ℕ, (c.outgoingStreams ++ [env.videoStream codec])[i]? = c.outgoingStreams[i]? ∨
      (c.outgoingStreams[i]? = none ∧
        ((c.outgoingStreams ++ [env.videoStream codec])[i]? = some (env.videoStream codec) ∨
          (c.outgoingStreams ++ [env.videoStream codec])[i]? = none)) := by
    intro i
    rcases Nat.lt_trichotomy i c.outgoingStreams.length with hi | rfl | hi
    · exact .inl (List.getElem?_append_left hi)
    · exact .inr ⟨List.getElem?_eq_none (Nat.le_refl _), .inl List.getElem?_concat_length⟩
    · exact .inr ⟨List.getElem?_eq_none (Nat.le_of_lt hi),
        .inr (List.getElem?_eq_none (by simp; omega))⟩
  refine ⟨rfl, ⟨[], (List.append_nil _).symm, fun _ => List.not_mem_nil⟩, ?_, ?_, ?_⟩
  · intro i
    refine ⟨[], fun _ h => absurd h List.not_mem_nil, ?_⟩
    rw [List.append_nil]
    unfold Transport.recents
    dsimp only
    rcases hstreams i with h | ⟨hnone, h | h⟩
    · rw [h]
    · rw [h, hnone]
      exact List.nil_suffix
    · rw [h, hnone]
  · intro i
    unfold Transport.lastAcked
    dsimp only
    rcases hstreams i with h | ⟨hnone, h | h⟩
    · rw [h]
    · rw [h, hnone]
      rfl
    · rw [h, hnone]
  · simp

theorem OnlySends.of_core (h : c'.core = c.core) : OnlySends c c' := by
  apply OnlySends.of_books
  have hbooks : ∀ c : Controller, c.books = (c.core.transport.outgoingStreams, c.core.conctlCalls,
      ⟨c.core.sendLosses, c.core.markedLost, c.core.recovered⟩) := fun _ => rfl
  rw [hbooks, hbooks, h]

/-- **The handlers only send**, but for the acknowledgement stage. -/
theorem onlySends_handlers (env : Platform) : HandlerRule env OnlySends where
  toSendRule := onlySends_rule
  aside := .of_core
  extra := fun _ _ _ => .of_books (sendExtra_books ..)
  count := fun _ _ => .of_books rfl
  draw := fun hs => setManager_onlySends hs rfl rfl
  retry := fun _ _ _ => .of_books rfl
  initSent := fun _ _ => .of_books rfl
  fail := fun _ _ => .of_books rfl
  ackInit := fun _ _ _ _ => .of_books rfl
  audio := fun _ _ => .of_books rfl
  post := fun _ _ _ _ => .of_books rfl
  video := fun _ => videoStream_onlySends
  csd := fun _ _ => .of_books rfl

theorem processStreamFlags_books (d : ExtraStreamFlags) : (c.processStreamFlags d).books = c.books := by
  unfold processStreamFlags
  split <;> rfl

theorem processExtras_onlySends {xs : List WrappedExtra}
    (h : c.processExtras env now src xs = .ok c') : OnlySends c c' :=
  (onlySends_handlers env).processExtras (fun _ d => .of_books (processStreamFlags_books d)) h

/-! ## The packet -/

/-- The entries an acknowledgement is new for. -/
def ackedEntries (pm : PacketManager) : List RecentOutgoingPacket :=
  pm.recentOutgoingPackets.filter pm.newlyAcked

/-- What the congestion controller is told in the acknowledgement stage. -/
def toldAcked (p : Packet) (pm : PacketManager) : List ConctlCall :=
  .packetAcknowledged ⟨p.seq, p.streamId⟩ ::
    (ackedEntries pm).map fun opkt => .packetAcknowledged opkt.pkt

/-- What the acknowledgement stage does to the accounts: `pm` is the packet's
manager, with the acknowledgement. -/
structure Settles (now : Time) (p : Packet) (pm : PacketManager) (c c' : Controller) : Prop where
  streams : c'.outgoingStreams =
    (c.setManager p.managerIndex.toNat (pm.markAcked now)).outgoingStreams
  told : c'.conctlCalls = c.conctlCalls ++ toldAcked p pm
  losses : c'.losses = { c.losses with
    sendLosses := c.sendLosses - UInt32.ofNat ((ackedEntries pm).countP RecentOutgoingPacket.lost)
    recovered := c.recovered + (ackedEntries pm).countP RecentOutgoingPacket.lost }

theorem processAck_settles {pm : PacketManager} {hasSender : Bool}
    (h : c.processAck now p pm hasSender = .ok c') :
    Settles now p (pm.ackLocal p.ackSeq p.ackMask) c c' := by
  unfold processAck at h
  dsimp only at h
  split at h
  · cases h
  · rw [← pure_eq_ok.mp h]
    split <;> exact ⟨rfl, rfl, rfl⟩

theorem Settles.recents {s : OutgoingStream} {pm : PacketManager}
    (hs : c.outgoingStreams[p.managerIndex.toNat]? = some s) (h : Settles now p pm c c') (j : ℕ) :
    c'.recents j = if p.managerIndex.toNat = j then (pm.markAcked now).recentOutgoingPackets
      else c.recents j := by
  rw [← recents_setManager hs]
  unfold Transport.recents
  rw [h.streams]

/-- **A packet that is not a duplicate**: sending, the acknowledgement, sending. -/
theorem processFreshPacket_settles (h : c.processFreshPacket env now p src = .ok c') :
    ∃ c₁ c₂ s, OnlySends c c₁ ∧ c₁.outgoingStreams[p.managerIndex.toNat]? = some s ∧
      ((s.packetManager.takesAck p.ackSeq = false ∧ c₂ = c₁) ∨
        (s.packetManager.takesAck p.ackSeq = true ∧
          Settles now p (s.packetManager.ackLocal p.ackSeq p.ackMask) c₁ c₂)) ∧
      OnlySends c₂ c' := by
  obtain ⟨c₁, c₂, s, hextras, hs, hack, hrest⟩ := (onlySends_handlers env).processFreshPacket h
  refine ⟨c₁, c₂, s, processExtras_onlySends hextras, hs, ?_, hrest⟩
  rcases hack with ⟨htakes, rfl⟩ | ⟨htakes, hasSender, hack⟩
  · exact .inl ⟨htakes, rfl⟩
  · exact .inr ⟨htakes, processAck_settles hack⟩

theorem ackRemotePacket_recents (pm : PacketManager) (p : Packet) :
    (pm.ackRemotePacket p).2.recentOutgoingPackets = pm.recentOutgoingPackets ∧
      (pm.ackRemotePacket p).2.lastAckedSeq = pm.lastAckedSeq := by
  unfold PacketManager.ackRemotePacket
  split
  · split
    · obtain ⟨head, mask, h⟩ := PacketManager.ackRemoteSeq_window pm p.legacySeq
      exact h ▸ ⟨rfl, rfl⟩
    · exact ⟨rfl, rfl⟩
  · obtain ⟨head, mask, h⟩ := PacketManager.ackRemoteSeq_window pm p.seq
    exact h ▸ ⟨rfl, rfl⟩

theorem arrived_onlySends {s : OutgoingStream} (hs : c.outgoingStreams[p.managerIndex.toNat]? = some s) :
    OnlySends c (c.arrived s p) := by
  obtain ⟨hrecents, hacked⟩ := ackRemotePacket_recents s.packetManager p
  exact setManager_onlySends hs hrecents hacked

/-- A packet: it does nothing, or is sending, the acknowledgement, and sending. -/
theorem processIncomingPacket_settles (h : c.processIncomingPacket env now p src = .ok c') :
    c' = c ∨ (c.accepts p = true ∧ ∃ c₁ c₂ s, OnlySends c c₁ ∧
      c₁.outgoingStreams[p.managerIndex.toNat]? = some s ∧
      ((s.packetManager.takesAck p.ackSeq = false ∧ c₂ = c₁) ∨
        (s.packetManager.takesAck p.ackSeq = true ∧
          Settles now p (s.packetManager.ackLocal p.ackSeq p.ackMask) c₁ c₂)) ∧
      OnlySends c₂ c') := by
  obtain ⟨s, hs, ⟨-, rfl⟩ | ⟨haccepts, h⟩⟩ := processIncomingPacket_ok h
  · exact .inl rfl
  · obtain ⟨c₁, c₂, t, hextras, ht, hack, hrest⟩ := processFreshPacket_settles h
    exact .inr ⟨haccepts, c₁, c₂, t, (arrived_onlySends hs).trans hextras, ht, hack, hrest⟩

/-- Every event but a packet. -/
theorem step_onlySends {e : Time × Event} (hpacket : ∀ p src, e.2 ≠ .packet p src)
    (h : c.step env e = .ok c') : OnlySends c c' := by
  exact (onlySends_handlers env).handle hpacket h

/-- Nothing was sent yet. -/
theorem sampleCall_recents (i : ℕ) : (sampleCall {}).recents i = [] := by
  match i with
  | 0 => rfl
  | 1 => rfl
  | _ + 2 => rfl

end Controller

end Tgvoip
