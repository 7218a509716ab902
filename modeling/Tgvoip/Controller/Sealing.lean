import Tgvoip.Controller.Bookkeeping
import Tgvoip.Controller.Datagrams

/-!
# Sealing — what waits to be sent is a prepared packet, sealed

Between `PreparePacket` and the socket a packet is bytes, in one of three
queues. `Sealing` says that these bytes are always those of a packet this
controller prepared, under a version and for an endpoint it had then, and
that MTProto2 stays in use. Every handler and every timer of the message
thread keeps it, in the new format.
-/

namespace Tgvoip

open ByteReader Fallible

/-- What a controller has prepared and sealed. -/
structure SealHistory where
  callID : Vector UInt8 16
  prepared : List Packet
  sealings : List (VersionInfo × Endpoint)

namespace SealHistory

/-- What `PreparePacket` puts in front for an endpoint. -/
def header (callID : Vector UInt8 16) (s : VersionInfo × Endpoint) : Bytes :=
  if s.2.isReflector then s.2.peerTag else if (s.1.writes s.2).callID then callID.toList else []

/-- The bytes are those of the packet that is carried, sealed. -/
def SealedAs (env : Platform) (callID : Vector UInt8 16) (s : VersionInfo × Endpoint)
    (pkt : PendingOutgoingPacket) : Prop :=
  pkt.packet = header callID s ++ env.encryptPacket s.1 (pkt.carried.serialize s.1)

def Sealed (env : Platform) (h : SealHistory) (pkt : PendingOutgoingPacket) : Prop :=
  pkt.carried ∈ h.prepared ∧ ∃ s ∈ h.sealings, SealedAs env h.callID s pkt

/-- Nothing is forgotten. -/
structure Extends (h h' : SealHistory) : Prop where
  callID : h'.callID = h.callID
  prepared : h.prepared ⊆ h'.prepared
  sealings : h.sealings ⊆ h'.sealings

theorem Sealed.extends {env : Platform} {h h' : SealHistory} {pkt : PendingOutgoingPacket}
    (hpkt : h.Sealed env pkt) (hext : h.Extends h') : h'.Sealed env pkt := by
  obtain ⟨hcarried, s, hs, hsealed⟩ := hpkt
  exact ⟨hext.prepared hcarried, s, hext.sealings hs, hext.callID ▸ hsealed⟩

end SealHistory

/-- The queues, and what is known of their contents. -/
structure Speech where
  connectionMaxLayer : Int
  useMTProto2 : Bool
  history : SealHistory
  reliablePackets : List ReliableOutgoingPacket
  sendQueue : List PendingOutgoingPacket
  rawSendQueue : List RawPendingOutgoingPacket

namespace Controller

def history (c : Controller) : SealHistory where
  callID := c.callID
  prepared := c.preparedPackets
  sealings := c.sealings

def speech (c : Controller) : Speech where
  connectionMaxLayer := c.ver.connectionMaxLayer
  useMTProto2 := c.useMTProto2
  history := c.history
  reliablePackets := c.reliablePackets
  sendQueue := c.sendQueue
  rawSendQueue := c.rawSendQueue

end Controller

/-- **All that waits is sealed.** -/
structure Speech.Sound (env : Platform) (callID : Vector UInt8 16) (s : Speech) : Prop where
  layer : 110 ≤ s.connectionMaxLayer
  useMTProto2 : s.useMTProto2 = true
  callID : s.history.callID = callID
  reliable : ∀ q ∈ s.reliablePackets, s.history.Sealed env q.pkt
  queue : ∀ pkt ∈ s.sendQueue, s.history.Sealed env pkt
  raw : ∀ r ∈ s.rawSendQueue, s.history.Sealed env r.pkt

namespace Controller

/-- A controller whose queues are sound. -/
def Sealing (env : Platform) (callID : Vector UInt8 16) (c : Controller) : Prop :=
  c.speech.Sound env callID

variable {env : Platform} {callID : Vector UInt8 16} {c c' c₁ : Controller} {now : Time}
  {src : Int64} {p : Packet}

theorem Sealing.same (hc : c.Sealing env callID) (h : c'.speech = c.speech) :
    c'.Sealing env callID := by
  unfold Sealing
  rwa [h]

theorem Sealing.isNew (hc : c.Sealing env callID) : c.ver.isNew = true := by
  have hlayer : 110 ≤ c.ver.connectionMaxLayer := hc.layer
  simp [VersionInfo.isNew, hlayer]

/-! ## Sending -/

theorem transmit_sealing {pkt : PendingOutgoingPacket} {e : Endpoint} (hc : c.Sealing env callID)
    (hpkt : c.history.Sealed env pkt) (h : c.transmit now pkt e = .ok c') :
    c'.Sealing env callID ∧ c'.history = c.history := by
  obtain ⟨s, pm, -, -, -, rfl⟩ := transmit_ok h
  refine ⟨{ hc with raw := ?_ }, rfl⟩
  intro r hr
  rcases List.mem_append.mp hr with hr | hr
  · exact hc.raw r hr
  · obtain rfl := List.mem_singleton.mp hr
    exact hpkt

theorem connectIfNeeded_speech (key : Int64) (e : Endpoint) :
    (c.connectIfNeeded key e).speech = c.speech := by
  unfold connectIfNeeded
  split <;> rfl

theorem sendOrEnqueuePacket_sealing {pkt : PendingOutgoingPacket} {enqueue : Bool}
    (hc : c.Sealing env callID) (hpkt : c.history.Sealed env pkt)
    (h : c.sendOrEnqueuePacket now pkt enqueue = .ok c') :
    c'.Sealing env callID ∧ c'.history = c.history := by
  obtain ⟨e, -, hcases⟩ := sendOrEnqueuePacket_ok h
  have hsame := c.connectIfNeeded_speech (c.endpointKey pkt.endpoint) e
  have hconn := hc.same hsame
  have hhistory := congrArg Speech.history hsame
  change (c.connectIfNeeded (c.endpointKey pkt.endpoint) e).history = c.history at hhistory
  obtain ⟨-, -, h⟩ | ⟨-, rfl | rfl⟩ := hcases
  · obtain ⟨hsent, hkept⟩ := transmit_sealing hconn (hhistory ▸ hpkt) h
    exact ⟨hsent, hkept.trans hhistory⟩
  · exact ⟨hconn, hhistory⟩
  · refine ⟨{ hconn with queue := ?_ }, hhistory⟩
    intro q hq
    rcases List.mem_append.mp hq with hq | hq
    · exact hconn.queue q hq
    · obtain rfl := List.mem_singleton.mp hq
      show (c.connectIfNeeded _ e).history.Sealed env q
      rw [hhistory]
      exact hpkt

theorem sendPacketReliably_sealing {pkt : PendingOutgoingPacket} {retryInterval timeout : Time}
    {tries : UInt8} (hc : c.Sealing env callID) (hpkt : c.history.Sealed env pkt) :
    (c.sendPacketReliably pkt retryInterval timeout tries).Sealing env callID := by
  have hreliable : ∀ entry : ReliableOutgoingPacket, entry.pkt = pkt →
      { c with reliablePackets := c.reliablePackets ++ [entry] }.Sealing env callID := by
    rintro entry rfl
    refine { hc with reliable := ?_ }
    intro q hq
    rcases List.mem_append.mp hq with hq | hq
    · exact hc.reliable q hq
    · obtain rfl := List.mem_singleton.mp hq
      exact hpkt
  unfold sendPacketReliably
  dsimp only
  split
  · exact hreliable _ rfl
  · exact hreliable _ rfl

/-- A packet that is prepared and sealed is known from then on. -/
theorem prepareNew_sealing (hc : c.Sealing env callID) (p : Packet) (endpoint : Endpoint)
    (stream : OutgoingStream) (pktInfo : CongestionControlPacket) :
    let packet := (c.prepareNew p endpoint.id stream).1
    let c' := (c.prepareNew p endpoint.id stream).2.noteSealing endpoint
    c'.Sealing env callID ∧ c'.history.Sealed env
      (c'.preparePacket env (packet.serialize c'.ver) endpoint pktInfo packet) := by
  intro packet c'
  have hext : c.history.Extends c'.history :=
    ⟨rfl, fun _ h => List.mem_append_left _ h, fun _ h => List.mem_append_left _ h⟩
  refine ⟨⟨hc.layer, hc.useMTProto2, hc.callID, fun q hq => (hc.reliable q hq).extends hext,
    fun q hq => (hc.queue q hq).extends hext, fun r hr => (hc.raw r hr).extends hext⟩, ?_⟩
  refine ⟨List.mem_append_right _ List.mem_cons_self, (c'.ver, endpoint),
    List.mem_append_right _ List.mem_cons_self, ?_⟩
  have hsome : ¬ (packet.serialize c'.ver).isEmpty = true := by
    rw [Packet.serialize]
    simp
  have hbytes := preparePacket_eq_writes env c' (packet.serialize c'.ver) endpoint pktInfo packet
  rw [if_neg hsome] at hbytes
  exact hbytes

theorem sendPacket_sealing {pkt : OutgoingPacket} {retryInterval timeout : Time} {tries : UInt8}
    (hc : c.Sealing env callID)
    (h : c.sendPacket env now pkt retryInterval timeout tries = .ok c') :
    c'.Sealing env callID := by
  unfold sendPacket at h
  obtain ⟨endpoint, -, h⟩ := bind_eq_ok.mp h
  obtain ⟨stream, -, h⟩ := bind_eq_ok.mp h
  rw [if_pos hc.isNew] at h
  unfold sendNewPacket at h
  dsimp only at h
  obtain ⟨hsealing, hsealed⟩ := prepareNew_sealing hc pkt.packet endpoint stream
    ⟨(c.prepareNew pkt.packet endpoint.id stream).1.seq,
      (c.prepareNew pkt.packet endpoint.id stream).1.streamId⟩
  split at h
  · rw [← pure_eq_ok.mp h]
    exact sendPacketReliably_sealing hsealing hsealed
  · exact (sendOrEnqueuePacket_sealing hsealing hsealed h).1

theorem sendExtra_speech (extra : WrappedExtra) (endpointId : Int64) :
    (c.sendExtra extra endpointId).speech = c.speech := by
  unfold sendExtra
  split <;> rfl

theorem answer_sealing {reply : Extra} (hc : c.Sealing env callID)
    (h : c.answer env now reply = .ok c') : c'.Sealing env callID :=
  sendPacket_sealing (hc.same (sendExtra_speech ..)) h

theorem sendInit_sealing (hc : c.Sealing env callID) (h : c.sendInit env now = .ok c') :
    c'.Sealing env callID := by
  unfold sendInit at h
  obtain ⟨signaling, -, h⟩ := bind_eq_ok.mp h
  obtain ⟨c₁, h₁, h⟩ := bind_eq_ok.mp h
  have hloop : c₁.Sealing env callID := by
    refine foldlM_invariant (I := Sealing env callID) ?_ ?_ h₁
    · intro c e _ c' hc h
      unfold sendInitTo at h
      split at h
      · exact pure_eq_ok.mp h ▸ hc
      · exact sendPacket_sealing hc h
    · exact hc.same (sendExtra_speech ..)
  rw [← pure_eq_ok.mp h]
  split
  · exact hloop.same rfl
  · exact hloop

/-! ## The queues -/

theorem updateReliablePackets_sealing (hc : c.Sealing env callID)
    (h : c.updateReliablePackets now = .ok c') : c'.Sealing env callID := by
  have hupdated : ∀ x ∈ c.reliablePackets.filterMap (·.update now),
      c.history.Sealed env x.1.pkt := by
    rintro ⟨q', due⟩ hx
    obtain ⟨q, hq, hupdate⟩ := List.mem_filterMap.mp hx
    exact update_pkt hupdate ▸ hc.reliable q hq
  unfold updateReliablePackets at h
  dsimp only at h
  refine (foldlM_invariant (I := fun c₁ : Controller => c₁.Sealing env callID ∧
    c₁.history = c.history) ?_ ?_ h).1
  · rintro c₁ q hq c₂ ⟨hc₁, hhistory⟩ h
    obtain ⟨x, hx, rfl⟩ := List.mem_map.mp hq
    have hsealed := hupdated x (List.mem_of_mem_filter hx)
    obtain ⟨hc₂, hkept⟩ := sendOrEnqueuePacket_sealing hc₁ (hhistory ▸ hsealed) h
    exact ⟨hc₂, hkept.trans hhistory⟩
  · refine ⟨{ hc with reliable := ?_ }, rfl⟩
    intro q hq
    obtain ⟨x, hx, rfl⟩ := List.mem_map.mp hq
    exact hupdated x hx

theorem trySendQueued_sealing {queue kept : List PendingOutgoingPacket} (hc : c.Sealing env callID)
    (hqueue : ∀ pkt ∈ queue, c.history.Sealed env pkt)
    (h : trySendQueued now c queue = .ok (c', kept)) :
    c'.Sealing env callID ∧ c'.history = c.history ∧ kept ⊆ queue := by
  induction queue generalizing c kept with
  | nil =>
      cases pure_eq_ok.mp h
      exact ⟨hc, rfl, fun _ h => h⟩
  | cons pkt queue ih =>
      have hpkt := hqueue pkt List.mem_cons_self
      have hrest := fun q hq => hqueue q (List.mem_cons_of_mem pkt hq)
      rw [trySendQueued] at h
      split at h
      · split at h
        · obtain ⟨hc', hhistory, hkept⟩ := ih hc hrest h
          exact ⟨hc', hhistory, fun _ hq => List.mem_cons_of_mem _ (hkept hq)⟩
        · cases h
      · split at h
        · obtain ⟨c₁, h₁, h⟩ := bind_eq_ok.mp h
          obtain ⟨hc₁, hhistory₁⟩ := sendOrEnqueuePacket_sealing hc hpkt h₁
          obtain ⟨hc', hhistory, hkept⟩ := ih hc₁ (hhistory₁ ▸ hrest) h
          exact ⟨hc', hhistory.trans hhistory₁, fun _ hq => List.mem_cons_of_mem _ (hkept hq)⟩
        · obtain ⟨⟨c₁, rest⟩, h₁, h⟩ := bind_eq_ok.mp h
          cases pure_eq_ok.mp h
          obtain ⟨hc', hhistory, hkept⟩ := ih hc hrest h₁
          exact ⟨hc', hhistory, List.cons_subset_cons _ hkept⟩

theorem trySendOutgoingPackets_sealing (hc : c.Sealing env callID)
    (h : c.trySendOutgoingPackets now = .ok c') : c'.Sealing env callID := by
  obtain ⟨⟨c₁, rest⟩, h₁, h⟩ := bind_eq_ok.mp h
  obtain ⟨hc₁, hhistory, hkept⟩ := trySendQueued_sealing hc hc.queue h₁
  rw [← pure_eq_ok.mp h]
  refine { hc₁ with queue := ?_ }
  intro pkt hpkt
  show c₁.history.Sealed env pkt
  rw [hhistory]
  exact hc.queue pkt (hkept hpkt)

/-! ## The handlers of the extras -/

theorem ite_speech {q : Prop} [Decidable q] (h : c'.speech = c.speech) :
    (if q then c' else c).speech = c.speech := by
  split
  · exact h
  · rfl

theorem sendPublicEndpointsRequest_speech : c.sendPublicEndpointsRequest.speech = c.speech := by
  unfold sendPublicEndpointsRequest
  split
  · rfl
  · dsimp only
    split <;> split <;> rfl

theorem startAudio_speech : (c.startAudio env).speech = c.speech := by
  unfold startAudio
  dsimp only
  split <;> rfl

theorem learnCapabilities_speech (d : ExtraInit) : (c.learnCapabilities d).speech = c.speech := by
  unfold learnCapabilities
  dsimp only
  split <;> rfl

theorem addPeerDecoder_speech (decoder : UInt32) : (c.addPeerDecoder env decoder).speech = c.speech := by
  unfold addPeerDecoder setupOutgoingVideoStream
  split <;> rfl

theorem learnDecoders_speech (d : ExtraInit) : (c.learnDecoders env d).speech = c.speech := by
  unfold learnDecoders
  apply ite_speech
  induction d.decoders generalizing c with
  | nil => rfl
  | cons decoder decoders ih => exact ih.trans (addPeerDecoder_speech decoder)

theorem adoptEndpoint_speech (e : Endpoint) : (c.adoptEndpoint e).speech = c.speech := by
  unfold adoptEndpoint
  dsimp only
  split <;> rfl

theorem processInit_sealing {d : ExtraInit} (hc : c.Sealing env callID)
    (h : c.processInit env now d src = .ok c') : c'.Sealing env callID := by
  unfold processInit at h
  dsimp only at h
  have hver : (if (!c.receivedInit) = true then
      { c with ver := { c.ver with peerVersion := d.peerVersion.toInt32.toInt } } else c).speech =
      c.speech := ite_speech rfl
  split at h
  · rw [← pure_eq_ok.mp h]
    exact hc.same hver
  · obtain ⟨c₂, hanswer, h⟩ := bind_eq_ok.mp h
    obtain ⟨e, -, h⟩ := bind_eq_ok.mp h
    rw [← pure_eq_ok.mp h]
    have hlearn : ∀ c : Controller, ((c.learnCapabilities d).learnDecoders env d).speech = c.speech :=
      fun c => (learnDecoders_speech d).trans (learnCapabilities_speech d)
    have hc₂ := answer_sealing (hc.same ((ite_speech (hlearn _)).trans hver)) hanswer
    have hadopted : (if (!c.receivedInit) = true then c₂.adoptEndpoint e else c₂).speech =
        c₂.speech := ite_speech (adoptEndpoint_speech e)
    exact hc₂.same ((ite_speech startAudio_speech).trans hadopted)

/-- MTProto2 is not given up. -/
theorem processInitAck_sealing (hc : c.Sealing env callID) (d : ExtraInitAck) :
    (c.processInitAck env d).Sealing env callID := by
  have hkept : ∀ v, { c.speech with useMTProto2 := c.useMTProto2 || v } = c.speech := by
    intro v
    have hmt : c.useMTProto2 = true := hc.useMTProto2
    rw [hmt, Bool.true_or, ← hmt]
    rfl
  unfold processInitAck
  split
  · exact hc
  · dsimp only
    split
    · exact hc.same rfl
    · split
      · exact hc.same rfl
      · refine hc.same ((ite_speech sendPublicEndpointsRequest_speech).trans ?_)
        exact (ite_speech startAudio_speech).trans (hkept _)

theorem processNetworkChanged_speech {d : ExtraNetworkChanged}
    (h : c.processNetworkChanged d = .ok c') : c'.speech = c.speech := by
  obtain ⟨c₁, c₂, hcurrent, hasks, hflags⟩ := processNetworkChanged_ok h
  have hleft : c₁.speech = c.speech := by
    rcases hcurrent with rfl | rfl
    · rfl
    · rfl
  have hasked : c₂.speech = c₁.speech := by
    rw [hasks]
    exact ite_speech sendPublicEndpointsRequest_speech
  rcases hflags with rfl | ⟨requested, saving, rfl⟩
  · exact hasked.trans hleft
  · exact hasked.trans hleft

theorem processStreamFlags_speech (d : ExtraStreamFlags) :
    (c.processStreamFlags d).speech = c.speech := by
  unfold processStreamFlags
  split <;> rfl

theorem processLanEndpoint_speech (d : ExtraLanEndpoint) :
    (c.processLanEndpoint d).speech = c.speech := by
  unfold processLanEndpoint
  split
  · rfl
  · dsimp only
    split <;> rfl

theorem processIpv6Endpoint_speech (d : ExtraIpv6Endpoint) :
    (c.processIpv6Endpoint d).speech = c.speech := by
  unfold processIpv6Endpoint
  split
  · rfl
  · dsimp only
    split <;> rfl

theorem processPing_sealing (hc : c.Sealing env callID) (h : c.processPing env now src = .ok c') :
    c'.Sealing env callID := by
  unfold processPing at h
  obtain ⟨e, -, h⟩ := bind_eq_ok.mp h
  split at h
  · exact answer_sealing hc h
  · exact pure_eq_ok.mp h ▸ hc

theorem processPong_sealing {d : ExtraPong} (hc : c.Sealing env callID)
    (h : c.processPong now d src = .ok c') : c'.Sealing env callID := by
  unfold processPong at h
  obtain ⟨e, -, h⟩ := bind_eq_ok.mp h
  split at h
  · exact pure_eq_ok.mp h ▸ hc.same rfl
  · exact pure_eq_ok.mp h ▸ hc

/-- **One extra.** -/
theorem dispatchExtra_sealing {x : Extra} (hc : c.Sealing env callID)
    (h : c.dispatchExtra env now x src = .ok c') : c'.Sealing env callID := by
  cases x with
  | init d => exact processInit_sealing hc h
  | initAck d => exact pure_eq_ok.mp h ▸ processInitAck_sealing hc d
  | streamFlags d => exact pure_eq_ok.mp h ▸ hc.same (processStreamFlags_speech d)
  | streamCsd d => exact pure_eq_ok.mp h ▸ hc.same rfl
  | lanEndpoint d => exact pure_eq_ok.mp h ▸ hc.same (processLanEndpoint_speech d)
  | networkChanged d => exact hc.same (processNetworkChanged_speech h)
  | groupCallKey d => exact pure_eq_ok.mp h ▸ hc.same (ite_speech rfl)
  | groupCallUpgrade => exact pure_eq_ok.mp h ▸ hc.same rfl
  | ipv6Endpoint d => exact pure_eq_ok.mp h ▸ hc.same (processIpv6Endpoint_speech d)
  | ping => exact processPing_sealing hc h
  | pong d => exact processPong_sealing hc h

/-! ## A packet -/

theorem processExtras_sealing {xs : List WrappedExtra} (hc : c.Sealing env callID)
    (h : c.processExtras env now src xs = .ok c') : c'.Sealing env callID :=
  processExtras_rule (I := fun c _ => c.Sealing env callID) (fun _ _ _ hc => hc.same rfl)
    (fun _ _ _ _ hc hx => dispatchExtra_sealing hc hx) hc h

/-- Erasing leaves what is sealed. -/
theorem processAck_sealing {pm : PacketManager} {hasSender : Bool} (hc : c.Sealing env callID)
    (h : c.processAck now p pm hasSender = .ok c') : c'.Sealing env callID := by
  unfold processAck at h
  dsimp only at h
  split at h
  · cases h
  · have hresumed : (if (c.waitingForAcks && pm.lastAckedSeq ≥ c.firstSentPing) = true then
        { c with waitingForAcks := false, dontSendPackets := 10 }.post .resumeSending 1
        else c).speech = c.speech := ite_speech rfl
    have hc₁ := hc.same hresumed
    rw [← pure_eq_ok.mp h]
    exact { hc₁ with reliable := fun q hq => hc₁.reliable q (List.mem_of_mem_filter hq) }

theorem switchToRelay_speech {pm : PacketManager} (h : c.switchToRelay pm src = .ok c') :
    c'.speech = c.speech := by
  unfold switchToRelay at h
  obtain ⟨current, -, h⟩ := bind_eq_ok.mp h
  obtain ⟨e, -, h⟩ := bind_eq_ok.mp h
  split at h
  · rw [← pure_eq_ok.mp h]
    exact ite_speech sendPublicEndpointsRequest_speech
  · exact pure_eq_ok.mp h ▸ rfl

theorem countUnacknowledged_sealing (hc : c.Sealing env callID)
    (h : c.countUnacknowledged env now = .ok c') : c'.Sealing env callID := by
  have hcounted : { c with unacknowledgedIncomingPacketCount :=
      c.unacknowledgedIncomingPacketCount + 1 }.Sealing env callID := hc.same rfl
  unfold countUnacknowledged at h
  dsimp only at h
  split at h
  · exact sendPacket_sealing hcounted h
  · exact pure_eq_ok.mp h ▸ hcounted

theorem noteStreamPacket_speech (h : c.noteStreamPacket p src = .ok c') : c'.speech = c.speech := by
  have hfirst : c.noteFirstStreamPacket.speech = c.speech := by
    unfold noteFirstStreamPacket
    split
    · rfl
    · exact ite_speech rfl
  unfold noteStreamPacket at h
  split at h
  · exact pure_eq_ok.mp h ▸ rfl
  · obtain ⟨e, -, h⟩ := bind_eq_ok.mp h
    rw [← pure_eq_ok.mp h]
    split
    · exact hfirst
    · exact hfirst

theorem processIncomingPacket_sealing (hc : c.Sealing env callID)
    (h : c.processIncomingPacket env now p src = .ok c') : c'.Sealing env callID := by
  obtain ⟨s, -, ⟨-, rfl⟩ | ⟨-, h⟩⟩ := processIncomingPacket_ok h
  · exact hc
  · unfold processFreshPacket at h
    obtain ⟨c₁, hextras, h⟩ := bind_eq_ok.mp h
    have harrived : (c.arrived s p).Sealing env callID := hc.same rfl
    have hc₁ := processExtras_sealing harrived hextras
    obtain ⟨stream, -, h⟩ := bind_eq_ok.mp h
    obtain ⟨sender, -, h⟩ := bind_eq_ok.mp h
    have hrest : ∀ c₂ : Controller, c₂.Sealing env callID → (do
        let stream ← c₂.outgoingStream p.managerIndex.toNat
        let c ← c₂.switchToRelay stream.packetManager src
        let c ← c.countUnacknowledged env now
        c.noteStreamPacket p src) = (.ok c' : Except Fault Controller) → c'.Sealing env callID := by
      intro c₂ hc₂ h
      obtain ⟨t, -, h⟩ := bind_eq_ok.mp h
      obtain ⟨c₃, hrelay, h⟩ := bind_eq_ok.mp h
      obtain ⟨c₄, hcount, h⟩ := bind_eq_ok.mp h
      have hc₄ := countUnacknowledged_sealing (hc₂.same (switchToRelay_speech hrelay)) hcount
      exact hc₄.same (noteStreamPacket_speech h)
    split at h
    · obtain ⟨c₂, hack, h⟩ := bind_eq_ok.mp h
      exact hrest c₂ (processAck_sealing hc₁ hack) h
    · exact hrest c₁ hc₁ h

/-- **Every event of `Controller.step`.** -/
theorem handle_sealing {e : Event} (hc : c.Sealing env callID) (h : c.handle env now e = .ok c') :
    c'.Sealing env callID := by
  cases e with
  | packet p src => exact processIncomingPacket_sealing hc h
  | sendPacket pkt retryInterval timeout tries => exact sendPacket_sealing hc h
  | sendNopPacket endpointId => exact sendPacket_sealing hc h
  | sendExtra x endpointId => exact pure_eq_ok.mp h ▸ hc.same (sendExtra_speech ..)
  | sendInit => exact sendInit_sealing hc h
  | updateReliablePackets => exact updateReliablePackets_sealing hc h
  | trySendOutgoingPackets => exact trySendOutgoingPackets_sealing hc h
  | udpSocket ready => exact pure_eq_ok.mp h ▸ hc.same rfl
  | tcpSocket key ready => exact pure_eq_ok.mp h ▸ hc.same rfl

end Controller

end Tgvoip
