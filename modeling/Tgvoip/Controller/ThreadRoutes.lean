import Tgvoip.Controller.Routing
import Tgvoip.Controller.EndpointTable

/-!
# ThreadRoutes — the walks of the message thread

Every handler is a `Walk`, but for the two that erase the LAN endpoint: the
peer info of a relay, and the handover to another network. Of these it is
shown what they do besides (`PeerInfo`, `Handover`).
-/

namespace Tgvoip

open ByteReader Fallible Routes

namespace Controller

variable {env : Platform} {c c' c₁ : Controller} {now : Time} {src : Int64} {p : Packet} {A : Prop}

/-! ## The extras -/

theorem sendPublicEndpointsRequest_routes : c.sendPublicEndpointsRequest.routes = c.routes := by
  unfold sendPublicEndpointsRequest
  split
  · rfl
  · dsimp only
    split <;> split <;> rfl

theorem startAudio_routes : (c.startAudio env).routes = c.routes := by
  unfold startAudio
  dsimp only
  split <;> rfl

theorem learnCapabilities_routes (d : ExtraInit) : (c.learnCapabilities d).routes = c.routes := by
  unfold learnCapabilities
  dsimp only
  split <;> rfl

theorem learnDecoders_routes (d : ExtraInit) : (c.learnDecoders env d).routes = c.routes := by
  have hloop : ∀ (decoders : List UInt32) (c : Controller),
      (decoders.foldl (·.addPeerDecoder env) c).routes = c.routes := by
    intro decoders
    induction decoders with
    | nil =>
        intro c
        rfl
    | cons decoder decoders ih =>
        intro c
        rw [List.foldl_cons, ih]
        unfold addPeerDecoder setupOutgoingVideoStream
        split <;> rfl
  unfold learnDecoders
  split
  · exact hloop d.decoders c
  · rfl

theorem adoptEndpoint_routes (e : Endpoint) : (c.adoptEndpoint e).routes = c.routes := by
  unfold adoptEndpoint
  exact ite_routes (c := { c with receivedInit := true }) rfl

theorem processInit_walk (d : ExtraInit) : Walk A c.routes routes (c.processInit env now d src) := by
  unfold processInit
  dsimp only
  have hver : Reach A c.routes (if (!c.receivedInit) = true then
      { c with ver := { c.ver with peerVersion := d.peerVersion.toInt32.toInt } } else c).routes :=
    .of_eq (ite_routes rfl)
  refine Walk.after hver ?_
  generalize (if (!c.receivedInit) = true then
    { c with ver := { c.ver with peerVersion := d.peerVersion.toInt32.toInt } } else c) = c₁
  by_cases hcompatible : (!compatibleInit d) = true
  · rw [if_pos hcompatible]
    exact .pure (.of_eq rfl)
  · rw [if_neg hcompatible]
    have hlearned : Reach A c₁.routes (if (!c.receivedInit) = true then
        (c₁.learnCapabilities d).learnDecoders env d else c₁).routes :=
      .of_eq (ite_routes ((learnDecoders_routes d).trans (learnCapabilities_routes d)))
    refine Walk.after hlearned ?_
    refine then_walk (answer_walk _) ?_
    intro c₂ _
    refine Walk.lookup (endpointAt_ne_null _) ?_
    intro e _
    refine .pure (.of_eq ?_)
    exact (ite_routes startAudio_routes).trans (ite_routes (adoptEndpoint_routes e))

theorem processInitAck_routes (d : ExtraInitAck) : (c.processInitAck env d).routes = c.routes := by
  unfold processInitAck
  split
  · rfl
  · dsimp only
    split
    · rfl
    · split
      · rfl
      · refine (ite_routes sendPublicEndpointsRequest_routes).trans ?_
        exact ite_routes startAudio_routes

theorem processStreamFlags_routes (d : ExtraStreamFlags) :
    (c.processStreamFlags d).routes = c.routes := by
  unfold processStreamFlags
  split <;> rfl

theorem processGroupCallKey_routes : c.processGroupCallKey.routes = c.routes :=
  ite_routes rfl

theorem processLanEndpoint_reach (d : ExtraLanEndpoint) :
    Reach A c.routes (c.processLanEndpoint d).routes := by
  unfold processLanEndpoint
  split
  · exact .refl _
  · have hcurrent : Reach A c.routes (if c.currentEndpoint = EndpointID.lanv4 then
        { c with currentEndpoint := c.preferredRelay } else c).routes := .of_eq (ite_routes rfl)
    refine hcurrent.trans (.of_table (.single ?_) rfl)
    exact .insert _ { id := EndpointID.lanv4, port := d.port, address := .ipv4 d.address, type := .udpP2PLan } ⟨rfl, rfl⟩

theorem processIpv6Endpoint_reach (d : ExtraIpv6Endpoint) :
    Reach A c.routes (c.processIpv6Endpoint d).routes := by
  unfold processIpv6Endpoint
  split
  · exact .refl _
  · let ep : Endpoint :=
      { id := EndpointID.p2pv6, port := d.port, v6address := .ipv6 d.address, type := .udpP2PInet }
    have hinsert : TableSteps c.endpoints (c.endpoints.set ep.id ep) :=
      .single (.insert c.endpoints ep ⟨rfl, rfl⟩)
    dsimp only
    split
    · exact .of_table hinsert rfl
    · exact .of_table hinsert rfl

theorem sweep_reach {f : Int64 × Endpoint → Endpoint} (hid : ∀ x, (f x).id = x.2.id)
    (hping : ∀ x, x.2.Unmeasured → (f x).Unmeasured) :
    Reach A c.routes
      { c with endpoints := c.endpoints.map fun (x : Int64 × Endpoint) => (x.1, f x) }.routes :=
  .of_table (.single (.sweep c.endpoints f hid hping)) rfl

theorem resetPingStats_reach :
    Reach A c.routes { c with
      endpoints := c.endpoints.map fun (e : Int64 × Endpoint) => (e.1, e.2.resetPingStats) }.routes :=
  sweep_reach (f := fun x => x.2.resetPingStats) (fun _ => rfl) fun _ h => ⟨h.seq, h.samples⟩

theorem processNetworkChanged_walk (d : ExtraNetworkChanged) :
    Walk A c.routes routes (c.processNetworkChanged d) := by
  refine Walk.lookup (endpointAt_ne_null _) ?_
  intro current _
  let c₁ : Controller := { c with wasNetworkHandover := true }
  let c₂ := if current.isReflector then c₁ else { c₁ with currentEndpoint := c₁.preferredRelay }
  let c₃ := if c₂.allowP2p then c₂.sendPublicEndpointsRequest else c₂
  have hasked : Reach A c.routes c₃.routes := by
    refine .of_eq ((ite_routes sendPublicEndpointsRequest_routes).trans ?_)
    show (if current.isReflector then c₁ else _).routes = _
    split <;> rfl
  refine Walk.after hasked ?_
  show Walk A c₃.routes routes (if c₃.ver.peerVersion < 2 then pure c₃ else _)
  by_cases hold : c₃.ver.peerVersion < 2
  · rw [if_pos hold]
    exact .pure (.refl _)
  · rw [if_neg hold]
    exact .pure (resetPingStats_reach (c := c₃))

theorem processPing_walk : Walk A c.routes routes (c.processPing env now src) := by
  refine Walk.lookup (endpointAt_ne_null _) ?_
  intro e _
  split
  · exact answer_walk _
  · exact .pure (.refl _)

/-- A pong is not taken for an answer where no ping was numbered. -/
theorem processPong_walk (d : ExtraPong) : Walk A c.routes routes (c.processPong now d src) := by
  refine Walk.lookup (endpointAt_ne_null _) ?_
  intro e he
  rw [endpointAt_eq_ok] at he
  dsimp only
  split
  · rename_i hanswers
    refine .pure (.of_table (.single (.touch c.endpoints he ?_ ?_)) rfl)
    · rfl
    · intro hunmeasured
      simp only [ne_eq, Bool.and_eq_true, decide_eq_true_eq, beq_iff_eq] at hanswers
      exact absurd (hanswers.2.trans hunmeasured.seq) hanswers.1
  · exact .pure (.refl _)

theorem dispatchExtra_walk (x : Extra) :
    Walk A c.routes routes (c.dispatchExtra env now x src) := by
  cases x with
  | init d => exact processInit_walk d
  | initAck d => exact .pure (.of_eq (processInitAck_routes d))
  | streamFlags d => exact .pure (.of_eq (processStreamFlags_routes d))
  | streamCsd d => exact .pure (.of_eq rfl)
  | lanEndpoint d => exact .pure (processLanEndpoint_reach d)
  | networkChanged d => exact processNetworkChanged_walk d
  | groupCallKey d => exact .pure (.of_eq processGroupCallKey_routes)
  | groupCallUpgrade => exact .pure (.of_eq rfl)
  | ipv6Endpoint d => exact .pure (processIpv6Endpoint_reach d)
  | ping => exact processPing_walk
  | pong d => exact processPong_walk d

theorem processExtras_walk (xs : List WrappedExtra) :
    Walk A c.routes routes (c.processExtras env now src xs) := by
  refine Walk.foldlM ?_
  intro c₁ x _ _
  unfold processExtraData
  split
  · exact .pure (.refl _)
  · have hnoted : Reach A c₁.routes (c₁.noteReceived env x).routes := .of_eq rfl
    exact Walk.after hnoted (dispatchExtra_walk x.d)

/-! ## The packet -/

theorem processAck_walk (pm : PacketManager) (hasSender : Bool) :
    Walk A c.routes routes (c.processAck now p pm hasSender) := by
  refine ⟨?_, ?_⟩
  · intro c' h
    refine .of_waiting (congrArg Bearings.endpoints (processAck_bearings h)) ?_
    obtain ⟨c₀, htransport, -, rfl⟩ := processAck_ok h
    intro _ _ id hid
    -- acknowledged packets wait no longer
    obtain ⟨q, hq, rfl⟩ := List.mem_map.mp hid
    refine .inl ?_
    show _ ∈ c.toTransport.reliablePackets.map _
    rw [← htransport]
    exact List.mem_map.mpr ⟨q, List.mem_of_mem_filter hq, rfl⟩
  · intro _ h
    unfold processAck at h
    dsimp only at h
    split at h <;> cases h

theorem switchToRelay_walk (pm : PacketManager) :
    Walk A c.routes routes (c.switchToRelay pm src) := by
  refine Walk.lookup (endpointAt_ne_null _) ?_
  intro current hcurrent
  refine Walk.lookup (endpointAt_ne_null _) ?_
  intro e he
  rw [endpointAt_eq_ok] at hcurrent he
  split
  · have hwrite : Reach A c.routes { c with
        endpoints := c.endpoints.set c.currentEndpoint e, currentEndpoint := e.id }.routes :=
      .of_table (.single (.overwrite c.endpoints ⟨current, hcurrent⟩ he)) rfl
    exact .pure (hwrite.trans (.of_eq (ite_routes sendPublicEndpointsRequest_routes)))
  · exact .pure (.refl _)

theorem countUnacknowledged_walk : Walk A c.routes routes (c.countUnacknowledged env now) := by
  unfold countUnacknowledged
  dsimp only
  split
  · have hcounted : Reach A c.routes { c with
        unacknowledgedIncomingPacketCount := c.unacknowledgedIncomingPacketCount + 1 }.routes :=
      .of_eq rfl
    exact Walk.after hcounted sendNopPacket_walk
  · exact .pure (.of_eq rfl)

theorem noteStreamPacket_walk : Walk A c.routes routes (c.noteStreamPacket p src) := by
  have hnote : c.noteFirstStreamPacket.routes = c.routes := by
    unfold noteFirstStreamPacket
    split
    · rfl
    · exact ite_routes rfl
  unfold noteStreamPacket
  split
  · exact .pure (.refl _)
  · refine Walk.lookup (endpointAt_ne_null _) ?_
    intro e _
    refine .pure (.of_eq ?_)
    split
    · exact hnote
    · exact hnote

theorem beforeSwitch_walk :
    Walk A c.routes (fun r : Controller × PacketManager => r.1.routes)
      (c.beforeSwitch env now p src) := by
  refine Walk.bind (processExtras_walk p.extraSignaling) ?_
  intro c₁ _
  refine Walk.lookup (outgoingStream_ne_null _) ?_
  intro stream _
  refine Walk.lookup (outgoingStream_ne_null _) ?_
  intro sender _
  have hrest : ∀ c₂ : Controller, Walk A c₂.routes
      (fun r : Controller × PacketManager => r.1.routes) (do
        let stream ← c₂.outgoingStream p.managerIndex.toNat
        pure (c₂, stream.packetManager)) := by
    intro c₂
    refine Walk.lookup (outgoingStream_ne_null _) ?_
    intro stream _
    exact .pure (.refl _)
  dsimp only
  split
  · refine Walk.bind (processAck_walk ..) ?_
    intro c₂ _
    exact hrest c₂
  · exact hrest c₁

theorem processIncomingPacket_walk :
    Walk A c.routes routes (c.processIncomingPacket env now p src) := by
  refine Walk.lookup (outgoingStream_ne_null _) ?_
  intro stream _
  dsimp only
  split
  · have harrived : Reach A c.routes (c.arrived stream p).routes := .of_eq rfl
    refine Walk.after harrived ?_
    show Walk A _ routes ((c.arrived stream p).processFreshPacket env now p src)
    rw [processFreshPacket_eq]
    refine Walk.bind beforeSwitch_walk ?_
    intro r _
    refine then_walk (switchToRelay_walk r.2) ?_
    intro c₃ _
    refine then_walk countUnacknowledged_walk ?_
    intro c₄ _
    exact noteStreamPacket_walk
  · exact .pure (.refl _)

/-! ## Relays -/

theorem resetUdpAvailability_reach : Reach A c.routes c.resetUdpAvailability.routes :=
  sweep_reach (f := fun x => { x.2 with udpPongCount := 0 }) (fun _ => rfl)
    fun _ h => ⟨h.seq, h.samples⟩

/-- Nothing is known yet of a copy. -/
theorem unmeasured_of_map {m : Endpoints} {f : Endpoint → Endpoint} {keep : Int64 × Endpoint → Bool}
    (hf : ∀ e, (f e).Unmeasured) : ∀ e ∈ (m.filter keep).map (fun x => f x.2), e.Unmeasured := by
  intro e he
  obtain ⟨x, -, rfl⟩ := List.mem_map.mp he
  exact hf x.2

theorem addIPv6Relays_reach : Reach A c.routes c.addIPv6Relays.routes := by
  unfold addIPv6Relays
  split
  · exact .of_table (.insertAll c.endpoints (unmeasured_of_map fun _ => ⟨rfl, rfl⟩)) rfl
  · exact .refl _

theorem pointToTCP_walk (relay : Endpoint) : Walk A c.routes routes (c.pointToTCP relay) := by
  unfold pointToTCP
  split
  · refine Walk.lookup (endpointAt_ne_null _) ?_
    intro current _
    exact .pure (.of_eq (ite_routes rfl))
  · exact .pure (.refl _)

theorem addTCPRelays_walk : Walk A c.routes routes c.addTCPRelays := by
  unfold addTCPRelays
  split
  · exact .pure (.refl _)
  · have hreset : Reach A c.routes (if (c.setCurrentEndpointToTCP && !c.useUDP) = true then
        { c with endpoints := c.endpoints.map fun e => (e.1, resetUdpRelay e.2) } else c).routes := by
      split
      · refine sweep_reach (f := fun x => resetUdpRelay x.2) (fun x => resetUdpRelay_id x.2) ?_
        intro x hx
        unfold resetUdpRelay
        split
        · exact ⟨rfl, hx.samples⟩
        · exact hx
      · exact .refl _
    have hloop : Walk A (if (c.setCurrentEndpointToTCP && !c.useUDP) = true then
        { c with endpoints := c.endpoints.map fun e => (e.1, resetUdpRelay e.2) } else c).routes routes
        (((c.endpoints.filter (·.2.type == .udpRelay)).map (·.2.tcpRelay)).foldlM pointToTCP
          (if (c.setCurrentEndpointToTCP && !c.useUDP) = true then
            { c with endpoints := c.endpoints.map fun e => (e.1, resetUdpRelay e.2) } else c)) :=
      Walk.foldlM fun _ _ _ _ => pointToTCP_walk _
    refine Walk.after hreset (then_walk hloop ?_)
    intro c₁ _
    exact .pure (.of_table (.insertAll c₁.endpoints (unmeasured_of_map fun _ => ⟨rfl, rfl⟩)) rfl)

theorem evaluateUdpPingResults_walk : Walk A c.routes routes c.evaluateUdpPingResults := by
  unfold evaluateUdpPingResults
  dsimp only
  split
  · have hdirect : Reach A c.routes { c with udpThroughProxy := false }.routes := .of_eq rfl
    exact .pure (hdirect.trans resetUdpAvailability_reach)
  · split
    · exact .pure (.of_eq rfl)
    · split
      · refine Walk.lookup (endpointAt_ne_null _) ?_
        intro current _
        refine Walk.after (.of_eq ?_) (then_walk addTCPRelays_walk ?_)
        · exact ite_routes rfl
        · intro c₂ _
          exact .pure (.of_eq rfl)
      · split
        · have hbad : Reach A c.routes { c with
              needRate := c.needRate || c.wantsRate NeedRateFlag.udpBad
              udpConnectivityState := .bad, useTCP := true, setCurrentEndpointToTCP := true }.routes :=
            .of_eq rfl
          exact Walk.after hbad addTCPRelays_walk
        · exact .pure (.of_eq rfl)

/-! ## Pings -/

theorem pingIfDue_walk {key : Int64} {e : Endpoint} (he : c.endpoints.at? key = some e) :
    Walk A c.routes routes (c.pingIfDue env now key e) := by
  unfold pingIfDue
  split
  · have hextra : Reach A c.routes (c.sendExtra { d := .ping } e.id).routes :=
      .of_eq (sendExtra_routes ..)
    have hsent : Walk (c.routes.Leads e.id) (c.sendExtra { d := .ping } e.id).routes routes
        ((c.sendExtra { d := .ping } e.id).sendNopPacket env now e.id) := by
      refine sendPacket_walk fun hled _ => ?_
      rw [sendExtra_routes]
      exact hled
    refine Walk.after hextra (then_walk (hsent.mono ?_) ?_)
    · intro _ hc
      rw [sendExtra_routes] at hc
      exact hc.leads he
    · intro c₁ _
      refine Walk.lookup (endpointAt_ne_null _) ?_
      intro e₁ he₁
      rw [endpointAt_eq_ok] at he₁
      exact .pure (.of_table (.single (.touch c₁.endpoints he₁ rfl fun h => ⟨h.seq, h.samples⟩)) rfl)
  · exact .pure (.refl _)

theorem pingRound_walk {r : PingRound} {key : Int64} :
    Walk A r.c.routes (fun r : PingRound => r.c.routes) (pingRound env now r key) := by
  refine Walk.lookup (endpointAt_ne_null _) ?_
  intro e he
  rw [endpointAt_eq_ok] at he
  split
  · exact .pure (.refl _)
  · refine Walk.bind (pingIfDue_walk he) ?_
    intro c₁ _
    dsimp only
    generalize e.averageRTT * _ = ping
    split
    · exact .pure (.refl _)
    · exact .pure (.refl _)

theorem chooseEndpoint_routes (current : Endpoint) (minPing : Option Time) :
    (c.chooseEndpoint current minPing).routes = c.routes := by
  unfold chooseEndpoint
  split
  · split
    · rfl
    · split
      · rfl
      · split <;> rfl
  · exact ite_routes rfl

theorem sendRelayPings_walk : Walk A c.routes routes (c.sendRelayPings env now) := by
  unfold sendRelayPings
  split
  · refine Walk.lookup (endpointAt_ne_null _) ?_
    intro preferred _
    refine Walk.lookup (endpointAt_ne_null _) ?_
    intro current _
    have hloop : ∀ minPing, Walk A c.routes (fun r : PingRound => r.c.routes)
        ((c.endpoints.map (·.1)).foldlM (pingRound env now)
          { c := c, minPing := minPing, minPingRelay := c.preferredRelay }) :=
      fun minPing => Walk.foldlM (s := (⟨c, minPing, c.preferredRelay⟩ : PingRound))
        fun _ _ _ _ => pingRound_walk
    refine Walk.bind (hloop _) ?_
    intro r _
    refine Walk.lookup (endpointAt_ne_null _) ?_
    intro relay _
    split
    · refine .pure (.of_eq ?_)
      split
      · exact chooseEndpoint_routes ..
      · exact chooseEndpoint_routes ..
    · exact .pure (.of_eq (chooseEndpoint_routes ..))
  · exact .pure (.refl _)

/-! ## The answers of the relays -/

theorem processSelfInfo_walk (myIP : { bs : Bytes // bs.length = 16 }) (here : LocalInterface) :
    Walk A c.routes routes (c.processSelfInfo myIP here src) := by
  refine Walk.lookup (endpointAt_ne_null _) ?_
  intro e he
  rw [endpointAt_eq_ok] at he
  split
  · exact .pure (.refl _)
  · have hcounted : Reach A c.routes { c with
        endpoints := c.endpoints.set src { e with udpPongCount := e.udpPongCount + 1 } }.routes :=
      .of_table (.single (.touch c.endpoints he rfl fun h => ⟨h.seq, h.samples⟩)) rfl
    refine Walk.after hcounted ?_
    dsimp only
    split
    · refine .pure (.of_eq ?_)
      split
      · exact sendExtra_routes ..
      · rfl
    · exact .pure (.refl _)

theorem learnP2pEndpoint_reach (myAddr peerAddr peerPort : UInt32) (here : LocalInterface) :
    Reach A c.routes (c.learnP2pEndpoint myAddr peerAddr peerPort here).routes := by
  let p2p : Endpoint :=
    { id := EndpointID.p2pv4, port := peerPort.toUInt16, address := .ipv4 peerAddr
      type := .udpP2PInet }
  have hinsert : Reach A c.routes
      { c with endpoints := c.endpoints.set EndpointID.p2pv4 p2p }.routes :=
    .of_table (.single (.insert c.endpoints p2p ⟨rfl, rfl⟩)) rfl
  exact hinsert.trans (.of_eq (ite_routes (sendExtra_routes ..)))

theorem processPeerInfo_reach (myAddr peerAddr peerPort : UInt32) (here : LocalInterface) :
    Reach A c.routes.dropLan (c.processPeerInfo myAddr peerAddr peerPort here).routes := by
  unfold processPeerInfo
  dsimp only
  generalize hc₁ : (if c.currentEndpoint = EndpointID.p2pv4 || c.currentEndpoint = EndpointID.lanv4 then
    { c with currentEndpoint := c.preferredRelay } else c) = c₁
  have hsame : c₁.routes = c.routes := by
    rw [← hc₁]
    exact ite_routes rfl
  rw [← hsame]
  split
  · exact learnP2pEndpoint_reach (c := { c₁ with endpoints := c₁.endpoints.erase EndpointID.lanv4 }) ..
  · exact .refl _

/-! ## The state -/

theorem sendDataSavingMode_routes : c.sendDataSavingMode.routes = c.routes := sendExtra_routes ..

theorem sendMicState_routes : c.sendMicState.routes = c.routes := by
  unfold sendMicState
  split
  · rfl
  · dsimp only
    split
    · rfl
    · exact sendExtra_routes ..

theorem setMicMute_routes (mute inputWorks : Bool) :
    (c.setMicMute mute inputWorks).routes = c.routes := by
  unfold setMicMute
  split
  · rfl
  · dsimp only
    split
    · rfl
    · split <;> rfl

theorem noteSilence_reach : Reach A c.routes (c.noteSilence now).routes := by
  unfold noteSilence
  split
  · let c₁ : Controller := { c with
      state := .reconnecting, wasReconnecting := true
      needRate := c.needRate || c.wantsRate NeedRateFlag.reconnecting }
    have hlost : Reach A c.routes c₁.routes := .of_eq rfl
    exact hlost.trans resetUdpAvailability_reach
  · exact .refl _

theorem leaveP2p_reach : Reach A c.routes (c.leaveP2p now).routes := by
  let c₁ : Controller := { c with
    currentEndpoint := c.preferredRelay
    endpoints := c.endpoints.map fun (e : Int64 × Endpoint) =>
      (e.1, if e.2.isP2P then e.2.resetPingStats else e.2) }
  have hsweep : Reach A c.routes c₁.routes := by
    refine sweep_reach (f := fun x => if x.2.isP2P then x.2.resetPingStats else x.2) ?_ ?_
    · intro x
      split <;> rfl
    · intro x hx
      split
      · exact ⟨hx.seq, hx.samples⟩
      · exact hx
  refine hsweep.trans (.of_eq ?_)
  exact (sendDataSavingMode_routes (c := (if c₁.allowP2p then c₁.sendPublicEndpointsRequest
    else c₁).updateDataSavingState)).trans (ite_routes sendPublicEndpointsRequest_routes)

theorem updateAudioBitrate_walk (audioWorks : Bool) :
    Walk A c.routes routes (c.updateAudioBitrate now audioWorks) := by
  let c₁ := (if audioWorks then c else c.failWith .audioIo).noteSilence now
  have hstart : Reach A c.routes c₁.routes := by
    refine .trans (.of_eq ?_) noteSilence_reach
    split <;> rfl
  refine Walk.after hstart ?_
  show Walk A c₁.routes routes (if (c₁.state = .established || c₁.state = .reconnecting) &&
    now - c₁.lastRecvPacketTime ≥ c₁.config.recvTimeout then _ else pure c₁)
  split
  · refine Walk.lookup (endpointAt_ne_null _) ?_
    intro current _
    refine .pure ?_
    split
    · exact .of_eq rfl
    · exact leaveP2p_reach
  · exact .pure (.refl _)

theorem setNetworkType_routes (mobile : Bool) (itfName : String) (myIPv6 : NetworkAddress) :
    (c.setNetworkType mobile itfName myIPv6).routes = c.routes := by
  unfold setNetworkType
  dsimp only
  split
  · split <;> rfl
  · rfl

/-! ## Datagrams -/

theorem moveP2pEndpoint_walk (address : NetworkAddress) (port : UInt16) :
    Walk A c.routes routes (c.moveP2pEndpoint src address port) := by
  refine Walk.lookup (endpointAt_ne_null _) ?_
  intro e he
  rw [endpointAt_eq_ok] at he
  dsimp only
  split
  · exact .pure (.refl _)
  · refine .pure ?_
    split
    · exact .of_table (.single (.touch c.endpoints he rfl fun h => ⟨h.seq, h.samples⟩)) rfl
    · exact .refl _

theorem receive_walk (address : NetworkAddress) (port : UInt16) (packets : List Packet) :
    Walk A c.routes routes (c.receive env now src address port packets) := by
  have hheard : Reach A c.routes (if c.state = CallState.reconnecting then
      { c with lastRecvPacketTime := now }.establish else { c with lastRecvPacketTime := now }).routes := by
    refine .of_eq ?_
    split <;> rfl
  refine Walk.after hheard (then_walk (moveP2pEndpoint_walk address port) ?_)
  intro c₁ _
  exact Walk.foldlM fun _ _ _ _ => processIncomingPacket_walk

/-! ## Another network -/

/-- The handover erases the LAN endpoint. -/
def handoverErases (c : Controller) : Bool :=
  c.currentEndpoint != 0 && c.endpoints.typeAt c.currentEndpoint != some .udpRelay

/-- The entries that are still to come in the loop are those of the table. -/
theorem leaveLoop_walk {key : Int64} {xs : Endpoints} (hordered : xs.Ordered)
    (hxs : ∀ x ∈ xs, c.endpoints.at? x.1 = some x.2) :
    Walk A c.routes routes (xs.foldlM (leaveEndpoint · key) c) := by
  induction xs generalizing c with
  | nil => exact .pure (.refl _)
  | cons x xs ih =>
      obtain ⟨hx, hrest⟩ := List.pairwise_cons.mp hordered
      rw [List.foldlM_cons]
      have hreset : Reach A c.routes ⟨c.endpoints.set x.1 x.2.resetPingStats, c.waiting⟩ :=
        .of_table (.single (.touch c.endpoints (hxs x List.mem_cons_self) rfl
          fun h => ⟨h.seq, h.samples⟩)) rfl
      have hround : Walk A c.routes routes (c.leaveEndpoint key x) := by
        unfold leaveEndpoint
        dsimp only
        split
        · refine Walk.lookup (endpointAt_ne_null _) ?_
          intro relay _
          refine .pure (hreset.trans (.of_eq ?_))
          split <;> rfl
        · exact .pure hreset
      refine then_walk hround ?_
      intro c₁ hc₁
      refine ih hrest ?_
      intro y hy
      rw [(leaveEndpoint_ok hc₁).1, Endpoints.at?_set,
        if_neg fun heq => Int64.lt_irrefl (heq ▸ hx y hy)]
      exact hxs y (List.mem_cons_of_mem x hy)

theorem leaveNetwork_walk (hordered : c.endpoints.Ordered) (hcurrent : c.currentEndpoint ≠ 0) :
    Walk A (if c.handoverErases then c.routes.dropLan else c.routes) routes c.leaveNetwork := by
  refine Walk.lookup (endpointAt_ne_null _) ?_
  intro current he
  rw [endpointAt_eq_ok] at he
  refine Walk.lookup (endpointAt_ne_null _) ?_
  intro preferred _
  have herases : c.handoverErases = (current.type != .udpRelay) := by
    simp [handoverErases, Endpoints.typeAt, he, hcurrent, bne]
  by_cases hudp : current.type = .udpRelay
  · rw [herases, if_neg (by simp [hudp]), if_pos hudp]
    exact .pure (.refl _)
  · rw [herases, if_pos (by simpa using hudp), if_neg hudp]
    dsimp only
    generalize hc₁ : (if preferred.type = .udpRelay then
      { c with currentEndpoint := c.preferredRelay } else c) = c₁
    have hsame : c₁.routes = c.routes := by
      rw [← hc₁]
      exact ite_routes rfl
    have htable : c₁.endpoints = c.endpoints := congrArg Routes.endpoints hsame
    rw [← hsame]
    have herased : (c₁.endpoints.erase EndpointID.lanv4).Ordered :=
      (htable ▸ hordered : c₁.endpoints.Ordered).erase _
    exact leaveLoop_walk (c := { c₁ with endpoints := c₁.endpoints.erase EndpointID.lanv4 })
      herased fun x hx => herased.at?_of_mem hx

theorem networkHandover_walk (hordered : c.endpoints.Ordered) :
    Walk A (if c.handoverErases then c.routes.dropLan else c.routes) routes c.networkHandover := by
  have hrest : ∀ c₁ : Controller, Reach A c₁.routes
      ({ (if c₁.allowP2p && c₁.currentEndpoint ≠ 0 then c₁.sendPublicEndpointsRequest
          else c₁).sendDataSavingMode with
        didSendIPv6Endpoint := false }.addIPv6Relays.resetUdpAvailability.resetEndpointPingStats).routes := by
    intro c₁
    have htold : Reach A c₁.routes (if c₁.allowP2p && c₁.currentEndpoint ≠ 0 then
        c₁.sendPublicEndpointsRequest else c₁).sendDataSavingMode.routes :=
      .of_eq (sendDataSavingMode_routes.trans (ite_routes sendPublicEndpointsRequest_routes))
    refine .trans ?_ resetPingStats_reach
    refine .trans ?_ resetUdpAvailability_reach
    refine .trans ?_ addIPv6Relays_reach
    exact htold
  unfold networkHandover
  dsimp only
  by_cases hcurrent : c.currentEndpoint ≠ 0
  · rw [if_pos hcurrent]
    refine then_walk (leaveNetwork_walk (c := { c with wasNetworkHandover := true }) hordered hcurrent) ?_
    intro c₁ _
    exact .pure (hrest c₁)
  · have hstays : c.handoverErases = false := by simp [handoverErases, not_not.mp hcurrent]
    rw [if_neg hcurrent, hstays, pure_bind]
    exact .pure (hrest { c with wasNetworkHandover := true })

/-! ## Events -/

/-- The endpoint the event itself sends a packet to. -/
def addressed : Event → Option Int64
  | .sendPacket pkt _ _ _ => some pkt.endpoint
  | .sendNopPacket endpointId => some endpointId
  | _ => none

theorem handle_walk {e : Event} (hown : A → ∀ id ∈ addressed e, c.routes.Leads id) :
    Walk A c.routes routes (c.handle env now e) := by
  cases e with
  | packet p src => exact processIncomingPacket_walk
  | sendPacket pkt retryInterval timeout tries =>
      exact sendPacket_walk fun hA _ => hown hA pkt.endpoint rfl
  | sendNopPacket endpointId => exact sendPacket_walk fun hA _ => hown hA endpointId rfl
  | sendExtra x endpointId => exact .pure (.of_eq (sendExtra_routes ..))
  | sendInit => exact sendInit_walk
  | updateReliablePackets => exact updateReliablePackets_walk
  | trySendOutgoingPackets => exact trySendOutgoingPackets_walk
  | udpSocket ready => exact .pure (.of_eq rfl)
  | tcpSocket key ready =>
      refine .pure ?_
      have hsweep : (fun e : Int64 × Endpoint =>
          if e.1 = key then (e.1, { e.2 with socket := some ready }) else e) =
          fun x => (x.1, if x.1 = key then { x.2 with socket := some ready } else x.2) := by
        funext x
        split <;> rfl
      rw [hsweep]
      refine sweep_reach ?_ ?_
      · intro x
        split <;> rfl
      · intro x hx
        split
        · exact ⟨hx.seq, hx.samples⟩
        · exact hx

/-- Tasks but for the handover erase nothing. -/
theorem run_walk {task : Task} (hhandover : task ≠ .networkHandover) :
    Walk A c.routes routes (c.run now task) := by
  cases task with
  | updateReliablePackets => exact updateReliablePackets_walk
  | resumeSending => exact .pure (.of_eq rfl)
  | setEstablished => exact .pure (.of_eq rfl)
  | setEstablishedIfWaiting =>
      refine .pure (.of_eq ?_)
      split <;> rfl
  | resendPublicEndpointsRequest =>
      exact .pure (.of_eq (ite_routes sendPublicEndpointsRequest_routes))
  | networkHandover => exact absurd rfl hhandover
  | sendMicState => exact .pure (.of_eq sendMicState_routes)

end Controller

namespace MessageThread

open Controller

variable {env : Platform} {t t' : MessageThread} {e : Time × ThreadEvent} {A : Prop}

/-- The LAN endpoint is erased: by a peer info, or by the handover. -/
def erasesLan (t : MessageThread) (e : Time × ThreadEvent) : Bool :=
  match e.2 with
  | .relayPacket _ bs _ => isPeerInfo bs
  | _ => t.due e.1 e.2 == some .networkHandover && t.c.handoverErases

/-- The state the event finds, behind that. -/
def found (t : MessageThread) (e : Time × ThreadEvent) : Routes :=
  if t.erasesLan e then t.c.routes.dropLan else t.c.routes

/-- The endpoint the event itself sends a packet to. -/
def addressed : ThreadEvent → Option Int64
  | .handler e => Controller.addressed e
  | _ => none

/-- **Every event is a walk**, from where the LAN endpoint may be erased. -/
theorem handle_walk (hordered : t.c.endpoints.Ordered)
    (hown : A → ∀ id ∈ addressed e.2, t.c.routes.Leads id) :
    Walk A (t.found e) routes (t.handle env e.1 e.2) := by
  obtain ⟨now, e⟩ := e
  cases e with
  | handler e => exact Controller.handle_walk hown
  | datagram src address port packets => exact receive_walk address port packets
  | relayPacket src bs here =>
      show Walk A (if isPeerInfo bs then t.c.routes.dropLan else t.c.routes) routes
        (t.c.parseRelayPacket bs here src)
      unfold parseRelayPacket isPeerInfo
      cases RelayAnswer.parse bs with
      | none => exact .pure (.refl _)
      | some answer =>
          cases answer with
          | selfInfo myIP => exact processSelfInfo_walk myIP here
          | peerInfo myAddr myPort peerAddr peerPort => exact .pure (processPeerInfo_reach ..)
          | unknown => exact .pure (.refl _)
  | posted i =>
      rw [handle]
      show Walk A (if t.due now (.posted i) == some .networkHandover && t.c.handoverErases then
        t.c.routes.dropLan else t.c.routes) routes _
      cases hdue : t.due now (.posted i) with
      | none => exact .pure (.refl _)
      | some task =>
          by_cases hhandover : task = .networkHandover
          · rw [hhandover]
            exact networkHandover_walk hordered
          · have hother : (some task == some Task.networkHandover) = false := by
              simpa using hhandover
            rw [hother]
            exact run_walk hhandover
  | initTimeout =>
      refine .pure (.of_eq ?_)
      unfold runInitTimeout
      split <;> rfl
  | updateAudioBitrate audioWorks =>
      rw [handle]
      split
      · exact updateAudioBitrate_walk audioWorks
      · exact .pure (.refl _)
  | sendRelayPings => exact sendRelayPings_walk
  | sendUdpPings => exact .pure (.of_eq rfl)
  | evaluateUdpPingResults => exact evaluateUdpPingResults_walk
  | resetUdpAvailability => exact .pure resetUdpAvailability_reach
  | addTCPRelays => exact addTCPRelays_walk
  | addIPv6Relays => exact .pure addIPv6Relays_reach
  | setNetworkType mobile itfName myIPv6 => exact .pure (.of_eq (setNetworkType_routes ..))
  | setMicMute mute inputWorks => exact .pure (.of_eq (setMicMute_routes ..))
  | deviceFails err => exact .pure (.of_eq rfl)
  | closeSocket key =>
      refine .pure (sweep_reach
        (f := fun x => if x.1 = key then { x.2 with socket := none } else x.2) ?_ ?_)
      · intro x
        split <;> rfl
      · intro x hx
        split
        · exact ⟨hx.seq, hx.samples⟩
        · exact hx

/-- What the table becomes in a step. -/
theorem step_table (hordered : t.c.endpoints.Ordered) (h : t.step env e = .ok t') :
    TableSteps (t.found e).endpoints t'.c.endpoints := by
  have hwalk : Walk False (t.found e) routes (t.handle env e.1 e.2) :=
    handle_walk hordered fun hA => hA.elim
  exact (hwalk.ok _ (step_c h)).table

/-- Erasing keeps the order, and what is known of the other entries. -/
theorem found_ordered (hordered : t.c.endpoints.Ordered) : (t.found e).endpoints.Ordered := by
  unfold found
  split
  · exact hordered.erase _
  · exact hordered

theorem found_subset {x : Int64 × Endpoint} (hx : x ∈ (t.found e).endpoints) :
    x ∈ t.c.endpoints := by
  unfold found at hx
  split at hx
  · exact List.mem_of_mem_filter hx
  · exact hx

end MessageThread

end Tgvoip
