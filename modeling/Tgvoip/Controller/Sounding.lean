import Tgvoip.Controller.Sealing

/-!
# Sounding — what the message thread says

`Sounding` puts `Handshaking` and `Sealing` together: whatever a message
thread knows, tells and has ready for its sockets is of this program's
version and sealed. Its timers and posted functions speak only through
`SendExtra` and `SendPacket`; everything else is `mute`.
-/

namespace Tgvoip

open ByteReader Fallible

theorem Extra.TellsOwn.of_silent {x : Extra} (h : x.saidVersion = none) : x.TellsOwn := by
  intro v hv
  rw [h] at hv
  cases hv

/-- What a controller says, and in which version. -/
structure Voice where
  ver : VersionInfo
  currentExtras : List UnacknowledgedExtraData
  speech : Speech

namespace Controller

def voice (c : Controller) : Voice where
  ver := c.ver
  currentExtras := c.currentExtras
  speech := c.speech

/-- What the thread says is of this program's version, and sealed. -/
structure Sounding (env : Platform) (layer : Int) (callID : Vector UInt8 16) (c : Controller) :
    Prop where
  handshaking : c.Handshaking layer
  sealing : c.Sealing env callID

variable {env : Platform} {layer : Int} {callID : Vector UInt8 16} {c c' c₁ : Controller}
  {now : Time} {src : Int64} {p : Packet}

namespace Sounding

theorem mute (hc : c.Sounding env layer callID) (h : c'.voice = c.voice) :
    c'.Sounding env layer callID where
  handshaking := hc.handshaking.same (congrArg Voice.ver h) (congrArg Voice.currentExtras h)
    (congrArg (·.speech.history.prepared) h) (congrArg (·.speech.history.sealings) h)
  sealing := hc.sealing.same (congrArg Voice.speech h)

theorem sendExtra (hc : c.Sounding env layer callID) {x : Extra} (hx : x.TellsOwn)
    (endpointId : Int64) : (c.sendExtra { d := x } endpointId).Sounding env layer callID where
  handshaking := sendExtra_handshaking hc.handshaking hx endpointId
  sealing := hc.sealing.same (sendExtra_speech ..)

theorem sendPacket (hc : c.Sounding env layer callID) {pkt : OutgoingPacket}
    {retryInterval timeout : Time} {tries : UInt8}
    (h : c.sendPacket env now pkt retryInterval timeout tries = .ok c') :
    c'.Sounding env layer callID where
  handshaking := (handshaking_rule layer).sendPacket h hc.handshaking
  sealing := sendPacket_sealing hc.sealing h

theorem updateReliablePackets (hc : c.Sounding env layer callID)
    (h : c.updateReliablePackets now = .ok c') : c'.Sounding env layer callID where
  handshaking := (handshaking_rule layer).updateReliablePackets
    (fun _ _ hc => hc.same rfl rfl rfl rfl) h hc.handshaking
  sealing := updateReliablePackets_sealing hc.sealing h

theorem handle (hc : c.Sounding env layer callID) {e : Event} (he : TellsOwn e)
    (h : c.handle env now e = .ok c') : c'.Sounding env layer callID where
  handshaking := step_handshaking (e := (now, e)) hc.handshaking he h
  sealing := handle_sealing hc.sealing h

end Sounding

/-! ## The table -/

theorem ite_voice {q : Prop} [Decidable q] (h : c'.voice = c.voice) :
    (if q then c' else c).voice = c.voice := by
  split
  · exact h
  · rfl

theorem ite_sounding {q : Prop} [Decidable q] (h₁ : c₁.Sounding env layer callID)
    (h₂ : c.Sounding env layer callID) : (if q then c₁ else c).Sounding env layer callID := by
  split
  · exact h₁
  · exact h₂

theorem sendPublicEndpointsRequest_voice : c.sendPublicEndpointsRequest.voice = c.voice := by
  unfold sendPublicEndpointsRequest
  split
  · rfl
  · dsimp only
    split <;> split <;> rfl

theorem addIPv6Relays_voice : c.addIPv6Relays.voice = c.voice := by
  unfold addIPv6Relays
  split <;> rfl

theorem pointToTCP_voice {relay : Endpoint} (h : c.pointToTCP relay = .ok c') :
    c'.voice = c.voice := by
  unfold pointToTCP at h
  split at h
  · obtain ⟨current, -, h⟩ := bind_eq_ok.mp h
    rw [← pure_eq_ok.mp h]
    exact ite_voice rfl
  · exact pure_eq_ok.mp h ▸ rfl

theorem addTCPRelays_voice (h : c.addTCPRelays = .ok c') : c'.voice = c.voice := by
  unfold addTCPRelays at h
  split at h
  · exact pure_eq_ok.mp h ▸ rfl
  · let c₁ : Controller := if c.setCurrentEndpointToTCP && !c.useUDP then
      { c with endpoints := c.endpoints.map fun e => (e.1, resetUdpRelay e.2) } else c
    have hreset : c₁.voice = c.voice := ite_voice rfl
    obtain ⟨c₂, hloop, h⟩ := bind_eq_ok.mp h
    have hpointed : c₂.voice = c.voice :=
      foldlM_invariant (I := fun c₂ : Controller => c₂.voice = c.voice)
        (fun _ _ _ _ hc hround => (pointToTCP_voice hround).trans hc) hreset hloop
    rw [← pure_eq_ok.mp h]
    exact hpointed

theorem evaluateUdpPingResults_voice (h : c.evaluateUdpPingResults = .ok c') :
    c'.voice = c.voice := by
  unfold evaluateUdpPingResults at h
  dsimp only at h
  split at h
  · exact pure_eq_ok.mp h ▸ rfl
  · split at h
    · exact pure_eq_ok.mp h ▸ rfl
    · split at h
      · obtain ⟨current, -, h⟩ := bind_eq_ok.mp h
        obtain ⟨c₁, hrelays, h⟩ := bind_eq_ok.mp h
        rw [← pure_eq_ok.mp h]
        exact (addTCPRelays_voice hrelays).trans (ite_voice rfl)
      · split at h
        · exact (addTCPRelays_voice h).trans rfl
        · exact pure_eq_ok.mp h ▸ rfl

/-! ## Pings -/

theorem sendDataSavingMode_sounding (hc : c.Sounding env layer callID) :
    c.sendDataSavingMode.Sounding env layer callID :=
  hc.sendExtra (.of_silent rfl) 0

theorem pingIfDue_sounding {key : Int64} {e : Endpoint} (hc : c.Sounding env layer callID)
    (h : c.pingIfDue env now key e = .ok c') : c'.Sounding env layer callID := by
  unfold pingIfDue at h
  split at h
  · obtain ⟨c₁, hsent, h⟩ := bind_eq_ok.mp h
    obtain ⟨e₁, -, h⟩ := bind_eq_ok.mp h
    have hping : (c.sendExtra { d := .ping } e.id).Sounding env layer callID :=
      hc.sendExtra (.of_silent rfl) e.id
    rw [← pure_eq_ok.mp h]
    exact (hping.sendPacket hsent).mute rfl
  · exact pure_eq_ok.mp h ▸ hc

theorem pingRound_sounding {r r' : PingRound} {key : Int64} (hr : r.c.Sounding env layer callID)
    (h : pingRound env now r key = .ok r') : r'.c.Sounding env layer callID := by
  unfold pingRound at h
  obtain ⟨e, -, h⟩ := bind_eq_ok.mp h
  split at h
  · exact pure_eq_ok.mp h ▸ hr
  · obtain ⟨c₁, hping, h⟩ := bind_eq_ok.mp h
    have hc₁ := pingIfDue_sounding hr hping
    dsimp only at h
    generalize e.averageRTT * _ = ping at h
    split at h
    · exact pure_eq_ok.mp h ▸ hc₁
    · exact pure_eq_ok.mp h ▸ hc₁

theorem chooseEndpoint_voice (current : Endpoint) (minPing : Option Time) :
    (c.chooseEndpoint current minPing).voice = c.voice := by
  unfold chooseEndpoint
  split
  · split
    · rfl
    · split
      · rfl
      · exact ite_voice rfl
  · exact ite_voice rfl

theorem sendRelayPings_sounding (hc : c.Sounding env layer callID)
    (h : c.sendRelayPings env now = .ok c') : c'.Sounding env layer callID := by
  unfold sendRelayPings at h
  split at h
  · obtain ⟨preferred, -, h⟩ := bind_eq_ok.mp h
    obtain ⟨current, -, h⟩ := bind_eq_ok.mp h
    obtain ⟨r, hloop, h⟩ := bind_eq_ok.mp h
    obtain ⟨relay, -, h⟩ := bind_eq_ok.mp h
    have hr : r.c.Sounding env layer callID :=
      foldlM_invariant (I := fun r : PingRound => r.c.Sounding env layer callID)
        (fun _ _ _ _ hr hround => pingRound_sounding hr hround) hc hloop
    split at h
    · rw [← pure_eq_ok.mp h]
      split
      · exact hr.mute (chooseEndpoint_voice ..)
      · exact hr.mute (chooseEndpoint_voice ..)
    · exact pure_eq_ok.mp h ▸ hr.mute (chooseEndpoint_voice ..)
  · exact pure_eq_ok.mp h ▸ hc

/-! ## The answers of the relays -/

theorem learnP2pEndpoint_sounding (hc : c.Sounding env layer callID)
    (myAddr peerAddr peerPort : UInt32) (here : LocalInterface) :
    (c.learnP2pEndpoint myAddr peerAddr peerPort here).Sounding env layer callID := by
  let p2p : Endpoint :=
    { id := EndpointID.p2pv4, port := peerPort.toUInt16, address := .ipv4 peerAddr
      type := .udpP2PInet }
  let c₁ : Controller := { c with endpoints := c.endpoints.set EndpointID.p2pv4 p2p }
  have hc₁ : c₁.Sounding env layer callID := hc.mute rfl
  have htold : (if myAddr = peerAddr then
      c₁.sendExtra { d := .lanEndpoint { address := here.address, port := here.port } } 0
      else c₁).Sounding env layer callID :=
    ite_sounding (hc₁.sendExtra (.of_silent rfl) 0) hc₁
  exact htold.mute rfl

theorem processPeerInfo_sounding (hc : c.Sounding env layer callID)
    (myAddr peerAddr peerPort : UInt32) (here : LocalInterface) :
    (c.processPeerInfo myAddr peerAddr peerPort here).Sounding env layer callID := by
  let c₁ : Controller :=
    if c.currentEndpoint = EndpointID.p2pv4 || c.currentEndpoint = EndpointID.lanv4 then
      { c with currentEndpoint := c.preferredRelay } else c
  have hc₁ : c₁.Sounding env layer callID := hc.mute (ite_voice rfl)
  let c₂ : Controller := { c₁ with endpoints := c₁.endpoints.erase EndpointID.lanv4 }
  have hc₂ : c₂.Sounding env layer callID := hc₁.mute rfl
  exact ite_sounding (learnP2pEndpoint_sounding hc₂ ..) hc₂

theorem processSelfInfo_sounding {myIP : { bs : Bytes // bs.length = 16 }} {here : LocalInterface}
    (hc : c.Sounding env layer callID) (h : c.processSelfInfo myIP here src = .ok c') :
    c'.Sounding env layer callID := by
  unfold processSelfInfo at h
  obtain ⟨e, -, h⟩ := bind_eq_ok.mp h
  split at h
  · exact pure_eq_ok.mp h ▸ hc
  · let c₁ : Controller := { c with
      endpoints := c.endpoints.set src { e with udpPongCount := e.udpPongCount + 1 } }
    have hc₁ : c₁.Sounding env layer callID := hc.mute rfl
    let c₂ : Controller := { c₁ with useIPv6 := true }
    have hc₂ : c₂.Sounding env layer callID := hc.mute rfl
    let c₃ : Controller := { c₂ with didSendIPv6Endpoint := true }
    have hc₃ : c₃.Sounding env layer callID := hc.mute rfl
    dsimp only at h
    split at h
    · rw [← pure_eq_ok.mp h]
      exact ite_sounding (q := c₂.allowP2p = true) (hc₃.sendExtra
        (x := .ipv6Endpoint { address := myIP, port := here.port }) (.of_silent rfl) 0) hc₂
    · exact pure_eq_ok.mp h ▸ hc₁

theorem parseRelayPacket_sounding {bs : Bytes} {here : LocalInterface}
    (hc : c.Sounding env layer callID) (h : c.parseRelayPacket bs here src = .ok c') :
    c'.Sounding env layer callID := by
  unfold parseRelayPacket at h
  split at h
  · exact processSelfInfo_sounding hc h
  · rw [← pure_eq_ok.mp h]
    exact processPeerInfo_sounding hc ..
  · exact pure_eq_ok.mp h ▸ hc

/-! ## Another network -/

theorem leaveEndpoint_voice {preferred : Int64} {x : Int64 × Endpoint}
    (h : c.leaveEndpoint preferred x = .ok c') : c'.voice = c.voice := by
  unfold leaveEndpoint at h
  dsimp only at h
  split at h
  · obtain ⟨relay, -, h⟩ := bind_eq_ok.mp h
    rw [← pure_eq_ok.mp h]
    split <;> rfl
  · exact pure_eq_ok.mp h ▸ rfl

theorem leaveNetwork_voice (h : c.leaveNetwork = .ok c') : c'.voice = c.voice := by
  unfold leaveNetwork at h
  obtain ⟨current, -, h⟩ := bind_eq_ok.mp h
  obtain ⟨preferred, -, h⟩ := bind_eq_ok.mp h
  split at h
  · exact pure_eq_ok.mp h ▸ rfl
  · refine foldlM_invariant (I := fun c₁ : Controller => c₁.voice = c.voice) ?_ ?_ h
    · intro c₁ x _ c₂ hc₁ h
      exact (leaveEndpoint_voice h).trans hc₁
    · exact (congrArg voice rfl).trans (ite_voice rfl)

theorem networkHandover_sounding (hc : c.Sounding env layer callID)
    (h : c.networkHandover = .ok c') : c'.Sounding env layer callID := by
  have hrest : ∀ c₁ : Controller, c₁.Sounding env layer callID →
      ({ (if c₁.allowP2p && c₁.currentEndpoint ≠ 0 then c₁.sendPublicEndpointsRequest
          else c₁).sendDataSavingMode with didSendIPv6Endpoint := false
        }.addIPv6Relays.resetUdpAvailability.resetEndpointPingStats).Sounding env layer callID := by
    intro c₁ hc₁
    have hasked := hc₁.mute (ite_voice (q := (c₁.allowP2p && c₁.currentEndpoint ≠ 0) = true)
      sendPublicEndpointsRequest_voice)
    exact (sendDataSavingMode_sounding hasked).mute (addIPv6Relays_voice.trans rfl)
  unfold networkHandover at h
  dsimp only at h
  split at h
  · obtain ⟨c₁, hleft, h⟩ := bind_eq_ok.mp h
    rw [← pure_eq_ok.mp h]
    have hc₁ : { c with wasNetworkHandover := true }.Sounding env layer callID := hc.mute rfl
    exact hrest c₁ (hc₁.mute (leaveNetwork_voice hleft))
  · rw [pure_bind] at h
    rw [← pure_eq_ok.mp h]
    exact hrest _ (hc.mute rfl)

theorem setNetworkType_voice (mobile : Bool) (itfName : String) (myIPv6 : NetworkAddress) :
    (c.setNetworkType mobile itfName myIPv6).voice = c.voice := by
  unfold setNetworkType
  dsimp only
  split
  · split <;> rfl
  · rfl

/-! ## The state -/

theorem sendMicState_sounding (hc : c.Sounding env layer callID) :
    c.sendMicState.Sounding env layer callID := by
  unfold sendMicState
  split
  · exact hc
  · rename_i i _
    let c₁ : Controller := { c with
      outgoingStreams := c.outgoingStreams.modify i fun s => { s with enabled := !c.micMuted } }
    have hc₁ : c₁.Sounding env layer callID := hc.mute rfl
    dsimp only
    split
    · exact hc₁
    · exact hc₁.sendExtra (.of_silent rfl) 0

theorem setMicMute_voice (mute inputWorks : Bool) : (c.setMicMute mute inputWorks).voice = c.voice := by
  unfold setMicMute
  split
  · rfl
  · dsimp only
    split
    · rfl
    · split <;> rfl

theorem noteSilence_voice : (c.noteSilence now).voice = c.voice := by
  unfold noteSilence
  split <;> rfl

theorem leaveP2p_sounding (hc : c.Sounding env layer callID) :
    (c.leaveP2p now).Sounding env layer callID := by
  let c₁ : Controller := { c with
    currentEndpoint := c.preferredRelay
    endpoints := c.endpoints.map fun (e : Int64 × Endpoint) =>
      (e.1, if e.2.isP2P then e.2.resetPingStats else e.2) }
  have hasked : (if c₁.allowP2p then c₁.sendPublicEndpointsRequest else c₁).voice = c.voice :=
    (ite_voice sendPublicEndpointsRequest_voice).trans rfl
  have hc₁ : (if c₁.allowP2p then c₁.sendPublicEndpointsRequest
      else c₁).updateDataSavingState.Sounding env layer callID := hc.mute hasked
  have htold := sendDataSavingMode_sounding hc₁
  exact htold.mute rfl

theorem updateAudioBitrate_sounding {audioWorks : Bool} (hc : c.Sounding env layer callID)
    (h : c.updateAudioBitrate now audioWorks = .ok c') : c'.Sounding env layer callID := by
  let c₁ := (if audioWorks then c else c.failWith .audioIo).noteSilence now
  have hworks : (if audioWorks then c else c.failWith .audioIo).voice = c.voice := by
    split <;> rfl
  have hc₁ : c₁.Sounding env layer callID := hc.mute (noteSilence_voice.trans hworks)
  unfold updateAudioBitrate at h
  change (if (c₁.state = .established || c₁.state = .reconnecting) &&
    now - c₁.lastRecvPacketTime ≥ c₁.config.recvTimeout then _ else pure c₁) = _ at h
  split at h
  · obtain ⟨current, -, h⟩ := bind_eq_ok.mp h
    rw [← pure_eq_ok.mp h]
    split
    · exact hc₁.mute rfl
    · exact leaveP2p_sounding hc₁
  · exact pure_eq_ok.mp h ▸ hc₁

/-- **The posted functions.** -/
theorem run_sounding {task : Task} (hc : c.Sounding env layer callID)
    (h : c.run now task = .ok c') : c'.Sounding env layer callID := by
  cases task with
  | updateReliablePackets => exact hc.updateReliablePackets h
  | resumeSending => exact pure_eq_ok.mp h ▸ hc.mute rfl
  | setEstablished => exact pure_eq_ok.mp h ▸ hc.mute rfl
  | setEstablishedIfWaiting => exact pure_eq_ok.mp h ▸ hc.mute (ite_voice rfl)
  | resendPublicEndpointsRequest =>
      exact pure_eq_ok.mp h ▸ hc.mute (ite_voice sendPublicEndpointsRequest_voice)
  | networkHandover => exact networkHandover_sounding hc h
  | sendMicState => exact pure_eq_ok.mp h ▸ sendMicState_sounding hc

/-! ## Datagrams -/

theorem noteDatagram_voice {address : NetworkAddress} {port : UInt16}
    (h : c.noteDatagram now src address port = .ok c') : c'.voice = c.voice := by
  have hmoved : ∀ c : Controller, c.moveP2pEndpoint src address port = .ok c' →
      c'.voice = c.voice := by
    intro c h
    unfold moveP2pEndpoint at h
    obtain ⟨e, -, h⟩ := bind_eq_ok.mp h
    cases address with
    | ipv6 addr => exact pure_eq_ok.mp h ▸ rfl
    | ipv4 addr =>
        rw [← pure_eq_ok.mp h]
        exact ite_voice rfl
  exact (hmoved _ h).trans (ite_voice (c := { c with lastRecvPacketTime := now }) rfl)

theorem receive_sounding {address : NetworkAddress} {port : UInt16} {packets : List Packet}
    (hpackets : ∀ p ∈ packets, ∀ x ∈ p.extraSignaling, x.d.TellsOwn)
    (hc : c.Sounding env layer callID)
    (h : c.receive env now src address port packets = .ok c') : c'.Sounding env layer callID := by
  obtain ⟨c₁, hnote, h⟩ := bind_eq_ok.mp h
  refine foldlM_invariant (I := Sounding env layer callID) ?_ (hc.mute (noteDatagram_voice hnote)) h
  intro c₂ p hp c₃ hc₂ h
  exact ⟨processIncomingPacket_handshaking (hpackets p hp) hc₂.handshaking h,
    processIncomingPacket_sealing hc₂.sealing h⟩

end Controller

end Tgvoip
