import Tgvoip.Controller.PacketFrame

/-!
# HandlerRule — what the handlers of a packet are made of

To prove a relation between the controllers before and behind a packet it is
enough to prove it of the few writes the handlers do. `HandlerRule` lists
them, on top of those of sending: most are `aside`, to fields the relation
does not look at, the others come one by one. Two things are left to the
user of the rule: stream flags, and the acknowledgement stage.
-/

namespace Tgvoip

open ByteReader Fallible

namespace Controller

variable {env : Platform} {c c' c₁ : Controller} {now : Time} {src : Int64} {p : Packet}

/-- What a relation may look at. -/
structure Core where
  transport : Transport
  state : CallState
  receivedInitAck : Bool
  incomingStreams : List IncomingStream
  audioStarted : Bool
  conctlCalls : List ConctlCall
  sendLosses : UInt32
  markedLost : ℕ
  recovered : ℕ
  posted : List (Task × Time)
  wasEstablished : Bool
  periodicTimers : List PeriodicTimer

def core (c : Controller) : Core where
  transport := c.toTransport
  state := c.state
  receivedInitAck := c.receivedInitAck
  incomingStreams := c.incomingStreams
  audioStarted := c.audioStarted
  conctlCalls := c.conctlCalls
  sendLosses := c.sendLosses
  markedLost := c.markedLost
  recovered := c.recovered
  posted := c.posted
  wasEstablished := c.wasEstablished
  periodicTimers := c.periodicTimers

/-- A relation that every act of handling a packet, and every act of sending,
obeys. -/
structure HandlerRule (env : Platform) (R : Controller → Controller → Prop) : Prop extends
    SendRule R where
  aside : ∀ {c c' : Controller}, c'.core = c.core → R c c'
  extra : ∀ (c : Controller) x endpointId, R c (c.sendExtra x endpointId)
  count : ∀ (c : Controller) n, R c { c with unacknowledgedIncomingPacketCount := n }
  draw : ∀ {c : Controller} {s}, c.outgoingStreams[StreamId.signaling.toNat]? = some s →
    R c (c.setManager StreamId.signaling.toNat s.packetManager.nextLocalSeq.2)
  retry : ∀ (c : Controller) packets (due : List ReliableOutgoingPacket), R c { c with
    reliablePackets := packets
    posted := c.posted ++ due.map fun q => (.updateReliablePackets, q.retryInterval) }
  initSent : ∀ c : Controller, c.state = .waitInit → R c (c.setState .waitInitAck)
  fail : ∀ (c : Controller) err, R c { c with lastError := err, state := .failed }
  /-- Streams of the peer come with its first ack only. -/
  ackInit : ∀ (c : Controller) ver streams, c.receivedInitAck = false → R c { c with
    receivedInitAck := true, initTimeoutPosted := false, ver
    incomingStreams := c.incomingStreams ++ streams }
  audio : ∀ c : Controller, c.receivedInitAck = true → R c { c with audioStarted := true }
  /-- A function that establishes the call is posted after the acknowledgement. -/
  post : ∀ (c : Controller) task delay,
    c.receivedInitAck = true ∨ task = .resendPublicEndpointsRequest → R c (c.post task delay)
  video : ∀ (c : Controller) codec, R c { c with
    outgoingStreams := c.outgoingStreams ++ [env.videoStream codec] }
  csd : ∀ (c : Controller) d, R c (c.processStreamCsd d)

namespace HandlerRule

variable {R : Controller → Controller → Prop}

theorem ite (hR : HandlerRule env R) {q : Prop} [Decidable q] (h : R c c') :
    R c (if q then c' else c) := by
  split
  · exact h
  · exact hR.refl c

theorem answer (hR : HandlerRule env R) {reply : Extra} (h : c.answer env now reply = .ok c') :
    R c c' :=
  hR.toSendRule.answer (hR.extra ..) h

/-! ## The extras -/

theorem sendPublicEndpointsRequest (hR : HandlerRule env R) :
    R c c.sendPublicEndpointsRequest := by
  unfold Controller.sendPublicEndpointsRequest
  split
  · exact hR.refl c
  · let c₁ := if (c.useUDP && c.endpoints.any fun e => e.2.type == .udpRelay && !e.2.isIPv6Only)
      then { c with waitingForRelayPeerInfo := true } else c
    have hasks : R c c₁ := hR.ite (hR.aside rfl)
    apply hR.trans hasks
    show R c₁ (if c₁.publicEndpointsReqCount + 1 < 10 then _ else _)
    split
    · have hcount : R c₁ { c₁ with publicEndpointsReqCount := c₁.publicEndpointsReqCount + 1 } :=
        hR.aside rfl
      exact hR.trans hcount (hR.post _ _ _ (.inr rfl))
    · exact hR.aside rfl

theorem startAudio (hR : HandlerRule env R) (hack : c.receivedInitAck = true) :
    R c (c.startAudio env) := by
  have hstarted : R c { c with audioStarted := true } := hR.audio c hack
  unfold Controller.startAudio
  exact hR.trans hstarted (hR.ite (hR.fail ..))

theorem startAudio_receivedInitAck (c : Controller) :
    (c.startAudio env).receivedInitAck = c.receivedInitAck := by
  unfold Controller.startAudio
  dsimp only
  split
  · rfl
  · rfl

theorem learnCapabilities (hR : HandlerRule env R) (d : ExtraInit) :
    R c (c.learnCapabilities d) := by
  unfold Controller.learnCapabilities
  dsimp only
  split
  · exact hR.aside rfl
  · exact hR.aside rfl

theorem addPeerDecoder (hR : HandlerRule env R) (decoder : UInt32) :
    R c (c.addPeerDecoder env decoder) := by
  have hknown : R c { c with peerVideoDecoders := c.peerVideoDecoders ++ [decoder] } :=
    hR.aside rfl
  unfold Controller.addPeerDecoder setupOutgoingVideoStream
  apply hR.trans hknown
  split
  · exact hR.refl _
  · exact hR.video ..

theorem learnDecoders (hR : HandlerRule env R) (d : ExtraInit) : R c (c.learnDecoders env d) := by
  have hloop : ∀ (decoders : List UInt32) (c : Controller),
      R c (decoders.foldl (·.addPeerDecoder env) c) := by
    intro decoders
    induction decoders with
    | nil => exact hR.refl
    | cons decoder decoders ih =>
        intro c
        exact hR.trans (hR.addPeerDecoder decoder) (ih _)
  unfold Controller.learnDecoders
  exact hR.ite (hloop d.decoders c)

theorem adoptEndpoint (hR : HandlerRule env R) (e : Endpoint) : R c (c.adoptEndpoint e) := by
  unfold Controller.adoptEndpoint
  dsimp only
  split
  · exact hR.aside rfl
  · exact hR.aside rfl

theorem processInit (hR : HandlerRule env R) {d : ExtraInit}
    (h : c.processInit env now d src = .ok c') : R c c' := by
  unfold Controller.processInit at h
  dsimp only at h
  have hver : R c (if (!c.receivedInit) = true then
      { c with ver := { c.ver with peerVersion := d.peerVersion.toInt32.toInt } } else c) :=
    hR.ite (hR.aside rfl)
  apply hR.trans hver
  split at h
  · rw [← pure_eq_ok.mp h]
    exact hR.fail ..
  · obtain ⟨c₂, hanswer, h⟩ := bind_eq_ok.mp h
    obtain ⟨e, -, h⟩ := bind_eq_ok.mp h
    rw [← pure_eq_ok.mp h]
    have hadopt : R c₂ (if (!c.receivedInit) = true then c₂.adoptEndpoint e else c₂) :=
      hR.ite (hR.adoptEndpoint e)
    refine hR.trans (hR.trans ?_ (hR.answer hanswer)) (hR.trans hadopt ?_)
    · exact hR.ite (hR.trans (hR.learnCapabilities d) (hR.learnDecoders d))
    · generalize (if (!c.receivedInit) = true then c₂.adoptEndpoint e else c₂) = c₃
      split
      · rename_i hstart
        rw [Bool.and_eq_true] at hstart
        exact hR.startAudio hstart.2
      · exact hR.refl _

theorem processInitAck (hR : HandlerRule env R) (d : ExtraInitAck) :
    R c (c.processInitAck env d) := by
  unfold Controller.processInitAck
  split
  · exact hR.refl c
  · rename_i hfirst
    let c₁ : Controller := { c with
      receivedInitAck := true, initTimeoutPosted := false
      ver := { c.ver with peerVersion := d.peerVersion.toInt32.toInt } }
    let signaling : List IncomingStream :=
      if c₁.ver.isNew then [] else [{ id := StreamId.signaling, type := StreamType.signaling }]
    have hacked : ∀ streams, R c { c₁ with incomingStreams := c.incomingStreams ++ streams } :=
      fun streams => hR.ackInit c _ streams (Bool.not_eq_true _ ▸ hfirst)
    dsimp only
    split
    · have hnone := hacked []
      rw [List.append_nil] at hnone
      exact hR.trans hnone (hR.fail c₁ .incompatible)
    · let c₂ : Controller := { c₁ with
        incomingStreams := c.incomingStreams ++ signaling ++ d.streams.filterMap c₁.incomingStreamOf }
      have hstreams : R c c₂ := by
        have hall := hacked (signaling ++ d.streams.filterMap c₁.incomingStreamOf)
        rwa [← List.append_assoc] at hall
      split
      · exact hstreams
      · refine hR.trans ?_ (hR.ite hR.sendPublicEndpointsRequest)
        let c₃ : Controller := { c₂ with useMTProto2 := c₂.useMTProto2 || c₂.ver.peerVersion ≥ 5 }
        let c₄ := if !c₃.audioStarted && c₃.receivedInit then c₃.startAudio env else c₃
        have hset : R c₂ c₃ := hR.aside rfl
        have haudio : R c₃ c₄ := hR.ite (hR.startAudio rfl)
        -- the function is posted behind the acknowledgement
        have hack : c₄.receivedInitAck = true := by
          show (if _ then _ else _ : Controller).receivedInitAck = true
          split
          · exact startAudio_receivedInitAck c₃
          · rfl
        have hposted := hR.post c₄ .setEstablishedIfWaiting c₄.config.establishedDelayIfNoStreamData
          (.inl hack)
        exact hR.trans (hR.trans hstreams (hR.trans hset haudio)) hposted

theorem processNetworkChanged (hR : HandlerRule env R) {d : ExtraNetworkChanged}
    (h : c.processNetworkChanged d = .ok c') : R c c' := by
  obtain ⟨c₁, c₂, hcurrent, hasks, hflags⟩ := processNetworkChanged_ok h
  have hleft : R c c₁ := by
    rcases hcurrent with rfl | rfl
    · exact hR.aside rfl
    · exact hR.aside rfl
  have hasked : R c₁ c₂ := by
    rw [hasks]
    exact hR.ite hR.sendPublicEndpointsRequest
  apply hR.trans (hR.trans hleft hasked)
  rcases hflags with rfl | ⟨requested, saving, rfl⟩
  · exact hR.refl _
  · exact hR.aside rfl

theorem processLanEndpoint (hR : HandlerRule env R) (d : ExtraLanEndpoint) :
    R c (c.processLanEndpoint d) := by
  unfold Controller.processLanEndpoint
  split
  · exact hR.refl c
  · have hleft : R c (if c.currentEndpoint = EndpointID.lanv4 then
        { c with currentEndpoint := c.preferredRelay } else c) := hR.ite (hR.aside rfl)
    exact hR.trans hleft (hR.aside rfl)

theorem processIpv6Endpoint (hR : HandlerRule env R) (d : ExtraIpv6Endpoint) :
    R c (c.processIpv6Endpoint d) := by
  unfold Controller.processIpv6Endpoint
  split
  · exact hR.refl c
  · dsimp only
    split
    · exact hR.aside rfl
    · exact hR.aside rfl

theorem processGroupCallKey (hR : HandlerRule env R) : R c c.processGroupCallKey := by
  unfold Controller.processGroupCallKey
  exact hR.ite (hR.aside rfl)

theorem processPing (hR : HandlerRule env R) (h : c.processPing env now src = .ok c') :
    R c c' := by
  unfold Controller.processPing at h
  obtain ⟨e, -, h⟩ := bind_eq_ok.mp h
  split at h
  · exact hR.answer h
  · rw [← pure_eq_ok.mp h]
    exact hR.refl c

theorem processPong (hR : HandlerRule env R) {d : ExtraPong}
    (h : c.processPong now d src = .ok c') : R c c' := by
  unfold Controller.processPong at h
  obtain ⟨e, -, h⟩ := bind_eq_ok.mp h
  split at h
  · rw [← pure_eq_ok.mp h]
    exact hR.aside rfl
  · rw [← pure_eq_ok.mp h]
    exact hR.refl c

/-- **The rule for an extra.** -/
theorem dispatchExtra (hR : HandlerRule env R) {x : Extra}
    (hflags : ∀ d, x = .streamFlags d → R c (c.processStreamFlags d))
    (h : c.dispatchExtra env now x src = .ok c') : R c c' := by
  cases x with
  | init d => exact hR.processInit h
  | initAck d => exact pure_eq_ok.mp h ▸ hR.processInitAck d
  | streamFlags d => exact pure_eq_ok.mp h ▸ hflags d rfl
  | streamCsd d => exact pure_eq_ok.mp h ▸ hR.csd c d
  | lanEndpoint d => exact pure_eq_ok.mp h ▸ hR.processLanEndpoint d
  | networkChanged d => exact hR.processNetworkChanged h
  | groupCallKey d => exact pure_eq_ok.mp h ▸ hR.processGroupCallKey
  | groupCallUpgrade => exact pure_eq_ok.mp h ▸ hR.aside rfl
  | ipv6Endpoint d => exact pure_eq_ok.mp h ▸ hR.processIpv6Endpoint d
  | ping => exact hR.processPing h
  | pong d => exact hR.processPong h

theorem processExtras (hR : HandlerRule env R) {xs : List WrappedExtra}
    (hflags : ∀ (c : Controller) d, R c (c.processStreamFlags d))
    (h : c.processExtras env now src xs = .ok c') : R c c' :=
  processExtras_rule (I := fun c₁ _ => R c c₁) (fun _ _ _ h => hR.trans h (hR.aside rfl))
    (fun c₁ _ _ _ h hx => hR.trans h (hR.dispatchExtra (fun d _ => hflags c₁ d) hx)) (hR.refl c) h

/-! ## The packet -/

theorem switchToRelay (hR : HandlerRule env R) {pm : PacketManager}
    (h : c.switchToRelay pm src = .ok c') : R c c' := by
  unfold Controller.switchToRelay at h
  obtain ⟨current, -, h⟩ := bind_eq_ok.mp h
  obtain ⟨srcEndpoint, -, h⟩ := bind_eq_ok.mp h
  split at h
  · have hmoved : R c { c with
        endpoints := c.endpoints.set c.currentEndpoint srcEndpoint
        currentEndpoint := srcEndpoint.id } := hR.aside rfl
    rw [← pure_eq_ok.mp h]
    exact hR.trans hmoved (hR.ite hR.sendPublicEndpointsRequest)
  · rw [← pure_eq_ok.mp h]
    exact hR.refl c

theorem countUnacknowledged (hR : HandlerRule env R) (h : c.countUnacknowledged env now = .ok c') :
    R c c' :=
  hR.toSendRule.countUnacknowledged (hR.count c) h

theorem noteFirstStreamPacket (hR : HandlerRule env R) : R c c.noteFirstStreamPacket := by
  unfold Controller.noteFirstStreamPacket
  split
  · exact hR.refl c
  · have hnoted : R c { c with receivedFirstStreamPacket := true } := hR.aside rfl
    apply hR.trans hnoted
    dsimp only
    split
    · rename_i hacked
      rw [Bool.and_eq_true] at hacked
      exact hR.post _ _ _ (.inl hacked.2)
    · exact hR.refl _

theorem noteStreamPacket (hR : HandlerRule env R) (h : c.noteStreamPacket p src = .ok c') :
    R c c' := by
  unfold Controller.noteStreamPacket at h
  split at h
  · rw [← pure_eq_ok.mp h]
    exact hR.refl c
  · obtain ⟨srcEndpoint, -, h⟩ := bind_eq_ok.mp h
    rw [← pure_eq_ok.mp h]
    exact hR.trans hR.noteFirstStreamPacket (hR.ite (hR.aside rfl))

/-- **The rule for a packet that is not a duplicate**: the extras, the
acknowledgement stage, and a rest that obeys the relation. -/
theorem processFreshPacket (hR : HandlerRule env R)
    (h : c.processFreshPacket env now p src = .ok c') :
    ∃ c₁ c₂ s, c.processExtras env now src p.extraSignaling = .ok c₁ ∧
      c₁.outgoingStreams[p.managerIndex.toNat]? = some s ∧
      ((s.packetManager.takesAck p.ackSeq = false ∧ c₂ = c₁) ∨
        (s.packetManager.takesAck p.ackSeq = true ∧
          ∃ hasSender, c₁.processAck now p s.packetManager hasSender = .ok c₂)) ∧
      R c₂ c' := by
  unfold Controller.processFreshPacket at h
  obtain ⟨c₁, hextras, h⟩ := bind_eq_ok.mp h
  obtain ⟨s, hs, h⟩ := bind_eq_ok.mp h
  obtain ⟨sender, -, h⟩ := bind_eq_ok.mp h
  rw [outgoingStream_eq_ok] at hs
  have hrest : ∀ c₂ : Controller, (do
      let stream ← c₂.outgoingStream p.managerIndex.toNat
      let c ← c₂.switchToRelay stream.packetManager src
      let c ← c.countUnacknowledged env now
      c.noteStreamPacket p src) = (.ok c' : Except Fault Controller) → R c₂ c' := by
    intro c₂ h
    obtain ⟨t, -, h⟩ := bind_eq_ok.mp h
    obtain ⟨c₃, hrelay, h⟩ := bind_eq_ok.mp h
    obtain ⟨c₄, hcount, h⟩ := bind_eq_ok.mp h
    exact hR.trans (hR.trans (hR.switchToRelay hrelay) (hR.countUnacknowledged hcount))
      (hR.noteStreamPacket h)
  split at h
  · rename_i htakes
    obtain ⟨c₂, hack, h⟩ := bind_eq_ok.mp h
    exact ⟨c₁, c₂, s, hextras, hs, .inr ⟨htakes, _, hack⟩, hrest c₂ h⟩
  · rename_i htakes
    exact ⟨c₁, c₁, s, hextras, hs, .inl ⟨Bool.not_eq_true _ ▸ htakes, rfl⟩, hrest c₁ h⟩

/-! ## The other events -/

theorem sendInit (hR : HandlerRule env R) (h : c.sendInit env now = .ok c') : R c c' :=
  hR.toSendRule.sendInit (hR.extra ..) hR.draw hR.initSent h

/-- **The rule for every event but a packet.** -/
theorem handle (hR : HandlerRule env R) {e : Event} (he : ∀ p src, e ≠ .packet p src)
    (h : c.handle env now e = .ok c') : R c c' := by
  cases e with
  | packet p src => exact absurd rfl (he p src)
  | sendPacket pkt retryInterval timeout tries => exact hR.sendPacket h
  | sendNopPacket endpointId => exact hR.sendPacket h
  | sendExtra x endpointId => exact pure_eq_ok.mp h ▸ hR.extra ..
  | sendInit => exact hR.sendInit h
  | updateReliablePackets => exact hR.updateReliablePackets (hR.retry c) h
  | trySendOutgoingPackets => exact hR.trySendOutgoingPackets h
  | udpSocket ready => exact pure_eq_ok.mp h ▸ hR.aside rfl
  | tcpSocket key ready => exact pure_eq_ok.mp h ▸ hR.aside rfl

/-! ## A step -/

section Step

variable (hflags : ∀ (c : Controller) d, R c (c.processStreamFlags d))
  (hacked : ∀ {c c' : Controller} {now p pm hasSender},
    c.processAck now p pm hasSender = .ok c' → R c c')
include hflags

theorem processExtraData (hR : HandlerRule env R) {x : WrappedExtra}
    (h : c.processExtraData env now src x = .ok c') : R c c' := by
  unfold Controller.processExtraData at h
  split at h
  · exact pure_eq_ok.mp h ▸ hR.refl c
  · have hnoted : R c (c.noteReceived env x) := hR.aside rfl
    exact hR.trans hnoted (hR.dispatchExtra (fun d _ => hflags _ d) h)

include hacked

/-- A packet, given the acknowledgement stage. -/
theorem freshPacket (hR : HandlerRule env R) (h : c.processFreshPacket env now p src = .ok c') :
    R c c' := by
  obtain ⟨c₁, c₂, s, hextras, -, hack, hrest⟩ := hR.processFreshPacket h
  have hfirst : R c c₁ := hR.processExtras hflags hextras
  rcases hack with ⟨-, rfl⟩ | ⟨-, hasSender, hack⟩
  · exact hR.trans hfirst hrest
  · exact hR.trans (hR.trans hfirst (hacked hack)) hrest

/-- **The rule for a step.** -/
theorem step (hR : HandlerRule env R) (harrived : ∀ (c : Controller) s p, R c (c.arrived s p))
    {e : Time × Event} (h : c.step env e = .ok c') : R c c' := by
  obtain ⟨now, e⟩ := e
  cases e with
  | packet p src =>
      obtain ⟨s, -, ⟨-, rfl⟩ | ⟨-, h⟩⟩ := processIncomingPacket_ok h
      · exact hR.refl c'
      · exact hR.trans (harrived c s p) (hR.freshPacket hflags hacked h)
  | _ => exact hR.handle (by simp) h

end Step

end HandlerRule

end Controller

end Tgvoip
