import Tgvoip.Controller.ThreadMoves
import Tgvoip.Controller.HandlerRule

/-!
# Established — a call is up only after the init was acknowledged

The state is set in five places. Two of them are posted functions, which
run after whatever happened meanwhile; so what is to be known of the state
has to be known of the posted functions too. `Phase` is the part of the
controller that decides on it. Most handlers leave the phase alone.
-/

namespace Tgvoip

open ByteReader Fallible

namespace Task

/-- The function sets the state to `STATE_ESTABLISHED`. -/
def establishes : Task → Bool
  | .setEstablished => true
  | .setEstablishedIfWaiting => true
  | _ => false

end Task

/-- The call is established, or was and is reconnecting. -/
def CallState.isUp : CallState → Bool
  | .established => true
  | .reconnecting => true
  | _ => false

/-- What the state of a call depends on. -/
structure Phase where
  state : CallState
  receivedInitAck : Bool
  /-- The posted functions that establish the call. -/
  establishing : List (Task × Time)
  wasEstablished : Bool
  periodicTimers : List PeriodicTimer

/-- The invariant of a phase. -/
structure Phase.Sound (p : Phase) : Prop where
  up : p.state.isUp = true → p.receivedInitAck = true
  pending : p.establishing ≠ [] → p.receivedInitAck = true
  timers : p.periodicTimers = if p.wasEstablished then PeriodicTimer.all else []

/-- A step that keeps the invariant, and the acknowledgement of the init. -/
structure Phase.Rises (p p' : Phase) : Prop where
  acked : p.receivedInitAck = true → p'.receivedInitAck = true
  sound : p.Sound → p'.Sound

namespace Phase.Rises

variable {p p' p'' : Phase}

theorem of_eq (h : p' = p) : Rises p p' := h ▸ ⟨id, id⟩

theorem refl (p : Phase) : Rises p p := .of_eq rfl

theorem trans (h : Rises p p') (h' : Rises p' p'') : Rises p p'' :=
  ⟨h'.acked ∘ h.acked, h'.sound ∘ h.sound⟩

/-- Another state, which the call is not up in, or was up in before. -/
theorem setState {s : CallState} (h : s.isUp = true → p.state.isUp = true) :
    Rises p { p with state := s } where
  acked := id
  sound := fun hp => ⟨fun hs => hp.up (h hs), hp.pending, hp.timers⟩

/-- The call is established after the acknowledgement, for the first time or
again. -/
theorem establish (hacked : p.receivedInitAck = true) :
    Rises p { p with
      state := .established, wasEstablished := true
      periodicTimers := if p.wasEstablished then p.periodicTimers
        else p.periodicTimers ++ PeriodicTimer.all } where
  acked := id
  sound := by
    intro hp
    refine ⟨fun _ => hacked, fun _ => hacked, ?_⟩
    have htimers := hp.timers
    cases hwas : p.wasEstablished with
    | true => simpa [hwas] using htimers
    | false => simpa [hwas] using htimers

end Phase.Rises

namespace Controller

variable {env : Platform} {c c' : Controller} {now : Time} {src : Int64} {p : Packet}

def phase (c : Controller) : Phase where
  state := c.state
  receivedInitAck := c.receivedInitAck
  establishing := c.posted.filter fun x => x.1.establishes
  wasEstablished := c.wasEstablished
  periodicTimers := c.periodicTimers

/-- The step keeps the invariant of the phase. -/
def Rises (c c' : Controller) : Prop := c.phase.Rises c'.phase

theorem Rises.refl (c : Controller) : Rises c c := Phase.Rises.refl _

theorem Rises.trans {c'' : Controller} (h : Rises c c') (h' : Rises c' c'') : Rises c c'' :=
  Phase.Rises.trans h h'

theorem Rises.of_eq (h : c'.phase = c.phase) : Rises c c' := Phase.Rises.of_eq h

theorem ite_rises {p : Prop} [Decidable p] (h : Rises c c') : Rises c (if p then c' else c) := by
  split
  · exact h
  · exact .refl c

theorem ite_phase {p : Prop} [Decidable p] (h : c'.phase = c.phase) :
    (if p then c' else c).phase = c.phase := by
  split
  · exact h
  · rfl

/-! ## Sending -/

/-- Functions that do not establish the call may be posted. -/
theorem post_phase {task : Task} {delay : Time} (h : task.establishes = false) :
    (c.post task delay).phase = c.phase := by
  simp [phase, post, h]

theorem sendPacketReliably_phase (pkt : PendingOutgoingPacket) (retryInterval timeout : Time)
    (tries : UInt8) : (c.sendPacketReliably pkt retryInterval timeout tries).phase = c.phase := by
  unfold sendPacketReliably
  dsimp only
  split
  · rw [post_phase rfl, post_phase rfl]
    rfl
  · rw [post_phase rfl]
    rfl

theorem phase_rule : SendRule fun c c' => c'.phase = c.phase where
  refl := fun _ => rfl
  trans := fun h h' => h'.trans h
  connect := fun _ => ite_phase rfl
  transmit := by
    intro c c' now pkt e h
    obtain ⟨s, pm, -, -, -, rfl⟩ := transmit_ok h
    rfl
  enqueue := fun _ _ => rfl
  reliably := fun _ _ _ _ _ => sendPacketReliably_phase ..
  noteSealing := fun _ _ => rfl
  prepareNew := fun _ => rfl
  prepareLegacy := fun _ _ => rfl

theorem sendExtra_phase (extra : WrappedExtra) (endpointId : Int64) :
    (c.sendExtra extra endpointId).phase = c.phase := by
  unfold sendExtra
  split <;> rfl

/-- The function is posted again for each packet that is sent. -/
theorem retry_phase {packets : List ReliableOutgoingPacket} (due : List ReliableOutgoingPacket) :
    { c with
      reliablePackets := packets
      posted := c.posted ++ due.map fun (q : ReliableOutgoingPacket) =>
        (Task.updateReliablePackets, q.retryInterval) }.phase = c.phase := by
  have hagain : (due.map fun q : ReliableOutgoingPacket =>
      (Task.updateReliablePackets, q.retryInterval)).filter (fun x => x.1.establishes) = [] := by
    apply List.filter_eq_nil_iff.mpr
    intro x hx
    obtain ⟨q, -, rfl⟩ := List.mem_map.mp hx
    exact Bool.false_ne_true
  unfold phase
  rw [List.filter_append, hagain, List.append_nil]

theorem updateReliablePackets_phase (h : c.updateReliablePackets now = .ok c') :
    c'.phase = c.phase :=
  phase_rule.updateReliablePackets (fun _ => retry_phase) h

theorem fail_rises (err : CallError) : Rises c (c.failWith err) :=
  Phase.Rises.setState (s := .failed) (fun h => nomatch h)

theorem sendPublicEndpointsRequest_phase : c.sendPublicEndpointsRequest.phase = c.phase := by
  unfold sendPublicEndpointsRequest
  split
  · rfl
  · dsimp only
    split <;> split <;> simp [phase, post, Task.establishes]

theorem processStreamFlags_rises (d : ExtraStreamFlags) : Rises c (c.processStreamFlags d) := by
  unfold processStreamFlags
  split
  · exact .refl c
  · exact .of_eq rfl

theorem processAck_phase {pm : PacketManager} {hasSender : Bool}
    (h : c.processAck now p pm hasSender = .ok c') : c'.phase = c.phase := by
  unfold processAck at h
  dsimp only at h
  split at h
  · cases h
  · rw [← pure_eq_ok.mp h]
    have hresumes : ({ c with waitingForAcks := false, dontSendPackets := 10 }.post
        .resumeSending 1).phase = c.phase := post_phase rfl
    exact ite_phase hresumes

theorem phase_of_core (h : c'.core = c.core) : c'.phase = c.phase := by
  have hphase : ∀ c : Controller, c.phase = ⟨c.core.state, c.core.receivedInitAck,
      c.core.posted.filter fun x => x.1.establishes, c.core.wasEstablished, c.core.periodicTimers⟩ :=
    fun _ => rfl
  rw [hphase, hphase, h]

/-- The functions a handler posts establish the call only behind the
acknowledgement. -/
theorem post_rises {task : Task} {delay : Time}
    (h : c.receivedInitAck = true ∨ task = .resendPublicEndpointsRequest) :
    Rises c (c.post task delay) := by
  rcases h with hacked | rfl
  · exact ⟨id, fun hc => ⟨hc.up, fun _ => hacked, hc.timers⟩⟩
  · exact .of_eq (post_phase rfl)

/-- **The handlers keep the phase**, or acknowledge the init. -/
theorem rises_handlers (env : Platform) : HandlerRule env Rises where
  refl := .refl
  trans := .trans
  connect := fun h => .of_eq (phase_rule.connect h)
  transmit := fun h => .of_eq (phase_rule.transmit h)
  enqueue := fun c queue => .of_eq (phase_rule.enqueue c queue)
  reliably := fun c pkt r t n => .of_eq (phase_rule.reliably c pkt r t n)
  noteSealing := fun c e => .of_eq (phase_rule.noteSealing c e)
  prepareNew := fun h => .of_eq (phase_rule.prepareNew h)
  prepareLegacy := fun h h' => .of_eq (phase_rule.prepareLegacy h h')
  aside := fun h => .of_eq (phase_of_core h)
  extra := fun _ _ _ => .of_eq (sendExtra_phase ..)
  count := fun _ _ => .of_eq rfl
  draw := fun _ => .of_eq rfl
  retry := fun _ _ due => .of_eq (retry_phase due)
  initSent := fun _ _ => Phase.Rises.setState (s := .waitInitAck) (fun h => nomatch h)
  fail := fun _ => fail_rises
  ackInit := fun _ _ _ _ => ⟨fun _ => rfl, fun hc => ⟨fun _ => rfl, fun _ => rfl, hc.timers⟩⟩
  audio := fun _ _ => .of_eq rfl
  post := fun _ _ _ => post_rises
  video := fun _ _ => .of_eq rfl
  csd := fun _ _ => .of_eq rfl

theorem handle_rises {e : Event} (h : c.handle env now e = .ok c') : Rises c c' :=
  (rises_handlers env).step (fun _ => processStreamFlags_rises)
    (fun hack => .of_eq (processAck_phase hack)) (fun _ _ _ => .of_eq rfl) (e := (now, e)) h

theorem processIncomingPacket_rises (h : c.processIncomingPacket env now p src = .ok c') :
    Rises c c' := handle_rises (e := .packet p src) h

/-! ## Relays and networks -/

theorem addIPv6Relays_phase : c.addIPv6Relays.phase = c.phase := by
  unfold addIPv6Relays
  exact ite_phase rfl

theorem addTCPRelays_phase (h : c.addTCPRelays = .ok c') : c'.phase = c.phase := by
  unfold addTCPRelays at h
  split at h
  · rw [← pure_eq_ok.mp h]
  · dsimp only at h
    obtain ⟨c₁, hloop, h⟩ := bind_eq_ok.mp h
    rw [← pure_eq_ok.mp h]
    show c₁.phase = c.phase
    have hreset : (if (c.setCurrentEndpointToTCP && !c.useUDP) = true then
        { c with endpoints := c.endpoints.map fun (e : Int64 × Endpoint) => (e.1, resetUdpRelay e.2) }
        else c).phase = c.phase := ite_phase rfl
    refine foldlM_invariant (I := fun c₁ : Controller => c₁.phase = c.phase) ?_ hreset hloop
    intro c₁ relay _ c₂ hc₁ h
    unfold pointToTCP at h
    split at h
    · obtain ⟨current, -, h⟩ := bind_eq_ok.mp h
      rw [← pure_eq_ok.mp h]
      refine Eq.trans (ite_phase ?_) ?_
      · rfl
      · exact hc₁
    · rw [← pure_eq_ok.mp h]
      exact hc₁

theorem evaluateUdpPingResults_phase (h : c.evaluateUdpPingResults = .ok c') :
    c'.phase = c.phase := by
  unfold evaluateUdpPingResults at h
  dsimp only at h
  split at h
  · rw [← pure_eq_ok.mp h]
    rfl
  · split at h
    · rw [← pure_eq_ok.mp h]
      rfl
    · split at h
      · obtain ⟨current, -, h⟩ := bind_eq_ok.mp h
        obtain ⟨c₂, hrelays, h⟩ := bind_eq_ok.mp h
        rw [← pure_eq_ok.mp h]
        exact (addTCPRelays_phase hrelays).trans (ite_phase rfl)
      · split at h
        · have hrelays := addTCPRelays_phase h
          exact hrelays
        · rw [← pure_eq_ok.mp h]
          rfl

theorem pingRound_phase {r r' : PingRound} {key : Int64} (h : pingRound env now r key = .ok r') :
    r'.c.phase = r.c.phase := by
  unfold pingRound at h
  obtain ⟨e, -, h⟩ := bind_eq_ok.mp h
  split at h
  · rw [← pure_eq_ok.mp h]
  · obtain ⟨c₁, hping, h⟩ := bind_eq_ok.mp h
    have hpinged : c₁.phase = r.c.phase := by
      unfold pingIfDue at hping
      split at hping
      · obtain ⟨c₂, hsent, hping⟩ := bind_eq_ok.mp hping
        obtain ⟨e₁, -, hping⟩ := bind_eq_ok.mp hping
        rw [← pure_eq_ok.mp hping]
        exact (phase_rule.sendPacket hsent).trans (sendExtra_phase ..)
      · rw [← pure_eq_ok.mp hping]
    rw [← hpinged]
    dsimp only at h
    generalize e.averageRTT * _ = ping at h
    split at h <;> rw [← pure_eq_ok.mp h]

theorem chooseEndpoint_phase (current : Endpoint) (minPing : Option Time) :
    (c.chooseEndpoint current minPing).phase = c.phase := by
  unfold chooseEndpoint
  split
  · split
    · rfl
    · split
      · rfl
      · exact ite_phase rfl
  · exact ite_phase rfl

theorem sendRelayPings_phase (h : c.sendRelayPings env now = .ok c') : c'.phase = c.phase := by
  unfold sendRelayPings at h
  split at h
  · obtain ⟨preferred, -, h⟩ := bind_eq_ok.mp h
    obtain ⟨current, -, h⟩ := bind_eq_ok.mp h
    obtain ⟨r, hloop, h⟩ := bind_eq_ok.mp h
    obtain ⟨relay, -, h⟩ := bind_eq_ok.mp h
    have hpings : r.c.phase = c.phase :=
      foldlM_invariant (I := fun r : PingRound => r.c.phase = c.phase)
        (fun _ _ _ _ hr hround => (pingRound_phase hround).trans hr) rfl hloop
    rw [← hpings]
    split at h
    · rw [← pure_eq_ok.mp h]
      split
      · exact chooseEndpoint_phase ..
      · exact chooseEndpoint_phase ..
    · rw [← pure_eq_ok.mp h]
      exact chooseEndpoint_phase ..
  · rw [← pure_eq_ok.mp h]

theorem processPeerInfo_phase (myAddr peerAddr peerPort : UInt32) (here : LocalInterface) :
    (c.processPeerInfo myAddr peerAddr peerPort here).phase = c.phase := by
  let c₁ := if c.currentEndpoint = EndpointID.p2pv4 || c.currentEndpoint = EndpointID.lanv4 then
    { c with currentEndpoint := c.preferredRelay } else c
  let c₂ : Controller := { c₁ with endpoints := c₁.endpoints.erase EndpointID.lanv4 }
  have hcurrent : c₂.phase = c.phase := (ite_phase rfl : c₁.phase = c.phase)
  have hlearn : (c₂.learnP2pEndpoint myAddr peerAddr peerPort here).phase = c₂.phase := by
    unfold learnP2pEndpoint
    exact ite_phase (c := { c₂ with endpoints := c₂.endpoints.set EndpointID.p2pv4 _ })
      (sendExtra_phase ..)
  exact (ite_phase hlearn).trans hcurrent

theorem parseRelayPacket_phase {bs : Bytes} {here : LocalInterface}
    (h : c.parseRelayPacket bs here src = .ok c') : c'.phase = c.phase := by
  unfold parseRelayPacket at h
  split at h
  · unfold processSelfInfo at h
    obtain ⟨e, -, h⟩ := bind_eq_ok.mp h
    split at h
    · rw [← pure_eq_ok.mp h]
    · dsimp only at h
      split at h
      · rw [← pure_eq_ok.mp h]
        split
        · exact sendExtra_phase ..
        · rfl
      · rw [← pure_eq_ok.mp h]
        rfl
  · rw [← pure_eq_ok.mp h]
    exact processPeerInfo_phase ..
  · rw [← pure_eq_ok.mp h]

theorem sendDataSavingMode_phase : c.sendDataSavingMode.phase = c.phase := sendExtra_phase ..

theorem leaveNetwork_phase (h : c.leaveNetwork = .ok c') : c'.phase = c.phase := by
  unfold leaveNetwork at h
  obtain ⟨current, -, h⟩ := bind_eq_ok.mp h
  obtain ⟨preferred, -, h⟩ := bind_eq_ok.mp h
  split at h
  · rw [← pure_eq_ok.mp h]
  · dsimp only at h
    let c₁ := if preferred.type = .udpRelay then { c with currentEndpoint := c.preferredRelay } else c
    have hrelay : { c₁ with endpoints := c₁.endpoints.erase EndpointID.lanv4 }.phase = c.phase :=
      (ite_phase rfl : c₁.phase = c.phase)
    refine foldlM_invariant (I := fun c₁ : Controller => c₁.phase = c.phase) ?_ hrelay h
    intro c₁ x _ c₂ hc₁ h
    unfold leaveEndpoint at h
    dsimp only at h
    split at h
    · obtain ⟨relay, -, h⟩ := bind_eq_ok.mp h
      rw [← pure_eq_ok.mp h]
      refine Eq.trans (ite_phase ?_) ?_
      · rfl
      · exact hc₁
    · rw [← pure_eq_ok.mp h]
      exact hc₁

theorem networkHandover_phase (h : c.networkHandover = .ok c') : c'.phase = c.phase := by
  have hrest : ∀ c₁ : Controller,
      ({ (if c₁.allowP2p && c₁.currentEndpoint ≠ 0 then c₁.sendPublicEndpointsRequest
          else c₁).sendDataSavingMode with
        didSendIPv6Endpoint := false }.addIPv6Relays.resetUdpAvailability.resetEndpointPingStats).phase =
        c₁.phase := by
    intro c₁
    have hrelays := addIPv6Relays_phase (c := { (if c₁.allowP2p && c₁.currentEndpoint ≠ 0 then
      c₁.sendPublicEndpointsRequest else c₁).sendDataSavingMode with didSendIPv6Endpoint := false })
    refine Eq.trans hrelays ?_
    refine Eq.trans sendDataSavingMode_phase ?_
    exact ite_phase sendPublicEndpointsRequest_phase
  unfold networkHandover at h
  dsimp only at h
  split at h
  · obtain ⟨c₁, hleft, h⟩ := bind_eq_ok.mp h
    rw [← pure_eq_ok.mp h, hrest]
    have hnetwork := leaveNetwork_phase hleft
    exact hnetwork
  · rw [pure_bind] at h
    rw [← pure_eq_ok.mp h, hrest]
    rfl

theorem setNetworkType_phase (mobile : Bool) (itfName : String) (myIPv6 : NetworkAddress) :
    (c.setNetworkType mobile itfName myIPv6).phase = c.phase := by
  unfold setNetworkType
  dsimp only
  split
  · split
    · rfl
    · rw [post_phase rfl]
      rfl
  · rfl

/-! ## The state -/

theorem establish_rises (hacked : c.receivedInitAck = true) : Rises c c.establish :=
  Phase.Rises.establish hacked

theorem sendMicState_phase : c.sendMicState.phase = c.phase := by
  unfold sendMicState
  split
  · rfl
  · dsimp only
    split
    · rfl
    · exact sendExtra_phase ..

theorem setMicMute_rises (mute inputWorks : Bool) : Rises c (c.setMicMute mute inputWorks) := by
  unfold setMicMute
  split
  · exact .refl c
  · have hmuted : Rises c { c with micMuted := mute } := .of_eq rfl
    dsimp only
    split
    · exact hmuted.trans (fail_rises .audioIo)
    · split
      · exact hmuted.trans (.of_eq (post_phase rfl))
      · exact hmuted

/-- Only a call that is established is reconnecting. -/
theorem noteSilence_rises : Rises c (c.noteSilence now) := by
  unfold noteSilence
  split
  · rename_i hsilent
    simp only [Bool.and_eq_true, decide_eq_true_eq] at hsilent
    have hlost : Rises c { c with
        state := .reconnecting, wasReconnecting := true
        needRate := c.needRate || c.wantsRate NeedRateFlag.reconnecting } :=
      Phase.Rises.setState (s := .reconnecting) fun _ => congrArg CallState.isUp hsilent.1
    exact hlost.trans (.of_eq rfl)
  · exact .refl c

theorem leaveP2p_phase : (c.leaveP2p now).phase = c.phase := by
  let c₁ : Controller := { c with
    currentEndpoint := c.preferredRelay
    endpoints := c.endpoints.map fun (e : Int64 × Endpoint) =>
      (e.1, if e.2.isP2P then e.2.resetPingStats else e.2) }
  let c₂ := if c₁.allowP2p then c₁.sendPublicEndpointsRequest else c₁
  have hasks : c₂.phase = c₁.phase := ite_phase sendPublicEndpointsRequest_phase
  have htells : c₂.updateDataSavingState.sendDataSavingMode.phase = c₂.phase :=
    sendDataSavingMode_phase
  exact htells.trans hasks

theorem updateAudioBitrate_rises {audioWorks : Bool}
    (h : c.updateAudioBitrate now audioWorks = .ok c') : Rises c c' := by
  let c₁ := (if audioWorks then c else c.failWith .audioIo).noteSilence now
  have hstart : Rises c c₁ := by
    refine .trans ?_ noteSilence_rises
    split
    · exact .refl c
    · exact fail_rises .audioIo
  apply hstart.trans
  unfold updateAudioBitrate at h
  change (if (c₁.state = .established || c₁.state = .reconnecting) &&
    now - c₁.lastRecvPacketTime ≥ c₁.config.recvTimeout then _ else pure c₁) = _ at h
  split at h
  · obtain ⟨current, -, h⟩ := bind_eq_ok.mp h
    rw [← pure_eq_ok.mp h]
    split
    · exact fail_rises .timeout
    · exact .of_eq leaveP2p_phase
  · rw [← pure_eq_ok.mp h]
    exact .refl _

theorem runInitTimeout_rises : Rises c c.runInitTimeout := by
  unfold runInitTimeout
  apply ite_rises
  have hcancelled : Rises c { c with initTimeoutPosted := false } := .of_eq rfl
  exact hcancelled.trans (fail_rises .timeout)

/-- A reconnecting call was acknowledged. -/
theorem noteDatagram_rises {address : NetworkAddress} {port : UInt16} (hc : c.phase.Sound)
    (h : c.noteDatagram now src address port = .ok c') : Rises c c' := by
  unfold noteDatagram moveP2pEndpoint at h
  obtain ⟨e, -, h⟩ := bind_eq_ok.mp h
  have hheard : Rises c (if { c with lastRecvPacketTime := now }.state = .reconnecting then
      { c with lastRecvPacketTime := now }.establish else { c with lastRecvPacketTime := now }) := by
    split
    · rename_i hreconnecting
      have hacked : c.receivedInitAck = true := hc.up (congrArg CallState.isUp hreconnecting)
      have hnoted : Rises c { c with lastRecvPacketTime := now } := .of_eq rfl
      exact hnoted.trans (establish_rises hacked)
    · exact .of_eq rfl
  apply hheard.trans
  dsimp only at h
  split at h
  · rw [← pure_eq_ok.mp h]
    exact .refl _
  · rw [← pure_eq_ok.mp h]
    exact ite_rises (.of_eq rfl)

theorem receive_rises {address : NetworkAddress} {port : UInt16} {packets : List Packet}
    (hc : c.phase.Sound) (h : c.receive env now src address port packets = .ok c') : Rises c c' := by
  obtain ⟨c₁, hnote, h⟩ := bind_eq_ok.mp h
  apply (noteDatagram_rises hc hnote).trans
  exact foldlM_invariant (I := fun c₂ : Controller => Rises c₁ c₂)
    (fun _ _ _ _ hc₂ hp => hc₂.trans (processIncomingPacket_rises hp)) (.refl c₁) h

/-- A posted function that establishes the call runs after the acknowledgement. -/
theorem run_rises {task : Task} (hacked : task.establishes = true → c.receivedInitAck = true)
    (h : c.run now task = .ok c') : Rises c c' := by
  cases task with
  | updateReliablePackets => exact .of_eq (updateReliablePackets_phase h)
  | resumeSending => exact .of_eq (pure_eq_ok.mp h ▸ rfl)
  | setEstablished => exact pure_eq_ok.mp h ▸ establish_rises (hacked rfl)
  | setEstablishedIfWaiting => exact pure_eq_ok.mp h ▸ ite_rises (establish_rises (hacked rfl))
  | resendPublicEndpointsRequest =>
      exact .of_eq (pure_eq_ok.mp h ▸ ite_phase sendPublicEndpointsRequest_phase)
  | networkHandover => exact .of_eq (networkHandover_phase h)
  | sendMicState => exact .of_eq (pure_eq_ok.mp h ▸ sendMicState_phase)

end Controller

namespace MessageThread

open Controller

variable {env : Platform} {t t' : MessageThread} {e : Time × ThreadEvent}

/-- The invariant of a call: its phase is sound, and a function that waits to
establish it was posted after the acknowledgement. -/
structure Acknowledged (t : MessageThread) : Prop where
  phase : t.c.phase.Sound
  queue : ∀ q ∈ t.queue, q.1.establishes = true → t.c.receivedInitAck = true

theorem handle_rises {c' : Controller} (ht : t.Acknowledged)
    (h : t.handle env e.1 e.2 = .ok c') : t.c.Rises c' := by
  obtain ⟨now, e⟩ := e
  cases e with
  | handler e => exact Controller.handle_rises h
  | datagram src address port packets => exact receive_rises ht.phase h
  | relayPacket src bs here => exact .of_eq (parseRelayPacket_phase h)
  | posted i =>
      rw [handle] at h
      split at h
      · rw [← pure_eq_ok.mp h]
        exact .refl _
      · rename_i task hdue
        refine run_rises (fun hestablishes => ?_) h
        -- the function comes from the queue
        obtain ⟨q, hq, hready⟩ := Option.bind_eq_some_iff.mp hdue
        split at hready
        · cases hready
          exact ht.queue q (List.mem_of_getElem? hq) hestablishes
        · cases hready
  | initTimeout => exact pure_eq_ok.mp h ▸ runInitTimeout_rises
  | updateAudioBitrate audioWorks =>
      rw [handle] at h
      split at h
      · exact updateAudioBitrate_rises h
      · rw [← pure_eq_ok.mp h]
        exact .refl _
  | sendRelayPings => exact .of_eq (sendRelayPings_phase h)
  | sendUdpPings => exact .of_eq (pure_eq_ok.mp h ▸ rfl)
  | evaluateUdpPingResults => exact .of_eq (evaluateUdpPingResults_phase h)
  | resetUdpAvailability => exact .of_eq (pure_eq_ok.mp h ▸ rfl)
  | addTCPRelays => exact .of_eq (addTCPRelays_phase h)
  | addIPv6Relays => exact .of_eq (pure_eq_ok.mp h ▸ addIPv6Relays_phase)
  | setNetworkType mobile itfName myIPv6 =>
      exact .of_eq (pure_eq_ok.mp h ▸ setNetworkType_phase ..)
  | setMicMute mute inputWorks => exact pure_eq_ok.mp h ▸ setMicMute_rises ..
  | deviceFails err => exact pure_eq_ok.mp h ▸ fail_rises _
  | closeSocket key => exact .of_eq (pure_eq_ok.mp h ▸ rfl)

theorem Acknowledged.step (ht : t.Acknowledged) (h : t.step env e = .ok t') : t'.Acknowledged := by
  have hrises := handle_rises ht (step_c h)
  obtain ⟨c, -, h⟩ := bind_eq_ok.mp h
  cases pure_eq_ok.mp h
  have hsound := hrises.sound ht.phase
  refine ⟨hsound, ?_⟩
  intro q hq hestablishes
  rcases List.mem_append.mp hq with hold | hnew
  · -- it waited before the event
    have hwaited : q ∈ t.queue := by
      unfold rest at hold
      split at hold
      · split at hold
        · exact List.mem_of_mem_eraseIdx hold
        · exact hold
      · exact hold
    exact hrises.acked (ht.queue q hwaited hestablishes)
  · -- it was posted by the event
    obtain ⟨x, hx, rfl⟩ := List.mem_map.mp hnew
    have hmem : x ∈ c.phase.establishing :=
      List.mem_filter.mpr ⟨List.mem_of_mem_drop hx, hestablishes⟩
    exact hsound.pending (List.ne_nil_of_mem hmem)

/-- A call as `Start` finds it. -/
def start (env : Platform) (config : Config) (callID : Vector UInt8 16) (layer : Int)
    (endpoints : List Endpoint) (allowP2p : Bool) : MessageThread where
  c := (Controller.new env config callID layer).setRemoteEndpoints endpoints allowP2p layer

theorem start_acknowledged (env : Platform) (config : Config) (callID : Vector UInt8 16)
    (layer : Int) (endpoints : List Endpoint) (allowP2p : Bool) :
    (start env config callID layer endpoints allowP2p).Acknowledged := by
  have hendpoints : ∀ (endpoints : List Endpoint) (c : Controller),
      (endpoints.foldl addRemoteEndpoint c).phase = c.phase := by
    intro endpoints
    induction endpoints with
    | nil =>
        intro c
        rfl
    | cons e endpoints ih =>
        intro c
        exact ih (c.addRemoteEndpoint e)
  have hphase : (start env config callID layer endpoints allowP2p).c.phase =
      (Controller.new env config callID layer).phase :=
    addIPv6Relays_phase.trans (hendpoints endpoints _)
  refine ⟨?_, nofun⟩
  rw [hphase]
  exact ⟨nofun, fun h => absurd rfl h, rfl⟩

/-- **A call is up only after the init was acknowledged**, whatever its handlers
and posted functions do in whatever order; and the periodic timers are posted
at most once. -/
theorem up_after_ack {env : Platform} {config : Config} {callID : Vector UInt8 16} {layer : Int}
    {endpoints : List Endpoint} {allowP2p : Bool} {events : List (Time × ThreadEvent)}
    (h : events.foldlM (step env) (start env config callID layer endpoints allowP2p) = .ok t) :
    (t.c.state = .established ∨ t.c.state = .reconnecting → t.c.receivedInitAck = true) ∧
      (t.c.periodicTimers = [] ∨ t.c.periodicTimers = PeriodicTimer.all) := by
  have ht : t.Acknowledged :=
    foldlM_invariant (fun _ _ _ _ ht hstep => ht.step hstep) (start_acknowledged ..) h
  constructor
  · rintro (hup | hup)
    · exact ht.phase.up (congrArg CallState.isUp hup)
    · exact ht.phase.up (congrArg CallState.isUp hup)
  · have htimers : t.c.periodicTimers = if t.c.wasEstablished then PeriodicTimer.all else [] :=
      ht.phase.timers
    rw [htimers]
    split
    · exact .inr rfl
    · exact .inl rfl

/-! ## On fixed inputs -/

/-- A call over one relay that is established, loses the peer, and hears from it
again. -/
def lostAndFound : List (Time × ThreadEvent) :=
  [(0, .handler .sendInit), fromRelay 1 1 (sampleInit []),
    fromRelay 1 2 { seq := 2, extraSignaling := [audioAck] },
    fromRelay 1 3 { seq := 1, streamId := StreamId.audio, data := some [0] },
    -- the function posted with the audio packet
    (4, .posted 3), (10, .updateAudioBitrate true), fromRelay 1 11 { seq := 3 }]

theorem up_after_ack_lostAndFound :
    ∃ t, lostAndFound.foldlM (step samplePlatform)
        (start samplePlatform {} (Vector.replicate 16 0) 110 [{ id := 1, type := .udpRelay }] false) =
          .ok t ∧ t.c.wasReconnecting = true ∧
      (t.c.state = .established ∨ t.c.state = .reconnecting → t.c.receivedInitAck = true) ∧
      (t.c.periodicTimers = [] ∨ t.c.periodicTimers = PeriodicTimer.all) := by
  have hruns : (lostAndFound.foldlM (step samplePlatform) (start samplePlatform {}
      (Vector.replicate 16 0) 110 [{ id := 1, type := .udpRelay }] false)).map
        (fun t => (t.c.state, t.c.wasReconnecting)) = .ok (.established, true) := by decide +kernel
  obtain ⟨t, hrun, hvalues⟩ := exists_of_map_eq_ok hruns
  exact ⟨t, hrun, (Prod.mk.inj hvalues).2, up_after_ack hrun⟩

end MessageThread

end Tgvoip
