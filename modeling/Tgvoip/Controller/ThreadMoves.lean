import Tgvoip.Controller.Bearings
import Tgvoip.Controller.MessageThread

/-!
# ThreadMoves — the moves of the message thread

Every event of the message thread makes `Move`s, but for the handover to
another network, which erases an endpoint before it looks for another.
-/

namespace Tgvoip

open ByteReader Fallible

namespace Endpoints

/-- An entry with the right id stays one. -/
theorem at?_insertAll {m : Endpoints} {key : Int64} {e : Endpoint} (es : List Endpoint)
    (he : m.at? key = some e) (hid : e.id = key) :
    ∃ e', (m.insertAll es).at? key = some e' ∧ e'.id = key := by
  induction es generalizing m e with
  | nil => exact ⟨e, he, hid⟩
  | cons x es ih =>
      by_cases hx : x.id = key
      · exact ih (m := m.set x.id x) (by rw [at?_set, if_pos hx]) hx
      · exact ih (m := m.set x.id x) (by rw [at?_set, if_neg hx, he]) hid

/-- What is inserted is there. -/
theorem at?_insertAll_of_mem {m : Endpoints} {es : List Endpoint} {r : Endpoint} (hr : r ∈ es) :
    ∃ e, (m.insertAll es).at? r.id = some e ∧ e.id = r.id := by
  induction es generalizing m with
  | nil => cases hr
  | cons x es ih =>
      rcases List.mem_cons.mp hr with rfl | hr
      · exact at?_insertAll (m := m.set r.id r) es (by rw [at?_set, if_pos rfl]) rfl
      · exact ih (m := m.set x.id x) hr

end Endpoints

theorem Moves.insertAll {late wild : Prop} (b : Bearings) (es : List Endpoint) :
    Moves late wild b { b with endpoints := b.endpoints.insertAll es } := by
  induction es generalizing b with
  | nil => exact .refl b
  | cons e es ih => exact (Moves.single (.insert b e)).trans (ih _)

namespace Controller

variable {env : Platform} {c c' : Controller} {now : Time} {src : Int64} {late wild : Prop}

/-! ## The table -/

theorem addIPv6Relays_moves : Moves late wild c.bearings c.addIPv6Relays.bearings := by
  unfold addIPv6Relays
  split
  · exact .insertAll c.bearings _
  · exact .refl _

theorem sweep_moves (f : Int64 × Endpoint → Endpoint) (hid : ∀ x, (f x).id = x.2.id) :
    Moves late wild c.bearings
      { c with endpoints := c.endpoints.map fun (x : Int64 × Endpoint) => (x.1, f x) }.bearings :=
  .single (.sweep c.bearings f hid)

theorem resetUdpAvailability_moves : Moves late wild c.bearings c.resetUdpAvailability.bearings :=
  sweep_moves (fun x => { x.2 with udpPongCount := 0 }) fun _ => rfl

/-- What the loop of `AddTCPRelays` re-points to is one of the relays. -/
theorem pointToTCP_loop {relays : List Endpoint} (h : relays.foldlM pointToTCP c = .ok c') :
    c'.bearings = c.bearings ∨ ∃ r ∈ relays, c'.bearings =
      { c.bearings with currentEndpoint := r.id, preferredRelay := r.id } := by
  refine foldlM_invariant (I := fun c₁ : Controller => c₁.bearings = c.bearings ∨
    ∃ r ∈ relays, c₁.bearings =
      { c.bearings with currentEndpoint := r.id, preferredRelay := r.id }) ?_ (.inl rfl) h
  intro c₁ r hr c₂ hc₁ h
  unfold pointToTCP at h
  split at h
  · obtain ⟨current, -, h⟩ := bind_eq_ok.mp h
    rw [← pure_eq_ok.mp h]
    split
    · refine .inr ⟨r, hr, ?_⟩
      rcases hc₁ with hsame | ⟨r', -, hsame⟩
      · exact congrArg (fun b : Bearings =>
          { b with currentEndpoint := r.id, preferredRelay := r.id }) hsame
      · exact congrArg (fun b : Bearings =>
          { b with currentEndpoint := r.id, preferredRelay := r.id }) hsame
    · exact hc₁
  · rw [← pure_eq_ok.mp h]
    exact hc₁

theorem resetUdpRelay_id (e : Endpoint) : (resetUdpRelay e).id = e.id := by
  unfold resetUdpRelay
  split <;> rfl

/-- The relays are in the table when the loop has pointed to one of them. -/
theorem addTCPRelays_moves (h : c.addTCPRelays = .ok c') :
    Moves late wild c.bearings c'.bearings := by
  unfold addTCPRelays at h
  split at h
  · rw [← pure_eq_ok.mp h]
    exact .refl _
  · dsimp only at h
    obtain ⟨c₂, hloop, h⟩ := bind_eq_ok.mp h
    rw [← pure_eq_ok.mp h]
    have hreset : Moves late wild c.bearings (if (c.setCurrentEndpointToTCP && !c.useUDP) = true then
        { c with endpoints := c.endpoints.map fun e => (e.1, resetUdpRelay e.2) } else c).bearings :=
      ite_moves (sweep_moves (fun x => resetUdpRelay x.2) fun x => resetUdpRelay_id x.2)
    apply hreset.trans
    generalize (if (c.setCurrentEndpointToTCP && !c.useUDP) = true then
      { c with endpoints := c.endpoints.map fun e => (e.1, resetUdpRelay e.2) } else c) = c₁ at hloop
    generalize (c.endpoints.filter (·.2.type == .udpRelay)).map (·.2.tcpRelay) = relays at hloop
    -- inserted first, the relays are there when one of them is pointed to
    have hinsert : Moves late wild c₁.bearings _ := .insertAll c₁.bearings relays
    apply hinsert.trans
    rcases pointToTCP_loop hloop with hsame | ⟨r, hr, hpoint⟩
    · exact .of_eq (congrArg (fun b : Bearings =>
        { b with endpoints := b.endpoints.insertAll relays }) hsame)
    · obtain ⟨e, he, hid⟩ := Endpoints.at?_insertAll_of_mem (m := c₁.endpoints) hr
      refine .trans (.trans (.single (.adopt _ he)) (.single (.prefer _ he))) (.of_eq ?_)
      rw [hid]
      exact congrArg (fun b : Bearings =>
        { b with endpoints := b.endpoints.insertAll relays }) hpoint

theorem evaluateUdpPingResults_moves (h : c.evaluateUdpPingResults = .ok c') :
    Moves late wild c.bearings c'.bearings := by
  unfold evaluateUdpPingResults at h
  dsimp only at h
  split at h
  · rw [← pure_eq_ok.mp h]
    have hdirect : Moves late wild c.bearings { c with udpThroughProxy := false }.bearings :=
      .of_eq rfl
    exact hdirect.trans resetUdpAvailability_moves
  · split at h
    · rw [← pure_eq_ok.mp h]
      exact .of_eq rfl
    · split at h
      · obtain ⟨current, -, h⟩ := bind_eq_ok.mp h
        obtain ⟨c₂, hrelays, h⟩ := bind_eq_ok.mp h
        rw [← pure_eq_ok.mp h]
        refine .trans (Moves.trans (.of_eq ?_) (addTCPRelays_moves hrelays)) (.of_eq rfl)
        exact ite_bearings rfl
      · split at h
        · refine .trans ?_ (addTCPRelays_moves h)
          exact .of_eq rfl
        · rw [← pure_eq_ok.mp h]
          exact .of_eq rfl

/-! ## Pings -/

theorem sendDataSavingMode_bearings : c.sendDataSavingMode.bearings = c.bearings :=
  sendExtra_bearings ..

theorem pingIfDue_moves {key : Int64} {e : Endpoint} (h : c.pingIfDue env now key e = .ok c') :
    Moves late wild c.bearings c'.bearings := by
  unfold pingIfDue at h
  split at h
  · obtain ⟨c₁, hsent, h⟩ := bind_eq_ok.mp h
    obtain ⟨e₁, he, h⟩ := bind_eq_ok.mp h
    rw [endpointAt_eq_ok] at he
    rw [← pure_eq_ok.mp h]
    have hextra : Moves late wild c.bearings (c.sendExtra { d := .ping } e.id).bearings :=
      .of_eq (sendExtra_bearings ..)
    apply (hextra.trans ((moves_rule late wild).sendPacket hsent)).trans
    exact .single (.touch c₁.bearings he rfl)
  · rw [← pure_eq_ok.mp h]
    exact .refl _

theorem pingRound_moves {r r' : PingRound} {key : Int64} (h : pingRound env now r key = .ok r') :
    Moves late wild r.c.bearings r'.c.bearings := by
  unfold pingRound at h
  obtain ⟨e, -, h⟩ := bind_eq_ok.mp h
  split at h
  · rw [← pure_eq_ok.mp h]
    exact .refl _
  · obtain ⟨c₁, hping, h⟩ := bind_eq_ok.mp h
    apply (pingIfDue_moves hping).trans
    have hround : r'.c = c₁ := by
      dsimp only at h
      generalize e.averageRTT * _ = ping at h
      split at h
      · exact pure_eq_ok.mp h ▸ rfl
      · exact pure_eq_ok.mp h ▸ rfl
    exact .of_eq (congrArg bearings hround)

/-- The endpoints of the peer's own are taken by their keys. -/
theorem chooseEndpoint_moves (current : Endpoint) (minPing : Option Time) :
    Moves late wild c.bearings (c.chooseEndpoint current minPing).bearings := by
  unfold chooseEndpoint
  split
  · split
    · exact .refl _
    · rename_i p2p hp2p
      split
      · rename_i hlan
        obtain ⟨lan, hlan, -⟩ := (Option.any_eq_true ..).mp hlan
        exact .single (.point c.bearings hlan)
      · split
        · exact .single (.point c.bearings hp2p)
        · exact .refl _
  · exact ite_moves toPreferred_moves

theorem sendRelayPings_moves (h : c.sendRelayPings env now = .ok c') :
    Moves late wild c.bearings c'.bearings := by
  unfold sendRelayPings at h
  split at h
  · obtain ⟨preferred, -, h⟩ := bind_eq_ok.mp h
    obtain ⟨current, -, h⟩ := bind_eq_ok.mp h
    obtain ⟨r, hloop, h⟩ := bind_eq_ok.mp h
    obtain ⟨relay, hrelay, h⟩ := bind_eq_ok.mp h
    rw [endpointAt_eq_ok] at hrelay
    have hpings : Moves late wild c.bearings r.c.bearings :=
      foldlM_invariant (I := fun r : PingRound => Moves late wild c.bearings r.c.bearings)
        (fun _ _ _ _ hr hround => hr.trans (pingRound_moves hround)) (.refl _) hloop
    apply hpings.trans
    split at h
    · -- another relay is preferred, and taken if the current endpoint is a relay
      have hprefer : Moves late wild r.c.bearings { r.c with preferredRelay := relay.id }.bearings :=
        .single (.prefer _ hrelay)
      apply hprefer.trans
      rw [← pure_eq_ok.mp h]
      split
      · exact toPreferred_moves.trans (chooseEndpoint_moves ..)
      · exact chooseEndpoint_moves ..
    · rw [← pure_eq_ok.mp h]
      exact chooseEndpoint_moves ..
  · rw [← pure_eq_ok.mp h]
    exact .refl _

/-! ## The answers of the relays -/

theorem processSelfInfo_moves {myIP : { bs : Bytes // bs.length = 16 }} {here : LocalInterface}
    (h : c.processSelfInfo myIP here src = .ok c') : Moves late wild c.bearings c'.bearings := by
  unfold processSelfInfo at h
  obtain ⟨e, he, h⟩ := bind_eq_ok.mp h
  rw [endpointAt_eq_ok] at he
  split at h
  · rw [← pure_eq_ok.mp h]
    exact .refl _
  · dsimp only at h
    have hcount : Moves late wild c.bearings _ := .single (.touch c.bearings he
      (show { e with udpPongCount := e.udpPongCount + 1 }.id = e.id from rfl))
    apply hcount.trans
    split at h
    · rw [← pure_eq_ok.mp h]
      split
      · exact .of_eq (sendExtra_bearings ..)
      · exact .of_eq rfl
    · rw [← pure_eq_ok.mp h]
      exact .of_eq rfl

theorem learnP2pEndpoint_moves {myAddr peerAddr peerPort : UInt32} {here : LocalInterface} :
    Moves late wild c.bearings (c.learnP2pEndpoint myAddr peerAddr peerPort here).bearings := by
  let p2p : Endpoint :=
    { id := EndpointID.p2pv4, port := peerPort.toUInt16, address := .ipv4 peerAddr
      type := .udpP2PInet }
  let c₁ : Controller := { c with endpoints := c.endpoints.set EndpointID.p2pv4 p2p }
  have hinsert : Moves late wild c.bearings c₁.bearings := .single (.insert c.bearings p2p)
  have htold : (if myAddr = peerAddr then
      c₁.sendExtra { d := .lanEndpoint { address := here.address, port := here.port } } 0
      else c₁).bearings = c₁.bearings := ite_bearings (sendExtra_bearings ..)
  exact hinsert.trans (.of_eq htold)

/-- The LAN endpoint is not the current one any more when it is erased. -/
theorem processPeerInfo_moves {myAddr peerAddr peerPort : UInt32} {here : LocalInterface}
    (hwild : wild ∨ c.preferredRelay ≠ EndpointID.lanv4) :
    Moves late wild c.bearings (c.processPeerInfo myAddr peerAddr peerPort here).bearings := by
  let c₁ := if c.currentEndpoint = EndpointID.p2pv4 || c.currentEndpoint = EndpointID.lanv4 then
    { c with currentEndpoint := c.preferredRelay } else c
  have hcurrent : Moves late wild c.bearings c₁.bearings := ite_moves toPreferred_moves
  have hsafe : wild ∨ (c₁.currentEndpoint ≠ EndpointID.lanv4 ∧
      c₁.preferredRelay ≠ EndpointID.lanv4) := by
    apply hwild.imp_right
    intro hpreferred
    by_cases hleft : (c.currentEndpoint = EndpointID.p2pv4 || c.currentEndpoint = EndpointID.lanv4) = true
    · rw [show c₁ = { c with currentEndpoint := c.preferredRelay } from if_pos hleft]
      exact ⟨hpreferred, hpreferred⟩
    · rw [show c₁ = c from if_neg hleft]
      simp only [Bool.or_eq_true, decide_eq_true_eq, not_or] at hleft
      exact ⟨hleft.2, hpreferred⟩
  have herase : Moves late wild c₁.bearings
      { c₁ with endpoints := c₁.endpoints.erase EndpointID.lanv4 }.bearings :=
    .single (.erase c₁.bearings EndpointID.lanv4 hsafe)
  exact (hcurrent.trans herase).trans (ite_moves learnP2pEndpoint_moves)

/-- The datagram is a peer info, which erases the LAN endpoint. -/
def isPeerInfo (bs : Bytes) : Bool :=
  match RelayAnswer.parse bs with
  | some (.peerInfo ..) => true
  | _ => false

theorem parseRelayPacket_moves {bs : Bytes} {here : LocalInterface}
    (hwild : wild ∨ (isPeerInfo bs && c.preferredRelay == EndpointID.lanv4) = false)
    (h : c.parseRelayPacket bs here src = .ok c') : Moves late wild c.bearings c'.bearings := by
  unfold parseRelayPacket at h
  split at h
  · exact processSelfInfo_moves h
  · rename_i hparse
    rw [← pure_eq_ok.mp h]
    apply processPeerInfo_moves
    apply hwild.imp_right
    intro hno
    simpa [isPeerInfo, hparse] using hno
  · rw [← pure_eq_ok.mp h]
    exact .refl _

/-! ## The state -/

theorem failWith_moves (err : CallError) :
    Moves late wild c.bearings (c.failWith err).bearings := fail_moves err

theorem establish_moves (hlate : late ∨ c.state ≠ .failed) :
    Moves late wild c.bearings c.establish.bearings :=
  .single (.state c.bearings .established (hlate.imp_right .inl))

theorem sendMicState_bearings : c.sendMicState.bearings = c.bearings := by
  unfold sendMicState
  split
  · rfl
  · dsimp only
    split
    · rfl
    · exact sendExtra_bearings ..

theorem setMicMute_moves (mute inputWorks : Bool) :
    Moves late wild c.bearings (c.setMicMute mute inputWorks).bearings := by
  unfold setMicMute
  split
  · exact .refl _
  · have hmuted : Moves late wild c.bearings { c with micMuted := mute }.bearings := .of_eq rfl
    dsimp only
    split
    · exact hmuted.trans (failWith_moves .audioIo)
    · split
      · exact .of_eq rfl
      · exact hmuted

theorem noteSilence_moves : Moves late wild c.bearings (c.noteSilence now).bearings := by
  unfold noteSilence
  split
  · rename_i hsilent
    simp only [Bool.and_eq_true, decide_eq_true_eq] at hsilent
    let c₁ : Controller := { c with
      state := .reconnecting, wasReconnecting := true
      needRate := c.needRate || c.wantsRate NeedRateFlag.reconnecting }
    have hlost : Moves late wild c.bearings c₁.bearings :=
      .single (.state c.bearings .reconnecting
        (.inr (.inl fun hfailed => nomatch hsilent.1.symm.trans hfailed)))
    exact hlost.trans resetUdpAvailability_moves
  · exact .refl _

theorem leaveP2p_moves : Moves late wild c.bearings (c.leaveP2p now).bearings := by
  let c₁ : Controller := { c with
    currentEndpoint := c.preferredRelay
    endpoints := c.endpoints.map fun (e : Int64 × Endpoint) =>
      (e.1, if e.2.isP2P then e.2.resetPingStats else e.2) }
  let c₂ := if c₁.allowP2p then c₁.sendPublicEndpointsRequest else c₁
  have hsweep : Moves late wild c.bearings c₁.bearings := by
    refine toPreferred_moves.trans (sweep_moves (c := { c with currentEndpoint := c.preferredRelay })
      (fun x => if x.2.isP2P then x.2.resetPingStats else x.2) ?_)
    intro x
    split <;> rfl
  have hasks : Moves late wild c₁.bearings c₂.bearings :=
    ite_moves (.of_eq sendPublicEndpointsRequest_bearings)
  have htells : c₂.updateDataSavingState.sendDataSavingMode.bearings = c₂.bearings :=
    sendDataSavingMode_bearings
  exact (hsweep.trans hasks).trans (.of_eq htells)

theorem updateAudioBitrate_moves {audioWorks : Bool}
    (h : c.updateAudioBitrate now audioWorks = .ok c') :
    Moves late wild c.bearings c'.bearings := by
  let c₁ := (if audioWorks then c else c.failWith .audioIo).noteSilence now
  have hstart : Moves late wild c.bearings c₁.bearings := by
    refine .trans ?_ noteSilence_moves
    split
    · exact .refl _
    · exact failWith_moves .audioIo
  apply hstart.trans
  unfold updateAudioBitrate at h
  change (if (c₁.state = .established || c₁.state = .reconnecting) &&
    now - c₁.lastRecvPacketTime ≥ c₁.config.recvTimeout then _ else pure c₁) = _ at h
  split at h
  · obtain ⟨current, -, h⟩ := bind_eq_ok.mp h
    rw [← pure_eq_ok.mp h]
    split
    · exact failWith_moves .timeout
    · exact leaveP2p_moves
  · rw [← pure_eq_ok.mp h]
    exact .refl _

theorem runInitTimeout_moves : Moves late wild c.bearings c.runInitTimeout.bearings := by
  unfold runInitTimeout
  apply ite_moves
  exact fail_moves .timeout

/-! ## Datagrams -/

theorem moveP2pEndpoint_moves {address : NetworkAddress} {port : UInt16}
    (h : c.moveP2pEndpoint src address port = .ok c') :
    Moves late wild c.bearings c'.bearings := by
  unfold moveP2pEndpoint at h
  obtain ⟨e, he, h⟩ := bind_eq_ok.mp h
  rw [endpointAt_eq_ok] at he
  dsimp only at h
  split at h
  · rw [← pure_eq_ok.mp h]
    exact .refl _
  · rw [← pure_eq_ok.mp h]
    exact ite_moves (.single (.touch c.bearings he rfl))

theorem noteDatagram_moves {address : NetworkAddress} {port : UInt16}
    (h : c.noteDatagram now src address port = .ok c') :
    Moves late wild c.bearings c'.bearings := by
  unfold noteDatagram at h
  refine .trans ?_ (moveP2pEndpoint_moves h)
  split
  · rename_i hreconnecting
    have hheard : Moves late wild c.bearings { c with lastRecvPacketTime := now }.bearings :=
      .of_eq rfl
    exact hheard.trans
      (establish_moves (.inr fun hfailed => nomatch hreconnecting.symm.trans hfailed))
  · exact .of_eq rfl

/-- One of the packets makes the controller switch to the relay they came from. -/
def someSwitches (env : Platform) (now : Time) (src : Int64) : Controller → List Packet → Bool
  | _, [] => false
  | c, p :: packets =>
    c.packetSwitches env now src p ||
      match c.processIncomingPacket env now p src with
      | .ok c' => someSwitches env now src c' packets
      | .error _ => false

theorem processPackets_moves {packets : List Packet}
    (hwild : wild ∨ someSwitches env now src c packets = false)
    (h : packets.foldlM (fun c p => c.processIncomingPacket env now p src) c = .ok c') :
    Moves late wild c.bearings c'.bearings := by
  induction packets generalizing c with
  | nil =>
      rw [← pure_eq_ok.mp h]
      exact .refl _
  | cons p packets ih =>
      rw [List.foldlM_cons] at h
      obtain ⟨c₁, hp, h⟩ := bind_eq_ok.mp h
      rw [someSwitches, hp, Bool.or_eq_false_iff] at hwild
      have hfirst := hwild.imp_right And.left
      have hothers := hwild.imp_right And.right
      exact (processIncomingPacket_moves hfirst hp).trans (ih hothers h)

/-! ## Another network -/

/-- The handover leaves the network, and makes moves behind that. -/
theorem networkHandover_ok (late wild : Prop) (h : c.networkHandover = .ok c') :
    ∃ c₁, ((c.currentEndpoint = 0 ∧ c₁.bearings = c.bearings) ∨
        (c.currentEndpoint ≠ 0 ∧ { c with wasNetworkHandover := true }.leaveNetwork = .ok c₁)) ∧
      Moves late wild c₁.bearings c'.bearings := by
  have hrest : ∀ c₁ : Controller, Moves late wild c₁.bearings
      ({ (if c₁.allowP2p && c₁.currentEndpoint ≠ 0 then c₁.sendPublicEndpointsRequest
          else c₁).sendDataSavingMode with
        didSendIPv6Endpoint := false }.addIPv6Relays.resetUdpAvailability.resetEndpointPingStats).bearings := by
    intro c₁
    have hasks : Moves late wild c₁.bearings _ :=
      ite_moves (p := (c₁.allowP2p && c₁.currentEndpoint ≠ 0) = true)
        (.of_eq sendPublicEndpointsRequest_bearings)
    apply hasks.trans
    refine .trans ?_ resetPingStats_moves
    refine .trans ?_ resetUdpAvailability_moves
    refine .trans ?_ addIPv6Relays_moves
    exact .of_eq sendDataSavingMode_bearings
  unfold networkHandover at h
  dsimp only at h
  split at h
  · rename_i hcurrent
    obtain ⟨c₁, hleft, h⟩ := bind_eq_ok.mp h
    rw [← pure_eq_ok.mp h]
    exact ⟨c₁, .inr ⟨hcurrent, hleft⟩, hrest c₁⟩
  · rename_i hnone
    rw [pure_bind] at h
    rw [← pure_eq_ok.mp h]
    exact ⟨{ c with wasNetworkHandover := true }, .inl ⟨not_not.mp hnone, rfl⟩, hrest _⟩

theorem setNetworkType_bearings (mobile : Bool) (itfName : String) (myIPv6 : NetworkAddress) :
    (c.setNetworkType mobile itfName myIPv6).bearings = c.bearings := by
  unfold setNetworkType
  dsimp only
  split
  · split <;> rfl
  · rfl

/-! ## Events -/

theorem run_moves {task : Task} (hlate : late ∨ (c.state = .failed → task ≠ .setEstablished))
    (hhandover : task ≠ .networkHandover) (h : c.run now task = .ok c') :
    Moves late wild c.bearings c'.bearings := by
  cases task with
  | updateReliablePackets => exact updateReliablePackets_moves h
  | resumeSending => exact .of_eq (pure_eq_ok.mp h ▸ rfl)
  | setEstablished =>
      rw [← pure_eq_ok.mp h]
      exact establish_moves (hlate.imp_right fun hnot hfailed => hnot hfailed rfl)
  | setEstablishedIfWaiting =>
      rw [← pure_eq_ok.mp h]
      split
      · rename_i hwait
        exact establish_moves (.inr fun hfailed => nomatch hwait.symm.trans hfailed)
      · exact .refl _
  | resendPublicEndpointsRequest =>
      rw [← pure_eq_ok.mp h]
      exact ite_moves (.of_eq sendPublicEndpointsRequest_bearings)
  | networkHandover => exact absurd rfl hhandover
  | sendMicState => exact .of_eq (pure_eq_ok.mp h ▸ sendMicState_bearings)

end Controller

namespace MessageThread

open Controller

variable {env : Platform} {t t' : MessageThread} {e : Time × ThreadEvent} {late wild : Prop}

theorem step_c (h : t.step env e = .ok t') : t.handle env e.1 e.2 = .ok t'.c := by
  obtain ⟨c, hc, h⟩ := bind_eq_ok.mp h
  rw [← pure_eq_ok.mp h]
  exact hc

theorem handle_due {task : Task} (hdue : t.due e.1 e.2 = some task) :
    t.handle env e.1 e.2 = t.c.run e.1 task := by
  obtain ⟨now, e⟩ := e
  cases e with
  | posted i =>
      rw [handle]
      dsimp only at hdue ⊢
      rw [hdue]
  | _ => cases hdue

/-- A packet makes the controller switch, or a peer info erases the preferred
relay. -/
def disturbs (env : Platform) (t : MessageThread) (e : Time × ThreadEvent) : Bool :=
  match e.2 with
  | .handler (.packet p src) => t.c.packetSwitches env e.1 src p
  | .datagram src address port packets =>
    match t.c.noteDatagram e.1 src address port with
    | .ok c => someSwitches env e.1 src c packets
    | .error _ => false
  | .relayPacket _ bs _ => isPeerInfo bs && t.c.preferredRelay == EndpointID.lanv4
  | _ => false

/-- **The moves of the message thread**, but for the handover. -/
theorem handle_moves {c' : Controller}
    (hlate : late ∨ (t.c.state = .failed → t.due e.1 e.2 ≠ some .setEstablished))
    (hwild : wild ∨ t.disturbs env e = false) (hhandover : t.due e.1 e.2 ≠ some .networkHandover)
    (h : t.handle env e.1 e.2 = .ok c') : Moves late wild t.c.bearings c'.bearings := by
  obtain ⟨now, e⟩ := e
  cases e with
  | handler e =>
      apply Controller.handle_moves ?_ h
      apply hwild.imp_right
      rintro hno p src rfl
      exact hno
  | datagram src address port packets =>
      obtain ⟨c₁, hnote, h⟩ := bind_eq_ok.mp h
      apply (noteDatagram_moves hnote).trans
      apply processPackets_moves ?_ h
      apply hwild.imp_right
      intro hno
      simpa [disturbs, hnote] using hno
  | relayPacket src bs here => exact parseRelayPacket_moves hwild h
  | posted i =>
      rw [handle] at h
      split at h
      · rw [← pure_eq_ok.mp h]
        exact .refl _
      · rename_i task hdue
        apply run_moves ?_ ?_ h
        · apply hlate.imp_right
          intro hnot hfailed htask
          exact hnot hfailed (hdue.trans (congrArg some htask))
        · intro htask
          exact hhandover (hdue.trans (congrArg some htask))
  | initTimeout => exact pure_eq_ok.mp h ▸ runInitTimeout_moves
  | updateAudioBitrate audioWorks =>
      rw [handle] at h
      split at h
      · exact updateAudioBitrate_moves h
      · rw [← pure_eq_ok.mp h]
        exact .refl _
  | sendRelayPings => exact sendRelayPings_moves h
  | sendUdpPings => exact .of_eq (pure_eq_ok.mp h ▸ rfl)
  | evaluateUdpPingResults => exact evaluateUdpPingResults_moves h
  | resetUdpAvailability => exact pure_eq_ok.mp h ▸ resetUdpAvailability_moves
  | addTCPRelays => exact addTCPRelays_moves h
  | addIPv6Relays => exact pure_eq_ok.mp h ▸ addIPv6Relays_moves
  | setNetworkType mobile itfName myIPv6 =>
      exact .of_eq (pure_eq_ok.mp h ▸ setNetworkType_bearings ..)
  | setMicMute mute inputWorks => exact pure_eq_ok.mp h ▸ setMicMute_moves ..
  | deviceFails err => exact pure_eq_ok.mp h ▸ failWith_moves _
  | closeSocket key =>
      rw [← pure_eq_ok.mp h]
      refine sweep_moves (fun x => if x.1 = key then { x.2 with socket := none } else x.2) ?_
      intro x
      split <;> rfl

end MessageThread

end Tgvoip
