import Tgvoip.Controller.PacketFrame
import Mathlib.Logic.Relation

/-!
# Bearings — the state of a call and the endpoints it may use

What a handler does to the state and to the table of endpoints is a
sequence of `Move`s. Two of the moves are there for the handlers' slips:
`late` admits that a failed call goes on, `wild` that the table is written
or erased from without regard to ids and to what points into it. The
handlers of packets and of the sending side are taken apart here.
-/

namespace Tgvoip

open ByteReader Fallible

structure Bearings where
  state : CallState
  endpoints : Endpoints
  currentEndpoint : Int64
  preferredRelay : Int64

inductive Move (late wild : Prop) : Bearings → Bearings → Prop where
  | state (b : Bearings) (s : CallState) (h : late ∨ b.state ≠ .failed ∨ s = .failed) :
      Move late wild b { b with state := s }
  /-- An entry changes, but not its id. -/
  | touch (b : Bearings) {key : Int64} {e e' : Endpoint} (he : b.endpoints.at? key = some e)
      (hid : e'.id = e.id) : Move late wild b { b with endpoints := b.endpoints.set key e' }
  /-- The same for all entries. -/
  | sweep (b : Bearings) (f : Int64 × Endpoint → Endpoint) (hid : ∀ x, (f x).id = x.2.id) :
      Move late wild b { b with endpoints := b.endpoints.map fun x => (x.1, f x) }
  | insert (b : Bearings) (e : Endpoint) :
      Move late wild b { b with endpoints := b.endpoints.set e.id e }
  /-- The current endpoint is chosen by the id of an entry, or by its key. -/
  | adopt (b : Bearings) {key : Int64} {e : Endpoint} (he : b.endpoints.at? key = some e) :
      Move late wild b { b with currentEndpoint := e.id }
  | point (b : Bearings) {key : Int64} {e : Endpoint} (he : b.endpoints.at? key = some e) :
      Move late wild b { b with currentEndpoint := key }
  | prefer (b : Bearings) {key : Int64} {e : Endpoint} (he : b.endpoints.at? key = some e) :
      Move late wild b { b with preferredRelay := e.id }
  | toPreferred (b : Bearings) : Move late wild b { b with currentEndpoint := b.preferredRelay }
  /-- An entry is written over by one of another id. -/
  | overwrite (b : Bearings) (key : Int64) (e : Endpoint) (h : wild) :
      Move late wild b { b with endpoints := b.endpoints.set key e }
  | erase (b : Bearings) (key : Int64)
      (h : wild ∨ (b.currentEndpoint ≠ key ∧ b.preferredRelay ≠ key)) :
      Move late wild b { b with endpoints := b.endpoints.erase key }

/-- What several moves lead to. -/
def Moves (late wild : Prop) : Bearings → Bearings → Prop := Relation.ReflTransGen (Move late wild)

namespace Moves

variable {late wild : Prop} {b b' b'' : Bearings}

theorem refl (b : Bearings) : Moves late wild b b := Relation.ReflTransGen.refl

theorem of_eq (h : b' = b) : Moves late wild b b' := by
  rw [h]
  exact refl b

theorem single (h : Move late wild b b') : Moves late wild b b' := Relation.ReflTransGen.single h

theorem trans (h : Moves late wild b b') (h' : Moves late wild b' b'') : Moves late wild b b'' :=
  Relation.ReflTransGen.trans h h'

/-- What every move keeps. -/
theorem invariant {I : Bearings → Prop} (keep : ∀ b b', Move late wild b b' → I b → I b')
    (h : Moves late wild b b') (hb : I b) : I b' := by
  induction h with
  | refl => exact hb
  | tail _ hmove ih => exact keep _ _ hmove ih

end Moves

namespace Controller

variable {env : Platform} {c c' c'' c₁ : Controller} {now : Time} {src : Int64} {p : Packet}
  {late wild : Prop}

def bearings (c : Controller) : Bearings :=
  ⟨c.state, c.endpoints, c.currentEndpoint, c.preferredRelay⟩

theorem ite_bearings {p : Prop} [Decidable p] (h : c'.bearings = c.bearings) :
    (if p then c' else c).bearings = c.bearings := by
  split
  · exact h
  · rfl

/-! ## Sending -/

theorem connectIfNeeded_moves {key : Int64} {e : Endpoint} (he : c.endpoints.at? key = some e) :
    Moves late wild c.bearings (c.connectIfNeeded key e).bearings := by
  unfold connectIfNeeded
  split
  · exact .single (.touch c.bearings he rfl)
  · exact .refl _

theorem transmit_bearings {pkt : PendingOutgoingPacket} {e : Endpoint}
    (h : c.transmit now pkt e = .ok c') : c'.bearings = c.bearings := by
  obtain ⟨s, pm, -, -, -, rfl⟩ := transmit_ok h
  rfl

theorem sendPacketReliably_bearings (pkt : PendingOutgoingPacket) (retryInterval timeout : Time)
    (tries : UInt8) : (c.sendPacketReliably pkt retryInterval timeout tries).bearings = c.bearings := by
  unfold sendPacketReliably
  dsimp only
  split <;> rfl

theorem moves_rule (late wild : Prop) :
    SendRule fun c c' => Moves late wild c.bearings c'.bearings where
  refl := fun _ => .refl _
  trans := .trans
  connect := connectIfNeeded_moves
  transmit := fun h => .of_eq (transmit_bearings h)
  enqueue := fun _ _ => .of_eq rfl
  reliably := fun _ _ _ _ _ => .of_eq (sendPacketReliably_bearings ..)
  noteSealing := fun _ _ => .of_eq rfl
  prepareNew := fun _ => .of_eq rfl
  prepareLegacy := fun _ _ => .of_eq rfl

theorem sendExtra_bearings (extra : WrappedExtra) (endpointId : Int64) :
    (c.sendExtra extra endpointId).bearings = c.bearings := by
  unfold sendExtra
  split <;> rfl

theorem sendInit_moves (h : c.sendInit env now = .ok c') :
    Moves late wild c.bearings c'.bearings := by
  apply (moves_rule late wild).sendInit ?_ ?_ ?_ h
  · exact .of_eq (sendExtra_bearings ..)
  · intro c s _
    exact .of_eq rfl
  · intro c hwait
    apply Moves.single
    apply Move.state
    exact .inr (.inl fun hfailed => nomatch hwait.symm.trans hfailed)

theorem updateReliablePackets_moves (h : c.updateReliablePackets now = .ok c') :
    Moves late wild c.bearings c'.bearings :=
  (moves_rule late wild).updateReliablePackets (fun _ _ => .of_eq rfl) h

/-! ## The extras -/

theorem fail_moves (err : CallError) :
    Moves late wild c.bearings { c with lastError := err, state := .failed }.bearings :=
  .single (.state c.bearings .failed (.inr (.inr rfl)))

theorem sendPublicEndpointsRequest_bearings : c.sendPublicEndpointsRequest.bearings = c.bearings := by
  unfold sendPublicEndpointsRequest
  split
  · rfl
  · dsimp only
    split <;> split <;> rfl

theorem startAudio_moves : Moves late wild c.bearings (c.startAudio env).bearings := by
  unfold startAudio
  dsimp only
  split
  · exact .trans (.of_eq rfl) (fail_moves (c := { c with audioStarted := true }) .audioIo)
  · exact .of_eq rfl

theorem ite_moves {p : Prop} [Decidable p] (h : Moves late wild c.bearings c'.bearings) :
    Moves late wild c.bearings (if p then c' else c).bearings := by
  split
  · exact h
  · exact .refl _

/-- What is learned of the peer is not where it is. -/
theorem learnCapabilities_bearings (d : ExtraInit) : (c.learnCapabilities d).bearings = c.bearings := by
  unfold learnCapabilities
  dsimp only
  split <;> rfl

theorem learnDecoders_bearings (d : ExtraInit) : (c.learnDecoders env d).bearings = c.bearings := by
  have hloop : ∀ (decoders : List UInt32) (c : Controller),
      (decoders.foldl (·.addPeerDecoder env) c).bearings = c.bearings := by
    intro decoders
    induction decoders with
    | nil =>
        intro c
        rfl
    | cons decoder decoders ih =>
        intro c
        rw [List.foldl_cons, ih]
        unfold addPeerDecoder setupOutgoingVideoStream
        split <;> rfl
  unfold learnDecoders
  split
  · exact hloop d.decoders c
  · rfl

theorem adoptEndpoint_moves {e : Endpoint} (he : c.endpoints.at? src = some e) :
    Moves late wild c.bearings (c.adoptEndpoint e).bearings := by
  unfold adoptEndpoint
  dsimp only
  split
  · split
    · exact .trans (.single (.adopt c.bearings he)) (.single (.prefer _ he))
    · exact .single (.adopt c.bearings he)
  · exact .refl _

theorem answer_moves {reply : Extra} (h : c.answer env now reply = .ok c') :
    Moves late wild c.bearings c'.bearings :=
  (moves_rule late wild).answer (.of_eq (sendExtra_bearings ..)) h

theorem processInit_moves {d : ExtraInit} (h : c.processInit env now d src = .ok c') :
    Moves late wild c.bearings c'.bearings := by
  unfold processInit at h
  dsimp only at h
  have hver : Moves late wild c.bearings (if (!c.receivedInit) = true then
      { c with ver := { c.ver with peerVersion := d.peerVersion.toInt32.toInt } } else c).bearings :=
    ite_moves (.of_eq rfl)
  apply hver.trans
  split at h
  · rw [← pure_eq_ok.mp h]
    exact fail_moves .incompatible
  · obtain ⟨c₂, hanswer, h⟩ := bind_eq_ok.mp h
    obtain ⟨e, he, h⟩ := bind_eq_ok.mp h
    rw [endpointAt_eq_ok] at he
    rw [← pure_eq_ok.mp h]
    refine .trans (.trans ?_ (answer_moves hanswer)) (.trans ?_ (ite_moves startAudio_moves))
    · apply Moves.of_eq
      exact ite_bearings ((learnDecoders_bearings d).trans (learnCapabilities_bearings d))
    · exact ite_moves (adoptEndpoint_moves he)

theorem processInitAck_moves (d : ExtraInitAck) :
    Moves late wild c.bearings (c.processInitAck env d).bearings := by
  unfold processInitAck
  split
  · exact .refl _
  · dsimp only
    split
    · exact fail_moves (c := { c with
        receivedInitAck := true, initTimeoutPosted := false
        ver := { c.ver with peerVersion := d.peerVersion.toInt32.toInt } }) .incompatible
    · split
      · exact .refl _
      · refine .trans ?_ (ite_moves (.of_eq sendPublicEndpointsRequest_bearings))
        refine .trans (Moves.trans ?_ (ite_moves startAudio_moves)) (.of_eq rfl)
        exact .of_eq rfl

theorem processStreamFlags_bearings (d : ExtraStreamFlags) :
    (c.processStreamFlags d).bearings = c.bearings := by
  unfold processStreamFlags
  split <;> rfl

theorem toPreferred_moves :
    Moves late wild c.bearings { c with currentEndpoint := c.preferredRelay }.bearings :=
  .single (.toPreferred c.bearings)

theorem processLanEndpoint_moves (d : ExtraLanEndpoint) :
    Moves late wild c.bearings (c.processLanEndpoint d).bearings := by
  unfold processLanEndpoint
  split
  · exact .refl _
  · have hcurrent : Moves late wild c.bearings (if c.currentEndpoint = EndpointID.lanv4 then
        { c with currentEndpoint := c.preferredRelay } else c).bearings := ite_moves toPreferred_moves
    exact hcurrent.trans (.single (.insert _ { id := EndpointID.lanv4, port := d.port, address := .ipv4 d.address, type := .udpP2PLan }))

theorem processIpv6Endpoint_moves (d : ExtraIpv6Endpoint) :
    Moves late wild c.bearings (c.processIpv6Endpoint d).bearings := by
  unfold processIpv6Endpoint
  split
  · exact .refl _
  · let ep : Endpoint :=
      { id := EndpointID.p2pv6, port := d.port, v6address := .ipv6 d.address, type := .udpP2PInet }
    have hinsert : Moves late wild c.bearings _ := .single (.insert c.bearings ep)
    have hmem : (c.endpoints.set ep.id ep).at? ep.id = some ep := by
      rw [Endpoints.at?_set, if_pos rfl]
    dsimp only
    split
    · exact hinsert
    · exact hinsert.trans (.single (.point _ hmem))

theorem resetPingStats_moves :
    Moves late wild c.bearings { c with
      endpoints := c.endpoints.map fun (e : Int64 × Endpoint) => (e.1, e.2.resetPingStats) }.bearings :=
  .single (.sweep c.bearings (fun x => x.2.resetPingStats) fun _ => rfl)

theorem processNetworkChanged_moves {d : ExtraNetworkChanged}
    (h : c.processNetworkChanged d = .ok c') : Moves late wild c.bearings c'.bearings := by
  obtain ⟨c₁, c₂, hcurrent, hasks, hflags⟩ := processNetworkChanged_ok h
  have hleft : Moves late wild c.bearings c₁.bearings := by
    rcases hcurrent with rfl | rfl
    · exact .of_eq rfl
    · exact toPreferred_moves
  have hasked : Moves late wild c₁.bearings c₂.bearings := by
    rw [hasks]
    exact ite_moves (.of_eq sendPublicEndpointsRequest_bearings)
  apply (hleft.trans hasked).trans
  rcases hflags with rfl | ⟨requested, saving, rfl⟩
  · exact .refl _
  · exact resetPingStats_moves

theorem processPing_moves (h : c.processPing env now src = .ok c') :
    Moves late wild c.bearings c'.bearings := by
  unfold processPing at h
  obtain ⟨e, -, h⟩ := bind_eq_ok.mp h
  split at h
  · exact answer_moves h
  · rw [← pure_eq_ok.mp h]
    exact .refl _

theorem processPong_moves {d : ExtraPong} (h : c.processPong now d src = .ok c') :
    Moves late wild c.bearings c'.bearings := by
  unfold processPong at h
  obtain ⟨e, he, h⟩ := bind_eq_ok.mp h
  rw [endpointAt_eq_ok] at he
  split at h
  · rw [← pure_eq_ok.mp h]
    exact .single (.touch c.bearings he rfl)
  · rw [← pure_eq_ok.mp h]
    exact .refl _

theorem dispatchExtra_moves {x : Extra} (h : c.dispatchExtra env now x src = .ok c') :
    Moves late wild c.bearings c'.bearings := by
  unfold dispatchExtra at h
  cases x with
  | init d => exact processInit_moves h
  | initAck d => exact pure_eq_ok.mp h ▸ processInitAck_moves d
  | streamFlags d => exact .of_eq (pure_eq_ok.mp h ▸ processStreamFlags_bearings d)
  | streamCsd d => exact .of_eq (pure_eq_ok.mp h ▸ rfl)
  | lanEndpoint d => exact pure_eq_ok.mp h ▸ processLanEndpoint_moves d
  | networkChanged d => exact processNetworkChanged_moves h
  | groupCallKey d => exact pure_eq_ok.mp h ▸ ite_moves (.of_eq rfl)
  | groupCallUpgrade => exact .of_eq (pure_eq_ok.mp h ▸ rfl)
  | ipv6Endpoint d => exact pure_eq_ok.mp h ▸ processIpv6Endpoint_moves d
  | ping => exact processPing_moves h
  | pong d => exact processPong_moves h

theorem processExtras_moves {xs : List WrappedExtra} (h : c.processExtras env now src xs = .ok c') :
    Moves late wild c.bearings c'.bearings :=
  processExtras_rule (I := fun c₁ _ => Moves late wild c.bearings c₁.bearings)
    (fun _ _ _ h => h.trans (.of_eq rfl)) (fun _ _ _ _ h hx => h.trans (dispatchExtra_moves hx))
    (.refl _) h

/-! ## The packet -/

theorem processAck_bearings {pm : PacketManager} {hasSender : Bool}
    (h : c.processAck now p pm hasSender = .ok c') : c'.bearings = c.bearings := by
  unfold processAck at h
  dsimp only at h
  split at h
  · cases h
  · rw [← pure_eq_ok.mp h]
    exact ite_bearings rfl

/-- `processFreshPacket` up to the switch: the controller, and the manager that
decides on it. -/
def beforeSwitch (env : Platform) (c : Controller) (now : Time) (p : Packet) (src : Int64) :
    Except Fault (Controller × PacketManager) := do
  let c ← c.processExtras env now src p.extraSignaling
  let stream ← c.outgoingStream p.managerIndex.toNat
  let sender ← c.outgoingStream stream.packetManager.transportId.toNat
  let c ← if stream.packetManager.takesAck p.ackSeq then
    c.processAck now p stream.packetManager sender.hasSender else pure c
  let stream ← c.outgoingStream p.managerIndex.toNat
  pure (c, stream.packetManager)

theorem processFreshPacket_eq (env : Platform) (c : Controller) (now : Time) (p : Packet)
    (src : Int64) :
    c.processFreshPacket env now p src = (do
      let r ← c.beforeSwitch env now p src
      let c ← r.1.switchToRelay r.2 src
      let c ← c.countUnacknowledged env now
      c.noteStreamPacket p src) := by
  unfold processFreshPacket beforeSwitch
  simp only [bind_assoc, pure_bind]
  apply bind_congr
  intro c₁
  apply bind_congr
  intro stream
  apply bind_congr
  intro sender
  split
  · simp only [bind_assoc, pure_bind]
  · simp only [bind_assoc, pure_bind]

theorem beforeSwitch_moves {pm : PacketManager} (h : c.beforeSwitch env now p src = .ok (c', pm)) :
    Moves late wild c.bearings c'.bearings := by
  unfold beforeSwitch at h
  obtain ⟨c₁, hextras, h⟩ := bind_eq_ok.mp h
  obtain ⟨s, -, h⟩ := bind_eq_ok.mp h
  obtain ⟨sender, -, h⟩ := bind_eq_ok.mp h
  apply (processExtras_moves hextras).trans
  dsimp only at h
  split at h
  · obtain ⟨c₂, hack, h⟩ := bind_eq_ok.mp h
    obtain ⟨t, -, h⟩ := bind_eq_ok.mp h
    cases pure_eq_ok.mp h
    exact .of_eq (processAck_bearings hack)
  · rw [pure_bind] at h
    obtain ⟨t, -, h⟩ := bind_eq_ok.mp h
    cases pure_eq_ok.mp h
    exact .refl _

/-- The guard of `switchToRelay`. -/
def switches (c : Controller) (manager : PacketManager) (src : Int64) : Bool :=
  (c.endpoints.at? c.currentEndpoint).any fun current =>
    (c.endpoints.at? src).any fun srcEndpoint =>
      (srcEndpoint.id ≠ c.currentEndpoint && srcEndpoint.isReflector &&
        (current.isP2P || current.averageRTT == 0)) &&
        seqgt (manager.lastSentSeq - 32) manager.lastAckedSeq

theorem switches_eq (pm : PacketManager) {current e : Endpoint}
    (hcurrent : c.endpoints.at? c.currentEndpoint = some current)
    (he : c.endpoints.at? src = some e) :
    c.switches pm src = ((e.id ≠ c.currentEndpoint && e.isReflector &&
      (current.isP2P || current.averageRTT == 0)) &&
      seqgt (pm.lastSentSeq - 32) pm.lastAckedSeq) := by
  rw [switches, hcurrent, Option.any_some, he, Option.any_some]

theorem switchToRelay_moves {pm : PacketManager} (hwild : wild ∨ c.switches pm src = false)
    (h : c.switchToRelay pm src = .ok c') : Moves late wild c.bearings c'.bearings := by
  unfold switchToRelay at h
  obtain ⟨current, hcurrent, h⟩ := bind_eq_ok.mp h
  obtain ⟨e, he, h⟩ := bind_eq_ok.mp h
  rw [endpointAt_eq_ok] at hcurrent he
  have hguard := switches_eq pm hcurrent he
  split at h
  · rename_i hswitch
    -- the reference is to the old current entry: it gets the source's id
    have hw : wild := hwild.resolve_right (by rw [hguard, hswitch]; decide)
    rw [← pure_eq_ok.mp h]
    have hadopt : Moves late wild c.bearings { c with currentEndpoint := e.id }.bearings :=
      .single (.adopt c.bearings he)
    have hwrite : Moves late wild { c with currentEndpoint := e.id }.bearings { c with
        endpoints := c.endpoints.set c.currentEndpoint e, currentEndpoint := e.id }.bearings :=
      .single (.overwrite _ c.currentEndpoint e hw)
    exact (hadopt.trans hwrite).trans (ite_moves (.of_eq sendPublicEndpointsRequest_bearings))
  · rw [← pure_eq_ok.mp h]
    exact .refl _

theorem countUnacknowledged_moves (h : c.countUnacknowledged env now = .ok c') :
    Moves late wild c.bearings c'.bearings :=
  (moves_rule late wild).countUnacknowledged (fun _ => .of_eq rfl) h

theorem noteStreamPacket_bearings (h : c.noteStreamPacket p src = .ok c') :
    c'.bearings = c.bearings := by
  have hnote : c.noteFirstStreamPacket.bearings = c.bearings := by
    unfold noteFirstStreamPacket
    split
    · rfl
    · exact ite_bearings rfl
  unfold noteStreamPacket at h
  split at h
  · rw [← pure_eq_ok.mp h]
  · obtain ⟨e, -, h⟩ := bind_eq_ok.mp h
    rw [← pure_eq_ok.mp h]
    split
    · exact hnote
    · exact hnote

/-- The packet makes the controller switch to the relay it came from. -/
def packetSwitches (env : Platform) (now : Time) (src : Int64) (c : Controller) (p : Packet) :
    Bool :=
  (c.outgoingStreams[p.managerIndex.toNat]?).any fun s =>
    (s.packetManager.ackRemotePacket p).1 &&
      ((c.arrived s p).beforeSwitch env now p src).toOption.any fun r => r.1.switches r.2 src

theorem processIncomingPacket_moves (hwild : wild ∨ c.packetSwitches env now src p = false)
    (h : c.processIncomingPacket env now p src = .ok c') :
    Moves late wild c.bearings c'.bearings := by
  obtain ⟨s, hs, ⟨-, rfl⟩ | ⟨haccepts, h⟩⟩ := processIncomingPacket_ok h
  · exact .refl _
  · rw [processFreshPacket_eq] at h
    obtain ⟨⟨c₁, pm⟩, hbefore, h⟩ := bind_eq_ok.mp h
    obtain ⟨c₂, hrelay, h⟩ := bind_eq_ok.mp h
    obtain ⟨c₃, hcount, h⟩ := bind_eq_ok.mp h
    have hnew : (s.packetManager.ackRemotePacket p).1 = true := by
      simpa [accepts, hs] using haccepts
    have hwild₁ : wild ∨ c₁.switches pm src = false := by
      apply hwild.imp_right
      intro hno
      simpa [packetSwitches, hs, hnew, hbefore, Except.toOption] using hno
    have harrived : Moves late wild c.bearings (c.arrived s p).bearings := .of_eq rfl
    apply (harrived.trans (beforeSwitch_moves hbefore)).trans
    apply (switchToRelay_moves hwild₁ hrelay).trans
    exact (countUnacknowledged_moves hcount).trans (.of_eq (noteStreamPacket_bearings h))

/-! ## Steps -/

/-- The handlers of `Event`. -/
theorem handle_moves {e : Event}
    (hwild : wild ∨ ∀ p src, e = .packet p src → c.packetSwitches env now src p = false)
    (h : c.handle env now e = .ok c') : Moves late wild c.bearings c'.bearings := by
  cases e with
  | packet p src => exact processIncomingPacket_moves (hwild.imp_right fun hno => hno p src rfl) h
  | sendPacket pkt retryInterval timeout tries => exact (moves_rule late wild).sendPacket h
  | sendNopPacket endpointId => exact (moves_rule late wild).sendPacket h
  | sendExtra x endpointId => exact .of_eq (pure_eq_ok.mp h ▸ sendExtra_bearings ..)
  | sendInit => exact sendInit_moves h
  | updateReliablePackets => exact updateReliablePackets_moves h
  | trySendOutgoingPackets => exact (moves_rule late wild).trySendOutgoingPackets h
  | udpSocket ready => exact .of_eq (pure_eq_ok.mp h ▸ rfl)
  | tcpSocket key ready =>
      rw [← pure_eq_ok.mp h]
      have hsweep : (fun e : Int64 × Endpoint =>
          if e.1 = key then (e.1, { e.2 with socket := some ready }) else e) =
          fun x => (x.1, if x.1 = key then { x.2 with socket := some ready } else x.2) := by
        funext x
        split <;> rfl
      rw [hsweep]
      refine .single (.sweep c.bearings _ ?_)
      intro x
      split <;> rfl

end Controller

end Tgvoip
