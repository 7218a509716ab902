import Tgvoip.Controller.ExtraFrame

/-!
# PacketFrame — the stages of an incoming packet

`processIncomingPacket` taken apart: the receive window of the packet's
stream, the extras that are not repetitions (`freshExtras`), the
acknowledgements, the choice of the endpoint, the NOP that acknowledges.
Only the extras and the NOP send.
-/

namespace Tgvoip

open ByteReader Fallible

namespace PacketManager

theorem ackRemoteSeq_transportId (pm : PacketManager) (seq : UInt32) :
    (pm.ackRemoteSeq seq).2.transportId = pm.transportId := by
  obtain ⟨head, mask, hwindow⟩ := pm.ackRemoteSeq_window seq
  rw [hwindow]

theorem ackRemotePacket_transportId (pm : PacketManager) (p : Packet) :
    (pm.ackRemotePacket p).2.transportId = pm.transportId := by
  unfold ackRemotePacket
  split
  · split
    · exact ackRemoteSeq_transportId ..
    · rfl
  · exact ackRemoteSeq_transportId ..

end PacketManager

namespace Controller

variable {env : Platform} {c c' c'' c₁ : Controller} {now : Time} {src : Int64} {p : Packet}

/-! ## The extras -/

/-- The extras that do not repeat the last one of their type. -/
def freshExtras (env : Platform) (c : Controller) : List WrappedExtra → List Extra
  | [] => []
  | x :: xs =>
    if c.repeatsLast env x then freshExtras env c xs
    else x.d :: freshExtras env (c.noteReceived env x) xs

theorem freshExtras_congr (h : c'.lastReceivedExtrasByType = c.lastReceivedExtrasByType)
    (xs : List WrappedExtra) : c'.freshExtras env xs = c.freshExtras env xs := by
  induction xs generalizing c c' with
  | nil => rfl
  | cons x xs ih =>
      have hnoted : (c'.noteReceived env x).lastReceivedExtrasByType =
          (c.noteReceived env x).lastReceivedExtrasByType := by simp only [noteReceived, h]
      rw [freshExtras, freshExtras, repeatsLast, repeatsLast, h, ih h, ih hnoted]

/-- **The rule for the loop over the extras**: `I c rest` holds before the
fresh extras `rest` are handled. -/
theorem processExtras_rule {I : Controller → List Extra → Prop} {xs : List WrappedExtra}
    (note : ∀ c x rest, I c rest → I (c.noteReceived env x) rest)
    (handle : ∀ c x rest c', I c (x :: rest) → c.dispatchExtra env now x src = .ok c' → I c' rest)
    (hstart : I c (c.freshExtras env xs)) (h : c.processExtras env now src xs = .ok c') :
    I c' [] := by
  induction xs generalizing c with
  | nil => exact pure_eq_ok.mp h ▸ hstart
  | cons x xs ih =>
      rw [processExtras, List.foldlM_cons] at h
      obtain ⟨c₁, h₁, h⟩ := bind_eq_ok.mp h
      refine ih ?_ h
      rw [processExtraData] at h₁
      rw [freshExtras] at hstart
      split at h₁
      · rename_i hrep
        rw [if_pos hrep] at hstart
        exact pure_eq_ok.mp h₁ ▸ hstart
      · rename_i hrep
        rw [if_neg hrep] at hstart
        rw [freshExtras_congr (dispatchExtra_frame h₁).lastReceived]
        exact handle _ _ _ _ (note _ _ _ hstart) h₁

/-! ## The other stages -/

/-- A packet manager after an acknowledgement. -/
def acknowledged (pm : PacketManager) (now : Time) (p : Packet) : PacketManager :=
  (pm.ackLocal p.ackSeq p.ackMask).markAcked now

/-- The acknowledgement of a packet, but for counters the transport does not
see. -/
theorem processAck_ok {pm : PacketManager} {hasSender : Bool}
    (h : c.processAck now p pm hasSender = .ok c') :
    ∃ c₀, c₀.toTransport = c.toTransport ∧ SendFrame c c₀ ∧
      c' = (c₀.setManager p.managerIndex.toNat (acknowledged pm now p)).handleReliablePackets
        (acknowledged pm now p) := by
  unfold processAck at h
  dsimp only at h
  split at h
  · cases h
  · rw [← pure_eq_ok.mp h]
    refine ⟨_, ?_, ?_, rfl⟩
    · split <;> rfl
    · split <;> exact .same rfl rfl rfl

theorem switchToRelay_ok {pm : PacketManager} (h : c.switchToRelay pm src = .ok c') :
    c'.toTransport = c.toTransport ∧ Frame c c' := by
  unfold switchToRelay at h
  obtain ⟨current, -, h⟩ := bind_eq_ok.mp h
  obtain ⟨e, he, h⟩ := bind_eq_ok.mp h
  rw [endpointAt_eq_ok] at he
  split at h
  · have hframe : Frame c { c with
        endpoints := c.endpoints.set c.currentEndpoint e, currentEndpoint := e.id } :=
      { Frame.refl c with tcpReady := fun _ ht => ht.set (ht.at? he) }
    rw [← pure_eq_ok.mp h]
    have hasks := ite_quiet (x := .ping) (c := { c with
      endpoints := c.endpoints.set c.currentEndpoint e, currentEndpoint := e.id })
      (p := c.allowP2p = true) sendPublicEndpointsRequest_quiet
    exact ⟨hasks.transport, hframe.trans hasks.frame⟩
  · rw [← pure_eq_ok.mp h]
    exact ⟨rfl, .refl c⟩

theorem noteFirstStreamPacket_quiet {x : Extra} : Quiet x c c.noteFirstStreamPacket := by
  unfold noteFirstStreamPacket
  split
  · exact .refl ..
  · refine .trans ?_ (ite_quiet (post_quiet ..))
    exact .same rfl rfl

theorem noteStreamPacket_quiet {x : Extra} (h : c.noteStreamPacket p src = .ok c') :
    Quiet x c c' := by
  unfold noteStreamPacket at h
  split at h
  · rw [← pure_eq_ok.mp h]
    exact .refl ..
  · obtain ⟨e, -, h⟩ := bind_eq_ok.mp h
    rw [← pure_eq_ok.mp h]
    exact noteFirstStreamPacket_quiet.trans (ite_quiet (.same rfl rfl))

theorem countUnacknowledged_frame (h : c.countUnacknowledged env now = .ok c') :
    SendFrame c c' := sendFrame_rule.countUnacknowledged (fun _ => .same rfl rfl rfl) h

/-! ## The whole packet -/

/-- Whether the packet passes the duplicate check. -/
def accepts (c : Controller) (p : Packet) : Bool :=
  (c.outgoingStreams[p.managerIndex.toNat]?).any fun s => (s.packetManager.ackRemotePacket p).1

/-- The controller behind the duplicate check. -/
def arrived (c : Controller) (s : OutgoingStream) (p : Packet) : Controller :=
  c.setManager p.managerIndex.toNat (s.packetManager.ackRemotePacket p).2

theorem freshExtras_arrived (s : OutgoingStream) (xs : List WrappedExtra) :
    (c.arrived s p).freshExtras env xs = c.freshExtras env xs := by
  apply freshExtras_congr
  rfl

/-- The acknowledgement stage: `pm` is the packet's manager before it. -/
def AckStage (now : Time) (p : Packet) (pm : PacketManager) (c c' : Controller) : Prop :=
  (pm.takesAck p.ackSeq = false ∧ c' = c) ∨
    (pm.takesAck p.ackSeq = true ∧ ∃ c₀, c₀.toTransport = c.toTransport ∧ SendFrame c c₀ ∧
      c' = (c₀.setManager p.managerIndex.toNat (acknowledged pm now p)).handleReliablePackets
        (acknowledged pm now p))

theorem AckStage.frame {s : OutgoingStream}
    (hs : c.outgoingStreams[p.managerIndex.toNat]? = some s)
    (h : AckStage now p s.packetManager c c') : SendFrame c c' := by
  obtain ⟨-, rfl⟩ | ⟨-, c₀, htransport, hframe, rfl⟩ := h
  · exact .refl _
  · have hs₀ : c₀.outgoingStreams[p.managerIndex.toNat]? = some s := by rw [htransport, hs]
    exact hframe.trans (.same (faces_setManager hs₀ rfl) rfl rfl)

/-- The stages of a packet that is not a duplicate. -/
structure Stages (env : Platform) (now : Time) (p : Packet) (src : Int64)
    (c c₁ c₂ c₃ c₄ c' : Controller) (s : OutgoingStream) : Prop where
  extras : c.processExtras env now src p.extraSignaling = .ok c₁
  stream : c₁.outgoingStreams[p.managerIndex.toNat]? = some s
  acks : AckStage now p s.packetManager c₁ c₂
  endpoint : c₃.toTransport = c₂.toTransport ∧ Frame c₂ c₃
  counts : c₃.countUnacknowledged env now = .ok c₄
  notes : Quiet .ping c₄ c'

theorem processFreshPacket_ok (h : c.processFreshPacket env now p src = .ok c') :
    ∃ c₁ c₂ c₃ c₄ s, Stages env now p src c c₁ c₂ c₃ c₄ c' s := by
  unfold processFreshPacket at h
  obtain ⟨c₁, hextras, h⟩ := bind_eq_ok.mp h
  obtain ⟨s, hs, h⟩ := bind_eq_ok.mp h
  obtain ⟨sender, -, h⟩ := bind_eq_ok.mp h
  rw [outgoingStream_eq_ok] at hs
  have hrest : ∀ c₂, AckStage now p s.packetManager c₁ c₂ →
      (do
        let stream ← c₂.outgoingStream p.managerIndex.toNat
        let c ← c₂.switchToRelay stream.packetManager src
        let c ← c.countUnacknowledged env now
        c.noteStreamPacket p src) = (.ok c' : Except Fault Controller) →
      ∃ c₁ c₂ c₃ c₄ s, Stages env now p src c c₁ c₂ c₃ c₄ c' s := by
    intro c₂ hacks h
    obtain ⟨t, -, h⟩ := bind_eq_ok.mp h
    obtain ⟨c₃, hrelay, h⟩ := bind_eq_ok.mp h
    obtain ⟨c₄, hcount, h⟩ := bind_eq_ok.mp h
    exact ⟨c₁, c₂, c₃, c₄, s, hextras, hs, hacks, switchToRelay_ok hrelay, hcount,
      noteStreamPacket_quiet h⟩
  split at h
  · rename_i htakes
    obtain ⟨c₂, hack, h⟩ := bind_eq_ok.mp h
    exact hrest c₂ (.inr ⟨htakes, processAck_ok hack⟩) h
  · rename_i htakes
    exact hrest c₁ (.inl ⟨Bool.not_eq_true _ ▸ htakes, rfl⟩) h

theorem processIncomingPacket_ok (h : c.processIncomingPacket env now p src = .ok c') :
    ∃ s, c.outgoingStreams[p.managerIndex.toNat]? = some s ∧
      ((c.accepts p = false ∧ c' = c) ∨
        (c.accepts p = true ∧ (c.arrived s p).processFreshPacket env now p src = .ok c')) := by
  unfold processIncomingPacket at h
  obtain ⟨s, hs, h⟩ := bind_eq_ok.mp h
  rw [outgoingStream_eq_ok] at hs
  have haccepts : c.accepts p = (s.packetManager.ackRemotePacket p).1 := by simp [accepts, hs]
  refine ⟨s, hs, ?_⟩
  rw [haccepts]
  dsimp only at h
  split at h
  · rename_i hnew
    exact .inr ⟨hnew, h⟩
  · rename_i hold
    exact .inl ⟨Bool.not_eq_true _ ▸ hold, (pure_eq_ok.mp h).symm⟩

/-- The stages behind the extras. -/
theorem Stages.frame {c₂ c₃ c₄ : Controller} {s : OutgoingStream}
    (h : Stages env now p src c c₁ c₂ c₃ c₄ c' s) : Frame c₁ c' :=
  (h.acks.frame h.stream).toFrame.trans
    (h.endpoint.2.trans ((countUnacknowledged_frame h.counts).toFrame.trans h.notes.frame))

/-! ## Steps -/

/-- The ids of the streams and of their packet managers. -/
def ids (c : Controller) : List (UInt8 × UInt8) :=
  c.outgoingStreams.map fun s : OutgoingStream => (s.id, s.packetManager.transportId)

theorem ids_eq (c : Controller) : c.ids = c.faces.map fun f => (f.id, f.transportId) := by
  rw [faces, List.map_map]
  rfl

theorem ids_of_faces (h : c'.faces = c.faces) : c'.ids = c.ids := by rw [ids_eq, ids_eq, h]

theorem ids_setManager {i : ℕ} {s : OutgoingStream} {pm : PacketManager}
    (hs : c.outgoingStreams[i]? = some s) (hpm : pm.transportId = s.packetManager.transportId) :
    (c.setManager i pm).ids = c.ids := by
  apply ListEntry.map_modify
  intro a ha
  rw [hs] at ha
  cases ha
  rw [hpm]

/-- What a packet leaves alone. -/
structure PacketFrame (c c' : Controller) : Prop where
  ids : c.ids <+: c'.ids
  settings : c'.settings = c.settings
  tcpReady : ∀ b, c.endpoints.TcpReady b → c'.endpoints.TcpReady b
  rawSendQueue : c.rawSendQueue <+: c'.rawSendQueue

theorem PacketFrame.trans (h : PacketFrame c c') (h' : PacketFrame c' c'') : PacketFrame c c'' :=
  ⟨h.ids.trans h'.ids, h'.settings.trans h.settings, fun b ht => h'.tcpReady b (h.tcpReady b ht),
    h.rawSendQueue.trans h'.rawSendQueue⟩

theorem Frame.packetFrame (h : Frame c c') : PacketFrame c c' :=
  { h with ids := ids_of_faces h.faces ▸ List.prefix_refl _ }

theorem ExtraFrame.packetFrame {x : Extra} (h : ExtraFrame x c c') : PacketFrame c c' :=
  { h with ids := by rw [ids_eq, ids_eq]; exact h.faces.map _ }

theorem arrived_frame {s : OutgoingStream}
    (hs : c.outgoingStreams[p.managerIndex.toNat]? = some s) : PacketFrame c (c.arrived s p) :=
  ⟨ids_setManager hs (PacketManager.ackRemotePacket_transportId ..) ▸ List.prefix_refl _, rfl,
    fun _ ht => ht, List.prefix_refl _⟩

theorem processExtras_frame {xs : List WrappedExtra} (h : c.processExtras env now src xs = .ok c') :
    PacketFrame c c' :=
  processExtras_rule (I := fun c₁ _ => PacketFrame c c₁)
    (fun _ _ _ h => ⟨h.ids, h.settings, h.tcpReady, h.rawSendQueue⟩)
    (fun _ _ _ _ h hx => h.trans (dispatchExtra_frame hx).packetFrame) (Frame.refl c).packetFrame h

theorem processIncomingPacket_frame (h : c.processIncomingPacket env now p src = .ok c') :
    PacketFrame c c' := by
  obtain ⟨s, hs, ⟨-, rfl⟩ | ⟨-, h⟩⟩ := processIncomingPacket_ok h
  · exact (Frame.refl c').packetFrame
  · obtain ⟨c₁, c₂, c₃, c₄, t, hstages⟩ := processFreshPacket_ok h
    exact ((arrived_frame hs).trans (processExtras_frame hstages.extras)).trans
      hstages.frame.packetFrame

/-- What only a packet changes. -/
structure Standing (c c' : Controller) : Prop where
  faces : c'.faces = c.faces
  config : c'.config = c.config
  ver : c'.ver = c.ver
  receivedInit : c'.receivedInit = c.receivedInit
  decoders : c'.peerVideoDecoders = c.peerVideoDecoders
  rawSendQueue : c.rawSendQueue <+: c'.rawSendQueue

theorem Frame.standing (h : Frame c c') : Standing c c' :=
  { h with config := congrArg Settings.config h.settings }

/-- A step handles a packet, or leaves alone what only packets change. -/
theorem step_cases {e : Time × Event} (h : c.step env e = .ok c') :
    (∃ p src, e.2 = .packet p src ∧ c.processIncomingPacket env e.1 p src = .ok c') ∨
      ((∀ p src, e.2 ≠ .packet p src) ∧ Standing c c') := by
  obtain ⟨now, e⟩ := e
  cases e with
  | packet p src => exact .inl ⟨p, src, rfl, h⟩
  | sendPacket pkt retryInterval timeout tries =>
      exact .inr ⟨nofun, (sendPacket_frame h).standing⟩
  | sendNopPacket endpointId => exact .inr ⟨nofun, (sendNopPacket_frame h).standing⟩
  | sendExtra x endpointId =>
      exact .inr ⟨nofun, pure_eq_ok.mp h ▸ (sendExtra_frame ..).standing⟩
  | sendInit => exact .inr ⟨nofun, (sendInit_frame h).standing⟩
  | updateReliablePackets => exact .inr ⟨nofun, (updateReliablePackets_frame h).standing⟩
  | trySendOutgoingPackets => exact .inr ⟨nofun, (trySendOutgoingPackets_frame h).standing⟩
  | udpSocket ready => exact .inr ⟨nofun, pure_eq_ok.mp h ▸ ⟨rfl, rfl, rfl, rfl, rfl, List.prefix_refl _⟩⟩
  | tcpSocket key ready => exact .inr ⟨nofun, pure_eq_ok.mp h ▸ ⟨rfl, rfl, rfl, rfl, rfl, List.prefix_refl _⟩⟩

/-- **Streams are only added**, behind the ones there are. -/
theorem step_ids {e : Time × Event} (h : c.step env e = .ok c') : c.ids <+: c'.ids := by
  rcases step_cases h with ⟨p, src, -, h⟩ | ⟨-, h⟩
  · exact (processIncomingPacket_frame h).ids
  · exact ids_of_faces h.faces ▸ List.prefix_refl _

/-- **What was sent stays sent.** -/
theorem step_rawSendQueue {e : Time × Event} (h : c.step env e = .ok c') :
    c.rawSendQueue <+: c'.rawSendQueue := by
  rcases step_cases h with ⟨p, src, -, h⟩ | ⟨-, h⟩
  · exact (processIncomingPacket_frame h).rawSendQueue
  · exact h.rawSendQueue

theorem step_config {e : Time × Event} (h : c.step env e = .ok c') : c'.config = c.config := by
  rcases step_cases h with ⟨p, src, -, h⟩ | ⟨-, h⟩
  · exact congrArg Settings.config (processIncomingPacket_frame h).settings
  · exact h.config

theorem step_connectionMaxLayer {e : Time × Event} (h : c.step env e = .ok c') :
    c'.ver.connectionMaxLayer = c.ver.connectionMaxLayer := by
  rcases step_cases h with ⟨p, src, -, h⟩ | ⟨-, h⟩
  · exact congrArg Settings.connectionMaxLayer (processIncomingPacket_frame h).settings
  · rw [h.ver]

/-! ## A call on fixed inputs -/

/-- A platform with two video encoders, on which nothing is encrypted. -/
def samplePlatform : Platform where
  sha1 := fun _ => 1
  encryptPacket := fun _ bs => bs
  random := fun _ => Vector.replicate 15 0
  availableEncoders := [Codec.hevc, Codec.avc]
  availableDecoders := []
  maximumResolution := 0
  audioInputStarts := true
  freshMask := 0

/-- A call over one UDP relay, in the new format. -/
def sampleCall (config : Config) : Controller :=
  { Controller.new samplePlatform config (Vector.replicate 16 0) 110 with
    endpoints := [(1, { id := 1, type := .udpRelay })], currentEndpoint := 1 }

/-- The first packet of a peer that can receive video. -/
def sampleInit (decoders : List UInt32) : Packet :=
  let init : ExtraInit :=
    { peerVersion := protocolVersion, minVersion := minProtocolVersion
      flags := ExtraInit.videoRecvSupported, decoders }
  { seq := 1, extraSignaling := [{ d := .init init }] }

end Controller

end Tgvoip
