import Tgvoip.Controller.SendRule
import Tgvoip.Lib.ListEntry

/-!
# SendFrame — what sending leaves alone

Every function of `Send` works on the transport: it numbers packets, moves
them between the queues and notes what was sent. `SendFrame` lists what
none of them changes: the ids and receive windows of the streams
(`faces`), the settings, the handshake, the types of the endpoints; and
the raw queue only grows.
-/

namespace Tgvoip

open ByteReader Fallible

/-- What sending leaves alone in a stream. -/
structure StreamFace where
  id : UInt8
  transportId : UInt8
  lastRemoteSeq : UInt32
  lastRemoteSeqsMask : UInt32
  deriving DecidableEq, Repr

def OutgoingStream.face (s : OutgoingStream) : StreamFace where
  id := s.id
  transportId := s.packetManager.transportId
  lastRemoteSeq := s.packetManager.lastRemoteSeq
  lastRemoteSeqsMask := s.packetManager.lastRemoteSeqsMask

/-- What no packet changes, sent or received. -/
structure Settings where
  config : Config
  allowP2p : Bool
  stopping : Bool
  udpSocketReady : Bool
  useTCP : Bool
  useUDP : Bool
  connectionMaxLayer : Int

/-- What the controller reads beside the transport when it handles packets. -/
structure Outlook where
  settings : Settings
  ver : VersionInfo
  receivedInit : Bool
  decoders : List UInt32
  lastReceived : UInt8 → UInt64
  endpoints : Endpoints

namespace Endpoints

/-- No entry goes away or changes its type. -/
def Keeps (m m' : Endpoints) : Prop :=
  ∀ id e, m.at? id = some e → ∃ e', m'.at? id = some e' ∧ e'.type = e.type

/-- Every TCP endpoint has a socket that is ready, and TCP is in use. -/
def TcpReady (m : Endpoints) (useTCP : Bool) : Prop :=
  ∀ x ∈ m, x.2.type = .tcpRelay → x.2.socket = some true ∧ useTCP = true

theorem Keeps.refl (m : Endpoints) : Keeps m m := fun _ e h => ⟨e, h, rfl⟩

theorem Keeps.trans {m m' m'' : Endpoints} (h : Keeps m m') (h' : Keeps m' m'') : Keeps m m'' := by
  intro id e he
  obtain ⟨e', he', ht⟩ := h id e he
  obtain ⟨e'', he'', ht'⟩ := h' id e' he'
  exact ⟨e'', he'', ht'.trans ht⟩

/-- Writing an entry of the same type. -/
theorem keeps_set {m : Endpoints} {id : Int64} {e e' : Endpoint} (h : m.at? id = some e)
    (ht : e'.type = e.type) : Keeps m (m.set id e') := by
  intro id' x hx
  rw [at?_set]
  by_cases hid : id = id'
  · subst hid
    rw [h] at hx
    cases hx
    exact ⟨e', if_pos rfl, ht⟩
  · exact ⟨x, by rw [if_neg hid, hx], rfl⟩

theorem keeps_map {m : Endpoints} {f : Endpoint → Endpoint} (hf : ∀ e, (f e).type = e.type) :
    Keeps m (m.map fun x => (x.1, f x.2)) := fun id e h =>
  ⟨f e, by rw [at?_map, h, Option.map_some], hf e⟩

theorem TcpReady.set {m : Endpoints} {useTCP : Bool} (h : m.TcpReady useTCP) {id : Int64}
    {e : Endpoint} (he : e.type = .tcpRelay → e.socket = some true ∧ useTCP = true) :
    (m.set id e).TcpReady useTCP := by
  intro x hx
  rcases mem_set hx with rfl | hx
  · exact he
  · exact h x hx

theorem TcpReady.at? {m : Endpoints} {useTCP : Bool} (h : m.TcpReady useTCP) {id : Int64}
    {e : Endpoint} (he : m.at? id = some e) (ht : e.type = .tcpRelay) :
    e.socket = some true ∧ useTCP = true := by
  obtain ⟨key, hmem⟩ := mem_of_at? he
  exact h _ hmem ht

end Endpoints

namespace Controller

def faces (c : Controller) : List StreamFace := c.outgoingStreams.map (·.face)

def settings (c : Controller) : Settings where
  config := c.config
  allowP2p := c.allowP2p
  stopping := c.stopping
  udpSocketReady := c.udpSocketReady
  useTCP := c.useTCP
  useUDP := c.useUDP
  connectionMaxLayer := c.ver.connectionMaxLayer

def outlook (c : Controller) : Outlook where
  settings := c.settings
  ver := c.ver
  receivedInit := c.receivedInit
  decoders := c.peerVideoDecoders
  lastReceived := c.lastReceivedExtrasByType
  endpoints := c.endpoints

/-- What sending and being acknowledged leave alone. -/
structure Frame (c c' : Controller) : Prop where
  faces : c'.faces = c.faces
  settings : c'.settings = c.settings
  ver : c'.ver = c.ver
  receivedInit : c'.receivedInit = c.receivedInit
  decoders : c'.peerVideoDecoders = c.peerVideoDecoders
  lastReceived : c'.lastReceivedExtrasByType = c.lastReceivedExtrasByType
  tcpReady : ∀ b, c.endpoints.TcpReady b → c'.endpoints.TcpReady b
  rawSendQueue : c.rawSendQueue <+: c'.rawSendQueue

theorem Frame.trans {c c' c'' : Controller} (h : Frame c c') (h' : Frame c' c'') :
    Frame c c'' where
  faces := h'.faces.trans h.faces
  settings := h'.settings.trans h.settings
  ver := h'.ver.trans h.ver
  receivedInit := h'.receivedInit.trans h.receivedInit
  decoders := h'.decoders.trans h.decoders
  lastReceived := h'.lastReceived.trans h.lastReceived
  tcpReady := fun b ht => h'.tcpReady b (h.tcpReady b ht)
  rawSendQueue := h.rawSendQueue.trans h'.rawSendQueue

/-- What sending leaves alone. -/
structure SendFrame (c c' : Controller) : Prop extends Frame c c' where
  endpoints : c.endpoints.Keeps c'.endpoints

/-- A step that touches the transport only, except for ids and windows. -/
theorem SendFrame.of_faces {c c' : Controller} (hfaces : c'.faces = c.faces)
    (hraw : c.rawSendQueue <+: c'.rawSendQueue) (h : c'.outlook = c.outlook) :
    SendFrame c c' := by
  have hendpoints : c'.endpoints = c.endpoints := congrArg Outlook.endpoints h
  exact {
    faces := hfaces
    settings := congrArg Outlook.settings h
    ver := congrArg Outlook.ver h
    receivedInit := congrArg Outlook.receivedInit h
    decoders := congrArg Outlook.decoders h
    lastReceived := congrArg Outlook.lastReceived h
    tcpReady := fun _ ht => hendpoints ▸ ht
    rawSendQueue := hraw
    endpoints := hendpoints ▸ .refl _ }

/-- A step between two states that look the same from here. -/
theorem SendFrame.same {c c' : Controller} (hfaces : c'.faces = c.faces)
    (hraw : c'.rawSendQueue = c.rawSendQueue) (h : c'.outlook = c.outlook) : SendFrame c c' :=
  .of_faces hfaces (hraw ▸ List.prefix_refl _) h

theorem SendFrame.refl (c : Controller) : SendFrame c c := .same rfl rfl rfl

theorem Frame.refl (c : Controller) : Frame c c := (SendFrame.refl c).toFrame

theorem SendFrame.trans {c c' c'' : Controller} (h : SendFrame c c') (h' : SendFrame c' c'') :
    SendFrame c c'' where
  toFrame := h.toFrame.trans h'.toFrame
  endpoints := h.endpoints.trans h'.endpoints

/-! ## Lookups -/

variable {env : Platform} {c c' : Controller} {now : Time}

theorem getElem?_setManager {i : ℕ} {s : OutgoingStream} (hs : c.outgoingStreams[i]? = some s)
    (pm : PacketManager) (j : ℕ) :
    (c.setManager i pm).outgoingStreams[j]? =
      if i = j then some { s with packetManager := pm } else c.outgoingStreams[j]? :=
  ListEntry.getElem?_modify hs j

/-- A packet manager with the same identity and receive window. -/
theorem faces_setManager {i : ℕ} {s : OutgoingStream} {pm : PacketManager}
    (hs : c.outgoingStreams[i]? = some s)
    (hpm : ({ s with packetManager := pm } : OutgoingStream).face = s.face) :
    (c.setManager i pm).faces = c.faces := by
  apply ListEntry.map_modify
  intro a ha
  rw [hs] at ha
  cases ha
  exact hpm

/-- A step that writes the endpoints. -/
theorem SendFrame.setEndpoints {m : Endpoints} (hkeeps : c.endpoints.Keeps m)
    (htcp : ∀ b, c.endpoints.TcpReady b → m.TcpReady b) :
    SendFrame c { c with endpoints := m } where
  faces := rfl
  settings := rfl
  ver := rfl
  receivedInit := rfl
  decoders := rfl
  lastReceived := rfl
  tcpReady := htcp
  rawSendQueue := List.prefix_refl _
  endpoints := hkeeps

/-! ## Sending at once -/

theorem connectIfNeeded_frame {key : Int64} {e : Endpoint} (he : c.endpoints.at? key = some e) :
    SendFrame c (c.connectIfNeeded key e) := by
  unfold connectIfNeeded
  split
  · rename_i hconn
    simp only [Bool.and_eq_true, decide_eq_true_eq, Option.isNone_iff_eq_none] at hconn
    refine .setEndpoints (Endpoints.keeps_set he rfl) fun b h => ?_
    have := (h.at? he hconn.1).1
    rw [hconn.2] at this
    cases this
  · exact .refl c

theorem connectIfNeeded_toTransport (key : Int64) (e : Endpoint) :
    (c.connectIfNeeded key e).toTransport = c.toTransport := by
  unfold connectIfNeeded
  split <;> rfl

theorem transmit_ok {pkt : PendingOutgoingPacket} {e : Endpoint}
    (h : c.transmit now pkt e = .ok c') :
    ∃ s pm, c.outgoingStreams[pkt.pktInfo.streamId.toNat]? = some s ∧
      pm.seq = s.packetManager.seq ∧
      ({ s with packetManager := pm } : OutgoingStream).face = s.face ∧
      c' = { c.setManager pkt.pktInfo.streamId.toNat pm with
        conctlCalls := c.conctlCalls ++ [.packetSent pkt.pktInfo pkt.packet.length]
        rawSendQueue := c.rawSendQueue ++
          [{ pkt, address := e.getAddress, port := e.port, tcp := e.type == .tcpRelay }]
        unacknowledgedIncomingPacketCount := 0 } := by
  unfold transmit at h
  obtain ⟨s, hs, h⟩ := bind_eq_ok.mp h
  exact ⟨s, s.packetManager.addRecentOutgoingPacket
      { pkt := pkt.pktInfo, size := pkt.packet.length, endpoint := pkt.endpoint, sendTime := now },
    outgoingStream_eq_ok.mp hs, rfl, rfl, (pure_eq_ok.mp h).symm⟩

theorem transmit_frame {pkt : PendingOutgoingPacket} {e : Endpoint}
    (h : c.transmit now pkt e = .ok c') : SendFrame c c' := by
  obtain ⟨s, pm, hs, -, hface, rfl⟩ := transmit_ok h
  exact .of_faces (faces_setManager hs hface) (List.prefix_append _ _) rfl

/-! ## Sending reliably -/

theorem sendPacketReliably_frame (pkt : PendingOutgoingPacket) (retryInterval timeout : Time)
    (tries : UInt8) : SendFrame c (c.sendPacketReliably pkt retryInterval timeout tries) := by
  unfold sendPacketReliably
  dsimp only
  split <;> exact .same rfl rfl rfl

/-! ## SendPacket -/

@[simp] theorem face_nextLocalSeq (s : OutgoingStream) :
    ({ s with packetManager := s.packetManager.nextLocalSeq.2 } : OutgoingStream).face = s.face :=
  rfl

theorem face_prepare (p : Packet) (s : OutgoingStream) :
    ({ s with packetManager := (p.prepare s.packetManager).2 } : OutgoingStream).face =
      s.face := by
  unfold Packet.prepare
  split <;> rfl

theorem face_prepareLegacySeq (p : Packet) (pm : PacketManager) (s : OutgoingStream)
    (seq : UInt32) :
    ({ s with packetManager := (prepareLegacySeq p pm s.packetManager).2.setLocalSeq seq } :
      OutgoingStream).face = s.face := by
  unfold prepareLegacySeq
  split
  · split <;> rfl
  · rfl

theorem prepareNew_frame {p : Packet} {endpointId : Int64} {stream : OutgoingStream}
    (hs : c.outgoingStreams[p.streamId.toNat]? = some stream) :
    SendFrame c (c.prepareNew p endpointId stream).2 :=
  .same (faces_setManager hs (face_prepare p stream)) rfl rfl

theorem noteSealing_frame (c : Controller) (endpoint : Endpoint) :
    SendFrame c (c.noteSealing endpoint) := .same rfl rfl rfl

theorem preparedLegacy_frame {p : Packet} {endpoint : Endpoint} {stream signaling : OutgoingStream}
    {localSeq : UInt32} (hs : c.outgoingStreams[p.streamId.toNat]? = some stream)
    (hsig : (c.setManager p.streamId.toNat (p.prepare stream.packetManager).2).outgoingStreams[
      StreamId.signaling.toNat]? = some signaling) :
    SendFrame c (c.preparedLegacy p endpoint stream signaling localSeq) := by
  have hfirst := faces_setManager hs (face_prepare p stream)
  have hsecond := faces_setManager hsig (face_prepareLegacySeq (p.prepare stream.packetManager).1
    (p.prepare stream.packetManager).2 signaling localSeq)
  exact .same (hsecond.trans hfirst) rfl rfl

theorem sendFrame_rule : SendRule SendFrame where
  refl := .refl
  trans := .trans
  connect := connectIfNeeded_frame
  transmit := transmit_frame
  enqueue := fun _ _ => .same rfl rfl rfl
  reliably := fun _ => sendPacketReliably_frame
  noteSealing := noteSealing_frame
  prepareNew := prepareNew_frame
  prepareLegacy := preparedLegacy_frame

/-! ## The functions of `Send` -/

theorem sendPacket_frame {pkt : OutgoingPacket} {retryInterval timeout : Time} {tries : UInt8}
    (h : c.sendPacket env now pkt retryInterval timeout tries = .ok c') : SendFrame c c' :=
  sendFrame_rule.sendPacket h

theorem sendNopPacket_frame {endpointId : Int64} (h : c.sendNopPacket env now endpointId = .ok c') :
    SendFrame c c' := sendPacket_frame h

theorem updateReliablePackets_frame (h : c.updateReliablePackets now = .ok c') :
    SendFrame c c' := sendFrame_rule.updateReliablePackets (fun _ _ => .same rfl rfl rfl) h

theorem trySendOutgoingPackets_frame (h : c.trySendOutgoingPackets now = .ok c') :
    SendFrame c c' := sendFrame_rule.trySendOutgoingPackets h

theorem sendExtra_frame (extra : WrappedExtra) (endpointId : Int64) :
    SendFrame c (c.sendExtra extra endpointId) := by
  unfold sendExtra
  split <;> exact .same rfl rfl rfl

theorem sendInit_frame (h : c.sendInit env now = .ok c') : SendFrame c c' := by
  apply sendFrame_rule.sendInit (sendExtra_frame ..) ?_ ?_ h
  · intro c s hs
    exact .same (faces_setManager hs (face_nextLocalSeq s)) rfl rfl
  · intro c _
    exact .same rfl rfl rfl

end Controller

end Tgvoip
