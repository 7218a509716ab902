import Tgvoip.Controller.Send

/-!
# Receive — what an incoming packet does

`Protocol.cpp` from the parsed packet on, `HandleReliablePackets`
(`Reliable.cpp`) and `SetupOutgoingVideoStream` (`Video.cpp`). The source
endpoint is given by its key in the table, since the source's reference
into the table sees what is assigned to the entry meanwhile.

What is delivered to the audio and video decoders is not modelled, nor are
the callbacks to the application.
-/

namespace Tgvoip

open ByteReader

/-- `Extra::hash`: zero where none was taken. -/
def Platform.hash (env : Platform) (x : WrappedExtra) : UInt64 :=
  match x.hashed with
  | none => 0
  | some bs => env.sha1 bs

/-- The codec of the outgoing video stream: the first of three that both sides
have. -/
def Platform.commonCodec (env : Platform) (decoders : List UInt32) : Option UInt32 :=
  [Codec.hevc, Codec.avc, Codec.vp8].find? fun codec =>
    env.availableEncoders.contains codec && decoders.contains codec

/-- The stream `SetupOutgoingVideoStream` makes. -/
def Platform.videoStream (env : Platform) (codec : UInt32) : OutgoingStream :=
  { OutgoingStream.new StreamId.video StreamType.video env.freshMask with
    codec, enabled := false, hasSender := false }

namespace PacketManager

/-- `ackRemoteSeq(const Packet&)`. -/
def ackRemotePacket (pm : PacketManager) (p : Packet) : Bool × PacketManager :=
  if p.legacy then
    if p.legacySeq ≠ 0 then pm.ackRemoteSeq p.legacySeq else (true, pm)
  else pm.ackRemoteSeq p.seq

end PacketManager

/-- The index `ProcessIncomingPacket` uses into `outgoingStreams`. -/
def Packet.managerIndex (p : Packet) : UInt8 := if p.legacy then StreamId.signaling else p.streamId

namespace UnacknowledgedExtraData

/-- A remembered seq is acknowledged. -/
def wasAcked (x : UnacknowledgedExtraData) (pm : PacketManager) : Bool :=
  x.seqs.slots.any fun seq => seq != 0 && pm.wasLocalAcked seq

end UnacknowledgedExtraData

namespace Controller

variable (env : Platform) (c : Controller)

/-! ## Acknowledgements -/

/-- The entries of `reliablePackets` that `HandleReliablePackets` erases. -/
def erasedPackets (pm : PacketManager) : List ReliableOutgoingPacket :=
  c.reliablePackets.filter fun q => pm.wasLocalAcked q.pkt.pktInfo.seq

/-- The entries of `currentExtras` that `HandleReliablePackets` erases. -/
def erasedExtras (pm : PacketManager) : List UnacknowledgedExtraData :=
  c.currentExtras.filter (·.wasAcked pm)

/-- `HandleReliablePackets`, with `ProcessAcknowledgedOutgoingExtra` for each
extra it erases. -/
def handleReliablePackets (pm : PacketManager) : Controller :=
  { c with
    reliablePackets := c.reliablePackets.filter fun q => !pm.wasLocalAcked q.pkt.pktInfo.seq
    currentExtras := c.currentExtras.filter fun x => !x.wasAcked pm
    didReceiveGroupCallKeyAck := c.didReceiveGroupCallKeyAck ||
      (c.erasedExtras pm).any fun x => x.data.d.getID == ExtraKind.groupCallKey.id }

end Controller

namespace PacketManager

/-- A sent packet is acknowledged for the first time. -/
def newlyAcked (pm : PacketManager) (opkt : RecentOutgoingPacket) : Bool :=
  opkt.ackTime == 0 && pm.wasLocalAcked opkt.pkt.seq

/-- The entry of a packet that is acknowledged now. One that counts as lost is
not reported. -/
def acked (opkt : RecentOutgoingPacket) (now : Time) : RecentOutgoingPacket :=
  { opkt with
    ackTime := now
    rttTime := now - opkt.sendTime
    reports := if opkt.lost then opkt.reports else opkt.reports ++ [.packetAcknowledged] }

/-- The sent packets, with the times of the new acknowledgements. -/
def markAcked (pm : PacketManager) (now : Time) : PacketManager :=
  { pm with
    recentOutgoingPackets := pm.recentOutgoingPackets.map fun opkt =>
      if pm.newlyAcked opkt then acked opkt now else opkt }

end PacketManager

namespace Controller

variable (env : Platform) (c : Controller)

/-- The part of `ProcessIncomingPacket` behind the guard of `ackLocal`. -/
def processAck (now : Time) (packet : Packet) (manager : PacketManager) (hasSender : Bool) :
    Except Fault Controller :=
  let resumes := c.waitingForAcks && manager.lastAckedSeq ≥ c.firstSentPing
  let c := if resumes then
    { c with waitingForAcks := false, dontSendPackets := 10 }.post .resumeSending 1 else c
  let pm := manager.ackLocal packet.ackSeq packet.ackMask
  let acked : List RecentOutgoingPacket := pm.recentOutgoingPackets.filter pm.newlyAcked
  if !hasSender && acked.any (!·.lost) then .error .noSender
  else
    let told : List ConctlCall := acked.map fun opkt => .packetAcknowledged opkt.pkt
    let c := { c with
      sendLosses := c.sendLosses - UInt32.ofNat (acked.countP RecentOutgoingPacket.lost)
      recovered := c.recovered + acked.countP RecentOutgoingPacket.lost
      conctlCalls :=
        c.conctlCalls ++ ConctlCall.packetAcknowledged ⟨packet.seq, packet.streamId⟩ :: told }
    let pm := pm.markAcked now
    pure ((c.setManager packet.managerIndex.toNat pm).handleReliablePackets pm)

/-! ## Helpers of the handlers -/

def sendPublicEndpointsRequest : Controller :=
  if !c.allowP2p then c
  else
    let asks := c.useUDP && c.endpoints.any fun e => e.2.type == .udpRelay && !e.2.isIPv6Only
    let c := if asks then { c with waitingForRelayPeerInfo := true } else c
    if c.publicEndpointsReqCount + 1 < 10 then
      { c with publicEndpointsReqCount := c.publicEndpointsReqCount + 1 }.post
        .resendPublicEndpointsRequest 5
    else { c with publicEndpointsReqCount := 0 }

def updateDataSavingState : Controller :=
  { c with dataSavingMode := match c.config.dataSaving with
    | .always => true
    | .mobile => c.mobileNetwork
    | .never => false }

def startAudio : Controller :=
  let c := { c with audioStarted := true }
  if !c.micMuted && !env.audioInputStarts then
    { c with lastError := .audioIo, state := .failed }
  else c

def setupOutgoingVideoStream : Controller :=
  match env.commonCodec c.peerVideoDecoders with
  | none => c
  | some codec => { c with outgoingStreams := c.outgoingStreams ++ [env.videoStream codec] }

/-! ## The extras -/

/-- One round of the loop over the peer's decoders. -/
def addPeerDecoder (decoder : UInt32) : Controller :=
  { c with peerVideoDecoders := c.peerVideoDecoders ++ [decoder] }.setupOutgoingVideoStream env

/-- Video may flow in one of the two directions. -/
def videoNegotiated (d : ExtraInit) : Bool :=
  (d.flags &&& ExtraInit.videoSendSupported != 0 && c.config.enableVideoReceive) ||
    (d.flags &&& ExtraInit.videoRecvSupported != 0 && c.config.enableVideoSend)

/-- What the first init tells about the peer. -/
def learnCapabilities (d : ExtraInit) : Controller :=
  let c := if d.flags &&& ExtraInit.dataSavingEnabled != 0 then
    { c with dataSavingRequestedByPeer := true }.updateDataSavingState else c
  { c with peerCapabilities := c.peerCapabilities |||
      (if d.flags &&& ExtraInit.groupCallSupported != 0 then 1 else 0) |||
      (if d.flags &&& ExtraInit.videoRecvSupported != 0 then 4 else 0) |||
      (if d.flags &&& ExtraInit.videoSendSupported != 0 then 2 else 0) }

/-- The ack names this side's streams. -/
def initAck : ExtraInitAck where
  peerVersion := protocolVersion
  minVersion := minProtocolVersion
  streams := (c.outgoingStreams.filter fun s => c.ver.isNew || s.type == StreamType.audio).map
    (·.getStreamInfo)

/-- The versions overlap, as the init handler sees it. -/
def compatibleInit (d : ExtraInit) : Bool :=
  !(d.minVersion > protocolVersion || d.minVersion < minProtocolVersion)

/-- The first init decides on the endpoint. -/
def adoptEndpoint (src : Endpoint) : Controller :=
  let c := { c with receivedInit := true }
  if (src.type == .udpRelay && !c.udpBad) || src.type == .tcpRelay then
    { c with
      currentEndpoint := src.id
      preferredRelay := if src.type == .udpRelay || (c.useTCP && src.type == .tcpRelay) then src.id
        else c.preferredRelay }
  else c

/-- The decoders of the first init. -/
def learnDecoders (d : ExtraInit) : Controller :=
  if c.videoNegotiated d then d.decoders.foldl (·.addPeerDecoder env) c else c

/-- The reply, carried by a NOP. -/
def answer (now : Time) (reply : Extra) : Except Fault Controller :=
  (c.sendExtra { d := reply } 0).sendNopPacket env now 0

def processInit (now : Time) (d : ExtraInit) (src : Int64) : Except Fault Controller := do
  let first := !c.receivedInit
  let c := if first then
    { c with ver := { c.ver with peerVersion := d.peerVersion.toInt32.toInt } } else c
  if !compatibleInit d then
    pure { c with lastError := .incompatible, state := .failed }
  else
    let c := if first then (c.learnCapabilities d).learnDecoders env d else c
    let c ← c.answer env now (.initAck c.initAck)
    let srcEndpoint ← c.endpointAt src
    let c := if first then c.adoptEndpoint srcEndpoint else c
    pure (if !c.audioStarted && c.receivedInitAck then c.startAudio env else c)

/-- The incoming stream made of one entry of the init ack, if any. -/
def incomingStreamOf (s : ExtraStreamInfo) : Option IncomingStream :=
  if s.type = StreamType.video then
    if c.ver.peerVersion < 9 then none
    else some { id := s.streamId, type := s.type, enabled := s.enabled, codec := s.codec }
  else if s.type = StreamType.audio then
    some { id := s.streamId, type := s.type, enabled := s.enabled, codec := s.codec }
  else if s.type = StreamType.signaling then
    some { id := s.streamId, type := s.type, enabled := s.enabled }
  else none

def processInitAck (d : ExtraInitAck) : Controller :=
  if c.receivedInitAck then c
  else
    let c := { c with
      receivedInitAck := true, initTimeoutPosted := false
      ver := { c.ver with peerVersion := d.peerVersion.toInt32.toInt } }
    if d.minVersion > protocolVersion || d.peerVersion < minProtocolVersion then
      { c with lastError := .incompatible, state := .failed }
    else
      let signaling : List IncomingStream :=
        if c.ver.isNew then [] else [{ id := StreamId.signaling, type := StreamType.signaling }]
      let c := { c with
        incomingStreams := c.incomingStreams ++ signaling ++ d.streams.filterMap c.incomingStreamOf }
      if !d.streams.any (·.type == StreamType.audio) then c
      else
        let c := { c with useMTProto2 := c.useMTProto2 || c.ver.peerVersion ≥ 5 }
        let c := if !c.audioStarted && c.receivedInit then c.startAudio env else c
        let c := c.post .setEstablishedIfWaiting c.config.establishedDelayIfNoStreamData
        if c.allowP2p then c.sendPublicEndpointsRequest else c

/-- The peer's state of one of its streams. -/
def applyStreamFlags (d : ExtraStreamFlags) (s : IncomingStream) : IncomingStream :=
  { s with
    enabled := d.flags &&& ExtraStreamFlags.enabled != 0
    paused := d.flags &&& ExtraStreamFlags.paused != 0
    extraECEnabled := if s.type = StreamType.audio then d.flags &&& ExtraStreamFlags.extraEC != 0
      else s.extraECEnabled }

def processStreamFlags (d : ExtraStreamFlags) : Controller :=
  match c.incomingStreams.findIdx? (·.id == d.streamId) with
  | none => c
  | some i => { c with incomingStreams := c.incomingStreams.modify i (applyStreamFlags d) }

/-- The stream is looked up by position, and must be a video stream. -/
def processStreamCsd (d : ExtraStreamCsd) : Controller :=
  { c with incomingStreams := c.incomingStreams.modify d.streamId.toNat fun s =>
      if s.type = StreamType.video then
        { s with
          width := d.width, height := d.height, codecSpecificData := d.data, csdIsValid := false }
      else s }

def processLanEndpoint (d : ExtraLanEndpoint) : Controller :=
  if !c.allowP2p then c
  else
    let c := if c.currentEndpoint = EndpointID.lanv4 then
      { c with currentEndpoint := c.preferredRelay } else c
    let lan : Endpoint :=
      { id := EndpointID.lanv4, port := d.port, address := .ipv4 d.address, type := .udpP2PLan }
    { c with endpoints := c.endpoints.set EndpointID.lanv4 lan }

def processIpv6Endpoint (d : ExtraIpv6Endpoint) : Controller :=
  if !c.allowP2p then c
  else
    let ep : Endpoint :=
      { id := EndpointID.p2pv6, port := d.port, v6address := .ipv6 d.address, type := .udpP2PInet }
    let c := { c with
      peerIPv6Available := true, endpoints := c.endpoints.set EndpointID.p2pv6 ep }
    if c.myIPv6.isEmpty then c else { c with currentEndpoint := EndpointID.p2pv6 }

def processNetworkChanged (d : ExtraNetworkChanged) : Except Fault Controller := do
  let c := { c with wasNetworkHandover := true }
  let current ← c.endpointAt c.currentEndpoint
  let c := if current.isReflector then c else { c with currentEndpoint := c.preferredRelay }
  let c := if c.allowP2p then c.sendPublicEndpointsRequest else c
  if c.ver.peerVersion < 2 then pure c
  else
    let c := { c with
      dataSavingRequestedByPeer := d.flags &&& ExtraInit.dataSavingEnabled != 0 }
    let c := c.updateDataSavingState
    pure { c with endpoints := c.endpoints.map fun e => (e.1, e.2.resetPingStats) }

def processGroupCallKey : Controller :=
  if !c.didReceiveGroupCallKey && !c.didSendGroupCallKey then
    { c with didReceiveGroupCallKey := true }
  else c

/-- A ping is answered, unless it came from a peer that is not a relay while
P2P is off. -/
def answersPing (src : Endpoint) : Bool := src.isReflector || c.allowP2p

def processPing (now : Time) (src : Int64) : Except Fault Controller := do
  let srcEndpoint ← c.endpointAt src
  if c.answersPing srcEndpoint then c.answer env now (.pong {}) else pure c

def processPong (now : Time) (d : ExtraPong) (src : Int64) : Except Fault Controller := do
  let srcEndpoint ← c.endpointAt src
  if d.seq ≠ 0 && d.seq == srcEndpoint.lastPingSeq then
    let sample := now - srcEndpoint.lastPingTime
    let rtts := srcEndpoint.rtts.add sample
    let averageRTT := rtts.nonZeroAverage
    let samples := srcEndpoint.samples ++ [sample]
    pure { c with
      endpoints := c.endpoints.set src { srcEndpoint with rtts, averageRTT, samples }
      needRate := c.needRate || averageRTT > c.config.rateMaxAcceptableRTT }
  else pure c

/-- The extra repeats the last one of its type. -/
def repeatsLast (x : WrappedExtra) : Bool :=
  env.hash x != 0 && c.lastReceivedExtrasByType x.d.getID == env.hash x

def noteReceived (x : WrappedExtra) : Controller :=
  { c with lastReceivedExtrasByType :=
      Function.update c.lastReceivedExtrasByType x.d.getID (env.hash x) }

/-- The handler of an extra's type. -/
def dispatchExtra (now : Time) (x : Extra) (src : Int64) : Except Fault Controller :=
  match x with
  | .init d => c.processInit env now d src
  | .initAck d => pure (c.processInitAck env d)
  | .streamFlags d => pure (c.processStreamFlags d)
  | .streamCsd d => pure (c.processStreamCsd d)
  | .lanEndpoint d => pure (c.processLanEndpoint d)
  | .networkChanged d => c.processNetworkChanged d
  | .groupCallKey _ => pure c.processGroupCallKey
  | .groupCallUpgrade => pure { c with didInvokeUpgradeCallback := true }
  | .ipv6Endpoint d => pure (c.processIpv6Endpoint d)
  | .ping => c.processPing env now src
  | .pong d => c.processPong now d src

def processExtraData (now : Time) (src : Int64) (x : WrappedExtra) : Except Fault Controller :=
  if c.repeatsLast env x then pure c
  else (c.noteReceived env x).dispatchExtra env now x.d src

def processExtras (now : Time) (src : Int64) (xs : List WrappedExtra) : Except Fault Controller :=
  xs.foldlM (fun c x => c.processExtraData env now src x) c

/-! ## The packet -/

/-- The switch to a relay when the peer's address seems to have changed. The
assignment through `_currentEndpoint` goes to the old current entry. -/
def switchToRelay (manager : PacketManager) (src : Int64) : Except Fault Controller := do
  let current ← c.endpointAt c.currentEndpoint
  let srcEndpoint ← c.endpointAt src
  if (srcEndpoint.id ≠ c.currentEndpoint && srcEndpoint.isReflector &&
      (current.isP2P || current.averageRTT == 0)) &&
      seqgt (manager.lastSentSeq - 32) manager.lastAckedSeq then
    let c := { c with
      endpoints := c.endpoints.set c.currentEndpoint srcEndpoint
      currentEndpoint := srcEndpoint.id }
    pure (if c.allowP2p then c.sendPublicEndpointsRequest else c)
  else pure c

/-- The NOP that acknowledges what was received. -/
def countUnacknowledged (now : Time) : Except Fault Controller :=
  let count := c.unacknowledgedIncomingPacketCount
  let c := { c with unacknowledgedIncomingPacketCount := count + 1 }
  if count > c.config.unackNopThreshold then c.sendNopPacket env now 0 else pure c

def noteFirstStreamPacket : Controller :=
  if c.receivedFirstStreamPacket then c
  else
    let c := { c with receivedFirstStreamPacket := true }
    if c.state ≠ .established && c.receivedInitAck then c.post .setEstablished (1 / 2) else c

/-- What the arrival of media data changes in the controller itself. -/
def noteStreamPacket (packet : Packet) (src : Int64) : Except Fault Controller :=
  if packet.data.isNone then pure c
  else do
    let srcEndpoint ← c.endpointAt src
    let c := c.noteFirstStreamPacket
    pure (if srcEndpoint.type = .udpRelay && srcEndpoint.id ≠ c.peerPreferredRelay then
      { c with peerPreferredRelay := srcEndpoint.id } else c)

/-- `ProcessIncomingPacket(Packet&, Endpoint&)` behind the duplicate check. -/
def processFreshPacket (now : Time) (packet : Packet) (src : Int64) : Except Fault Controller := do
  let c ← c.processExtras env now src packet.extraSignaling
  let stream ← c.outgoingStream packet.managerIndex.toNat
  let sender ← c.outgoingStream stream.packetManager.transportId.toNat
  let c ← if stream.packetManager.takesAck packet.ackSeq then
    c.processAck now packet stream.packetManager sender.hasSender else pure c
  let stream ← c.outgoingStream packet.managerIndex.toNat
  let c ← c.switchToRelay stream.packetManager src
  let c ← c.countUnacknowledged env now
  c.noteStreamPacket packet src

def processIncomingPacket (now : Time) (packet : Packet) (src : Int64) :
    Except Fault Controller := do
  let stream ← c.outgoingStream packet.managerIndex.toNat
  let acked := stream.packetManager.ackRemotePacket packet
  if acked.1 then
    (c.setManager packet.managerIndex.toNat acked.2).processFreshPacket env now packet src
  else pure c

/-! ## Events -/

end Controller

/-- What can happen to a controller between two states its message thread
shows. -/
inductive Event where
  /-- A packet that `Packet::parse` accepted, from an endpoint of the table. -/
  | packet (p : Packet) (src : Int64)
  /-- `SendPacket` of a packet its stream has not numbered yet. -/
  | sendPacket (pkt : OutgoingPacket) (retryInterval timeout : Time) (tries : UInt8)
  | sendNopPacket (endpointId : Int64)
  | sendExtra (e : Extra) (endpointId : Int64)
  | sendInit
  | updateReliablePackets
  | trySendOutgoingPackets
  /-- The UDP socket becomes ready, or is not any more. -/
  | udpSocket (ready : Bool)
  /-- The same for the TCP socket of an endpoint. -/
  | tcpSocket (key : Int64) (ready : Bool)

namespace Controller

variable (env : Platform) (c : Controller)

def handle (now : Time) : Event → Except Fault Controller
  | .packet p src => c.processIncomingPacket env now p src
  | .sendPacket pkt retryInterval timeout tries =>
    c.sendPacket env now { pkt with packet := { pkt.packet with seq := 0, legacySeq := 0 } }
      retryInterval timeout tries
  | .sendNopPacket endpointId => c.sendNopPacket env now endpointId
  | .sendExtra e endpointId => pure (c.sendExtra { d := e } endpointId)
  | .sendInit => c.sendInit env now
  | .updateReliablePackets => c.updateReliablePackets now
  | .trySendOutgoingPackets => c.trySendOutgoingPackets now
  | .udpSocket ready => pure { c with udpSocketReady := ready }
  | .tcpSocket key ready =>
    pure { c with endpoints := c.endpoints.map fun e =>
      if e.1 = key then (e.1, { e.2 with socket := some ready }) else e }

/-- A step of a run: an event, and the time of the message thread's clock. -/
def step (e : Time × Event) : Except Fault Controller := c.handle env e.1 e.2

end Controller

end Tgvoip
