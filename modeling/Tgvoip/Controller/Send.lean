import Tgvoip.Controller.State

/-!
# Send — how a packet leaves the controller

`Packet::prepare` (`PacketStructs.cpp`), `NetworkAPI.cpp` and
`Reliable.cpp`. A packet is numbered by the manager of its stream, takes
along the pending extras of its endpoint (each of which remembers the
seq), and then goes out at once, into `sendQueue`, or into
`reliablePackets`, from where `updateReliablePackets` sends it.

`now` is `GetCurrentTime()`.
-/

namespace Tgvoip

open ByteReader

/-! ## Preparing a packet -/

namespace Packet

/-- `Packet::prepare(PacketManager&)`: the packet, and the manager behind it.
A packet with a seq is left as it is. -/
def prepare (p : Packet) (pm : PacketManager) : Packet × PacketManager :=
  if p.seq = 0 then
    ({ p with
        seq := pm.nextLocalSeq.1, ackSeq := pm.lastRemoteSeq, ackMask := pm.lastRemoteSeqsMask
        streamId := pm.transportId }, pm.nextLocalSeq.2)
  else (p, pm)

end Packet

namespace UnacknowledgedExtraData

/-- Whether the extra goes along on a packet to the endpoint. -/
def rides (x : UnacknowledgedExtraData) (endpointId : Int64) : Bool :=
  x.endpointId == 0 || x.endpointId == endpointId

def remember (x : UnacknowledgedExtraData) (seq : UInt32) : UnacknowledgedExtraData :=
  { x with seqs := x.seqs.add seq }

end UnacknowledgedExtraData

/-- The extras a packet takes along. -/
def ridingExtras (xs : List UnacknowledgedExtraData) (endpointId : Int64) : List WrappedExtra :=
  (xs.filter (·.rides endpointId)).map (·.data)

/-- The same, with the calls of `SendExtra` they came from. -/
def ridingOccurrences (xs : List UnacknowledgedExtraData) (endpointId : Int64) :
    List (ℕ × WrappedExtra) :=
  (xs.filter (·.rides endpointId)).map fun x => (x.occurrence, x.data)

/-- The loop over `currentExtras`, for the new format. -/
def rememberSeq (endpointId : Int64) (seq : UInt32) (xs : List UnacknowledgedExtraData) :
    List UnacknowledgedExtraData :=
  xs.map fun x => if x.rides endpointId then x.remember seq else x

/-- The loop for the legacy formats: an extra with a packet type of its own
remembers the seq of that packet. -/
def rememberLegacySeqs (endpointId : Int64) (seq : UInt32) (peerVersion : Int) :
    UInt32 → List UnacknowledgedExtraData → List UnacknowledgedExtraData
  | _, [] => []
  | legacySeq, x :: xs =>
    if x.rides endpointId then
      if x.data.d.chooseType peerVersion = PktType.nop then
        x.remember seq :: rememberLegacySeqs endpointId seq peerVersion legacySeq xs
      else x.remember legacySeq :: rememberLegacySeqs endpointId seq peerVersion (legacySeq + 1) xs
    else x :: rememberLegacySeqs endpointId seq peerVersion legacySeq xs

structure OutgoingPacket where
  packet : Packet
  endpoint : Int64 := 0

namespace Controller

variable (env : Platform) (c : Controller)

/-- `PreparePacket`: seal the bytes for the endpoint. -/
def preparePacket (data : Bytes) (ep : Endpoint) (pktInfo : CongestionControlPacket)
    (carried : Packet) : PendingOutgoingPacket where
  packet :=
    (if ep.isReflector then ep.peerTag else if c.ver.peerVersion < 9 then c.callID.toList else []) ++
      if data.isEmpty then [] else env.encryptPacket c.ver data
  pktInfo := pktInfo
  endpoint := ep.id
  carried := carried

def noteSealing (ep : Endpoint) : Controller :=
  { c with sealings := c.sealings ++ [(c.ver, ep)] }

/-! ## Sending at once -/

/-- The socket that serves the endpoint is ready. -/
def canSend (endpoint : Endpoint) : Bool :=
  if endpoint.type = .tcpRelay then endpoint.socket == some true else c.udpSocketReady

/-- The endpoint's transport may be used. -/
def usesTransport (endpoint : Endpoint) : Bool :=
  if endpoint.type = .tcpRelay then c.useTCP else c.useUDP

/-- A TCP relay without a socket gets one, not ready yet. -/
def connectIfNeeded (key : Int64) (endpoint : Endpoint) : Controller :=
  if endpoint.type = .tcpRelay && endpoint.socket.isNone then
    { c with endpoints := c.endpoints.set key { endpoint with socket := some false } }
  else c

/-- The packet goes to the send thread. -/
def transmit (now : Time) (pkt : PendingOutgoingPacket) (endpoint : Endpoint) :
    Except Fault Controller := do
  let stream ← c.outgoingStream pkt.pktInfo.streamId.toNat
  let recent : RecentOutgoingPacket :=
    { pkt := pkt.pktInfo, size := pkt.packet.length, endpoint := pkt.endpoint, sendTime := now }
  let c := c.setManager pkt.pktInfo.streamId.toNat
    (stream.packetManager.addRecentOutgoingPacket recent)
  pure { c with
    conctlCalls := c.conctlCalls ++ [.packetSent pkt.pktInfo pkt.packet.length]
    rawSendQueue := c.rawSendQueue ++
      [{ pkt, address := endpoint.getAddress, port := endpoint.port
         tcp := endpoint.type == .tcpRelay }]
    unacknowledgedIncomingPacketCount := 0 }

def sendOrEnqueuePacket (now : Time) (pkt : PendingOutgoingPacket) (enqueue : Bool) :
    Except Fault Controller := do
  let endpoint ← c.endpointForPacket pkt.endpoint
  let c := c.connectIfNeeded (c.endpointKey pkt.endpoint) endpoint
  if c.canSend endpoint then
    if c.usesTransport endpoint && !c.stopping then c.transmit now pkt endpoint
    else pure c
  else pure (if enqueue then { c with sendQueue := c.sendQueue ++ [pkt] } else c)

/-! ## Sending reliably -/

def sendPacketReliably (pkt : PendingOutgoingPacket) (retryInterval timeout : Time)
    (tries : UInt8) : Controller :=
  let entry : ReliableOutgoingPacket := { pkt, retryInterval, timeout, tries }
  let c := { c with reliablePackets := c.reliablePackets ++ [entry] }
  let c := c.post .updateReliablePackets 0
  if timeout > 0 then c.post .updateReliablePackets timeout else c

end Controller

namespace ReliableOutgoingPacket

/-- One round of the loop in `UpdateReliablePackets`: the entry is erased, or
kept with a try less and, if its interval is over, sent. -/
def update (q : ReliableOutgoingPacket) (now : Time) : Option (ReliableOutgoingPacket × Bool) :=
  if q.timeout > 0 && q.firstSentTime > 0 && now - q.firstSentTime ≥ q.timeout then none
  else if q.tries = 0 then none
  else if now - q.lastSentTime ≥ q.retryInterval then
    some ({ q with
      tries := q.tries - 1, lastSentTime := now, transmissions := q.transmissions + 1
      firstSentTime := if q.firstSentTime = 0 then now else q.firstSentTime }, true)
  else some ({ q with tries := q.tries - 1 }, false)

end ReliableOutgoingPacket

namespace Controller

variable (env : Platform) (c : Controller)

def updateReliablePackets (now : Time) : Except Fault Controller :=
  let updated := c.reliablePackets.filterMap (·.update now)
  let due := (updated.filter (·.2)).map (·.1)
  let c := { c with
    reliablePackets := updated.map (·.1)
    posted := c.posted ++ due.map fun q => (.updateReliablePackets, q.retryInterval) }
  due.foldlM (fun c q => c.sendOrEnqueuePacket now q.pkt true) c

/-! ## SendPacket -/

/-- `Packet::prepare` for the new format: the packet, with the extras it takes
along, and the controller behind it. -/
def prepareNew (p : Packet) (endpointId : Int64) (stream : OutgoingStream) : Packet × Controller :=
  let prepared := p.prepare stream.packetManager
  let packet := { prepared.1 with extraSignaling := ridingExtras c.currentExtras endpointId }
  let c := c.setManager p.streamId.toNat prepared.2
  (packet, { c with
    currentExtras := rememberSeq endpointId packet.seq c.currentExtras
    preparedPackets := c.preparedPackets ++ [packet]
    preparedOccurrences := c.preparedOccurrences ++
      [ridingOccurrences c.currentExtras endpointId]
    preparedUnder := c.preparedUnder ++ [(c.ver, c.state)] })

/-- The branch of `SendPacket` for the new format. -/
def sendNewPacket (now : Time) (p : Packet) (endpoint : Endpoint) (stream : OutgoingStream)
    (retryInterval timeout : Time) (tries : UInt8) : Except Fault Controller :=
  let packet := (c.prepareNew p endpoint.id stream).1
  let c := (c.prepareNew p endpoint.id stream).2.noteSealing endpoint
  let res := c.preparePacket env (packet.serialize c.ver) endpoint ⟨packet.seq, packet.streamId⟩
    packet
  if tries ≠ 0 then pure (c.sendPacketReliably res retryInterval timeout tries)
  else c.sendOrEnqueuePacket now res true

/-- The legacy numbering of `prepare`: the packet, and the Signaling manager
behind it. -/
def prepareLegacySeq (p : Packet) (pm legacyPm : PacketManager) : Packet × PacketManager :=
  if p.legacySeq = 0 then
    if pm.transportId ≠ legacyPm.transportId then
      ({ p with
          legacySeq := legacyPm.nextLocalSeq.1, ackSeq := legacyPm.lastRemoteSeq
          ackMask := legacyPm.lastRemoteSeqsMask }, legacyPm.nextLocalSeq.2)
    else ({ p with legacySeq := p.seq }, legacyPm)
  else (p, legacyPm)

/-- The branch of `SendPacket` for the legacy formats. -/
def sendLegacyPacket (now : Time) (p : Packet) (endpoint : Endpoint) (stream : OutgoingStream)
    (retryInterval timeout : Time) (tries : UInt8) : Except Fault Controller := do
  let prepared := p.prepare stream.packetManager
  let c := c.setManager p.streamId.toNat prepared.2
  let signaling ← c.outgoingStream StreamId.signaling.toNat
  let numbered := prepareLegacySeq prepared.1 prepared.2 signaling.packetManager
  let packet :=
    { numbered.1 with extraSignaling := ridingExtras c.currentExtras endpoint.id }
  let out := packet.serializeLegacy { callID := c.callID, state := c.state, random := env.random }
    c.ver
  let c := c.setManager StreamId.signaling.toNat (numbered.2.setLocalSeq out.2)
  let c := { c with
    currentExtras := rememberLegacySeqs endpoint.id packet.seq c.ver.peerVersion packet.legacySeq
      c.currentExtras
    preparedPackets := c.preparedPackets ++ [packet]
    preparedOccurrences := c.preparedOccurrences ++
      [ridingOccurrences c.currentExtras endpoint.id]
    preparedUnder := c.preparedUnder ++ [(c.ver, c.state)] }
  out.1.zipIdx.foldlM (fun c t =>
    let c := c.noteSealing endpoint
    let res := c.preparePacket env t.1.1 endpoint
      ⟨packet.legacySeq + UInt32.ofNat t.2, StreamId.signaling⟩ packet
    if t.1.2 || tries ≠ 0 then
      pure (c.sendPacketReliably res retryInterval timeout (if tries ≠ 0 then tries else 0xFF))
    else c.sendOrEnqueuePacket now res true) c

def sendPacket (now : Time) (pkt : OutgoingPacket) (retryInterval timeout : Time)
    (tries : UInt8) : Except Fault Controller := do
  let endpoint ← c.endpointForPacket pkt.endpoint
  let stream ← c.outgoingStream pkt.packet.streamId.toNat
  if c.ver.isNew then
    c.sendNewPacket env now pkt.packet endpoint stream retryInterval timeout tries
  else c.sendLegacyPacket env now pkt.packet endpoint stream retryInterval timeout tries

/-- `SendNopPacket` with its default arguments. -/
def sendNopPacket (now : Time) (endpointId : Int64) : Except Fault Controller :=
  c.sendPacket env now { packet := {}, endpoint := endpointId } (1 / 2) 5 0

/-! ## Extras -/

/-- An extra is replaced by one of its type for the same endpoint. -/
def sendExtra (extra : WrappedExtra) (endpointId : Int64) : Controller :=
  match c.currentExtras.findIdx? fun x =>
      x.data.d.getID == extra.d.getID && x.endpointId == endpointId with
  | some i =>
    { c with
      currentExtras := c.currentExtras.modify i fun x =>
        { x with seqs := x.seqs.reset, data := extra, occurrence := c.issuedExtras }
      issuedExtras := c.issuedExtras + 1 }
  | none =>
    { c with
      currentExtras :=
        c.currentExtras ++ [{ data := extra, endpointId, occurrence := c.issuedExtras }]
      issuedExtras := c.issuedExtras + 1 }

/-- The init message of this side. -/
def initExtra : ExtraInit where
  peerVersion := protocolVersion
  minVersion := minProtocolVersion
  flags :=
    (if c.config.enableCallUpgrade then ExtraInit.groupCallSupported else 0) |||
      (if c.config.enableVideoReceive then ExtraInit.videoRecvSupported else 0) |||
      (if c.config.enableVideoSend then ExtraInit.videoSendSupported else 0) |||
      (if c.dataSavingMode then ExtraInit.dataSavingEnabled else 0)
  audioCodecs := [Codec.opus]
  decoders := if c.config.enableVideoReceive then env.availableDecoders else []
  maxResolution := if c.ver.connectionMaxLayer ≥ 92 then env.maximumResolution else 0

/-- The init packet to one endpoint, with the seq drawn for all of them. -/
def sendInitTo (now : Time) (seq ackSeq ackMask : UInt32) (e : Endpoint) :
    Except Fault Controller :=
  if e.type = .tcpRelay && !c.useTCP then pure c
  else c.sendPacket env now { packet := { seq, ackSeq, ackMask }, endpoint := e.id } (1 / 2)
    c.config.initTimeout 0xFF

def sendInit (now : Time) : Except Fault Controller := do
  let c := c.sendExtra { d := .init (c.initExtra env) } 0
  let signaling ← c.outgoingStream StreamId.signaling.toNat
  let pm := signaling.packetManager
  let c := c.setManager StreamId.signaling.toNat pm.nextLocalSeq.2
  let c ← (c.endpoints.map (·.2)).foldlM (fun c e =>
    c.sendInitTo env now pm.nextLocalSeq.1 pm.lastRemoteSeq pm.lastRemoteSeqsMask e) c
  pure (if c.state = .waitInit then c.setState .waitInitAck else c)

/-! ## The queue of packets that found no ready socket -/

/-- `TrySendOutgoingPackets` on the packets of the queue: those it keeps. -/
def trySendQueued (now : Time) :
    Controller → List PendingOutgoingPacket → Except Fault (Controller × List PendingOutgoingPacket)
  | c, [] => pure (c, [])
  | c, pkt :: queue =>
    match c.endpoints.at? (c.endpointKey pkt.endpoint) with
    | none => if pkt.endpoint ≠ 0 then trySendQueued now c queue else .error .noEndpoint
    | some endpoint =>
      if c.canSend endpoint then do
        let c ← c.sendOrEnqueuePacket now pkt false
        trySendQueued now c queue
      else do
        let rest ← trySendQueued now c queue
        pure (rest.1, pkt :: rest.2)

def trySendOutgoingPackets (now : Time) : Except Fault Controller := do
  let rest ← trySendQueued now c c.sendQueue
  pure { rest.1 with sendQueue := rest.2 }

end Controller

end Tgvoip
