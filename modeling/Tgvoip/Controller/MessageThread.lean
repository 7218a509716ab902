import Tgvoip.Controller.Relays

/-!
# MessageThread — a call, and the functions posted for it

`Tick.cpp`, `Init.cpp`, `PublicAPI.cpp` and `MessageThread.cpp` as far as
they change the state of a call or its endpoints. A posted function runs
once, no earlier than it is due. The periodic timers and the calls of the
application are events of their own, which can happen at any time.
-/

namespace Tgvoip

open ByteReader

/-- What `SendStreamFlags` tells of a stream. -/
def OutgoingStream.streamFlags (s : OutgoingStream) : ExtraStreamFlags where
  streamId := s.id
  flags :=
    (if s.enabled then ExtraStreamFlags.enabled else 0) |||
      (if s.type = StreamType.audio && s.extraECEnabled then ExtraStreamFlags.extraEC else 0) |||
      (if s.paused then ExtraStreamFlags.paused else 0)

namespace Controller

variable (env : Platform) (c : Controller)

/-! ## The state -/

def failWith (err : CallError) : Controller := { c with lastError := err, state := .failed }

/-- `SetState(STATE_ESTABLISHED)`. The call of `SetMicMute` in it finds nothing
to do. -/
def establish : Controller :=
  { c with
    state := .established, wasEstablished := true
    periodicTimers := if c.wasEstablished then c.periodicTimers
      else c.periodicTimers ++ PeriodicTimer.all }

def sendStreamFlags (s : OutgoingStream) : Controller :=
  c.sendExtra { d := .streamFlags s.streamFlags } 0

/-- The function `SetMicMute` posts. -/
def sendMicState : Controller :=
  match c.outgoingStreams.findIdx? (·.type == StreamType.audio) with
  | none => c
  | some i =>
    let c := { c with
      outgoingStreams := c.outgoingStreams.modify i fun s => { s with enabled := !c.micMuted } }
    match c.outgoingStreams[i]? with
    | none => c
    | some s => c.sendStreamFlags s

/-- `SetMicMute`: `inputWorks` tells whether the input device, if there is one,
is initialised after it was stopped or started. -/
def setMicMute (mute inputWorks : Bool) : Controller :=
  if c.micMuted = mute then c
  else
    let c := { c with micMuted := mute }
    -- `audioInput` was stopped or started
    if !inputWorks then c.failWith .audioIo
    else if c.state = .established then c.post .sendMicState 0
    else c

/-! ## Timers -/

/-- A connection that hears nothing is reconnecting. -/
def noteSilence (now : Time) : Controller :=
  if c.state = .established && now - c.lastRecvPacketTime ≥ c.config.reconnectingTimeout then
    { c with
      state := .reconnecting, wasReconnecting := true
      needRate := c.needRate || c.wantsRate NeedRateFlag.reconnecting }.resetUdpAvailability
  else c

/-- The receive timeout of an endpoint of the peer's own: the relay is tried. -/
def leaveP2p (now : Time) : Controller :=
  let c := { c with
    currentEndpoint := c.preferredRelay
    endpoints := c.endpoints.map fun (e : Int64 × Endpoint) =>
      (e.1, if e.2.isP2P then e.2.resetPingStats else e.2) }
  let c := if c.allowP2p then c.sendPublicEndpointsRequest else c
  { c.updateDataSavingState.sendDataSavingMode with lastRecvPacketTime := now }

/-- `UpdateAudioBitrate` without the bitrate: `audioWorks` tells whether both
audio devices are initialised. -/
def updateAudioBitrate (now : Time) (audioWorks : Bool) : Except Fault Controller :=
  let c := if audioWorks then c else c.failWith .audioIo
  let c := c.noteSilence now
  if (c.state = .established || c.state = .reconnecting) &&
      now - c.lastRecvPacketTime ≥ c.config.recvTimeout then do
    let current ← c.endpointAt c.currentEndpoint
    pure (if current.isReflector then c.failWith .timeout else c.leaveP2p now)
  else pure c

/-- The function `InitializeTimers` posts. -/
def runInitTimeout : Controller :=
  if c.initTimeoutPosted then { c with initTimeoutPosted := false }.failWith .timeout else c

/-- A posted function runs. -/
def run (now : Time) : Task → Except Fault Controller
  | .updateReliablePackets => c.updateReliablePackets now
  | .resumeSending => pure { c with dontSendPackets := 0 }
  | .setEstablished => pure c.establish
  | .setEstablishedIfWaiting => pure (if c.state = .waitInitAck then c.establish else c)
  | .resendPublicEndpointsRequest =>
    pure (if c.waitingForRelayPeerInfo then c.sendPublicEndpointsRequest else c)
  | .networkHandover => c.networkHandover
  | .sendMicState => pure c.sendMicState

/-! ## Datagrams -/

/-- A P2P endpoint is where its packets come from. -/
def moveP2pEndpoint (src : Int64) (address : NetworkAddress) (port : UInt16) :
    Except Fault Controller := do
  let srcEndpoint ← c.endpointAt src
  let moved := srcEndpoint.port ≠ port || srcEndpoint.address ≠ address
  match address with
  | .ipv6 _ => pure c
  | .ipv4 _ =>
    pure (if srcEndpoint.type = .udpP2PInet && !srcEndpoint.isIPv6Only && moved then
      { c with endpoints := c.endpoints.set src { srcEndpoint with address := address, port := port } }
      else c)

/-- What `ProcessIncomingPacket` notes of a datagram that `decryptPacket`
accepts. -/
def noteDatagram (now : Time) (src : Int64) (address : NetworkAddress) (port : UInt16) :
    Except Fault Controller :=
  let c := { c with lastRecvPacketTime := now }
  -- a valid packet ends the reconnecting
  let c := if c.state = .reconnecting then c.establish else c
  c.moveP2pEndpoint src address port

/-- `ProcessIncomingPacket` of such a datagram: `packets` are what
`Packet::parse` reads in it, none where it fails. -/
def receive (now : Time) (src : Int64) (address : NetworkAddress) (port : UInt16)
    (packets : List Packet) : Except Fault Controller := do
  let c ← c.noteDatagram now src address port
  packets.foldlM (fun c p => c.processIncomingPacket env now p src) c

end Controller

/-! ## The message thread -/

inductive ThreadEvent where
  /-- A handler that is posted by another thread, or called by the application. -/
  | handler (e : Event)
  | datagram (src : Int64) (address : NetworkAddress) (port : UInt16) (packets : List Packet)
  | relayPacket (src : Int64) (bs : Bytes) (here : LocalInterface)
  /-- One of the posted functions. -/
  | posted (i : ℕ)
  | initTimeout
  | updateAudioBitrate (audioWorks : Bool)
  | sendRelayPings
  | sendUdpPings
  | evaluateUdpPingResults
  | resetUdpAvailability
  | addTCPRelays
  | addIPv6Relays
  | setNetworkType (mobile : Bool) (itfName : String) (myIPv6 : NetworkAddress)
  | setMicMute (mute inputWorks : Bool)
  /-- `Start`, `InitializeAudio` or `RunRecvThread` finds that a device, a socket
  or the proxy does not work. -/
  | deviceFails (err : Option CallError)
  /-- `RunRecvThread` closes the TCP socket of an endpoint. -/
  | closeSocket (key : Int64)

structure MessageThread where
  c : Controller
  /-- The functions that were posted and did not run yet, and when they are due. -/
  queue : List (Task × Time) := []

namespace MessageThread

variable (env : Platform) (t : MessageThread)

/-- The posted function an event runs. -/
def due (now : Time) : ThreadEvent → Option Task
  | .posted i => (t.queue[i]?).bind fun q => if q.2 ≤ now then some q.1 else none
  | _ => none

def handle (now : Time) : ThreadEvent → Except Fault Controller
  | .handler e => t.c.handle env now e
  | .datagram src address port packets => t.c.receive env now src address port packets
  | .relayPacket src bs here => t.c.parseRelayPacket bs here src
  | .posted i =>
    match t.due now (.posted i) with
    | none => pure t.c
    | some task => t.c.run now task
  | .initTimeout => pure t.c.runInitTimeout
  | .updateAudioBitrate audioWorks =>
    -- posted when the call is first established
    if t.c.wasEstablished then t.c.updateAudioBitrate now audioWorks else pure t.c
  | .sendRelayPings => t.c.sendRelayPings env now
  | .sendUdpPings => pure t.c.sendUdpPings
  | .evaluateUdpPingResults => t.c.evaluateUdpPingResults
  | .resetUdpAvailability => pure t.c.resetUdpAvailability
  | .addTCPRelays => t.c.addTCPRelays
  | .addIPv6Relays => pure t.c.addIPv6Relays
  | .setNetworkType mobile itfName myIPv6 => pure (t.c.setNetworkType mobile itfName myIPv6)
  | .setMicMute mute inputWorks => pure (t.c.setMicMute mute inputWorks)
  | .deviceFails err => pure (t.c.failWith (err.getD t.c.lastError))
  | .closeSocket key =>
    pure { t.c with endpoints := t.c.endpoints.map fun e =>
      (e.1, if e.1 = key then { e.2 with socket := none } else e.2) }

/-- The queue without the function that runs. -/
def rest (now : Time) (e : ThreadEvent) : List (Task × Time) :=
  match e with
  | .posted i => if (t.due now e).isSome then t.queue.eraseIdx i else t.queue
  | _ => t.queue

/-- An event, at the time of the message thread's clock. -/
def step (e : Time × ThreadEvent) : Except Fault MessageThread := do
  let c ← t.handle env e.1 e.2
  let posted := c.posted.drop t.c.posted.length
  pure { c := c, queue := t.rest e.1 e.2 ++ posted.map fun p => (p.1, e.1 + p.2) }

/-! ## Fixed inputs -/

/-- A call that knows no endpoint. -/
def unconnected (env : Platform) : MessageThread :=
  { c := Controller.new env {} (Vector.replicate 16 0) 110 }

/-- A datagram of one packet. -/
def fromRelay (relay : Int64) (now : Time) (p : Packet) : Time × ThreadEvent :=
  (now, .datagram relay (.ipv4 0) 0 [p])

/-- The ack of a peer with one audio stream. -/
def audioAck : WrappedExtra :=
  { d := .initAck { peerVersion := protocolVersion, minVersion := minProtocolVersion
                    streams := [{ streamId := StreamId.audio }] } }

end MessageThread

end Tgvoip
