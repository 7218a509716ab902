import Tgvoip.Net.Endpoint
import Tgvoip.Packets.Legacy

/-!
# State — what a VoIPController remembers

`VoIPController.h` with the streams of `PacketSender.h` and the pending
packets of `PacketStructs.h`. The fields the sending of packets works on
are a record of their own (`Transport`): most handlers leave it alone, and
say so in one equation.

Platform services (cryptography, codecs, audio devices) are a parameter,
`Platform`. Accesses that would leave the program (an index beyond
`outgoingStreams`, `endpoints.at` on a missing key, a null pointer) are
`Fault`s.
-/

namespace Tgvoip

open ByteReader

inductive Fault where
  /-- `outgoingStreams[i]` beyond the vector. -/
  | badStream
  /-- `endpoints.at` on a missing key. -/
  | noEndpoint
  /-- The null pointer of `GetEndpointForPacket` is dereferenced. -/
  | nullEndpoint
  /-- A stream without a `packetSender` is told of an acknowledgement. -/
  | noSender
  deriving DecidableEq, Repr

inductive CallError where
  | unknown
  | incompatible
  | timeout
  | audioIo
  | proxy
  deriving DecidableEq, Repr

/-! ## Configuration and platform -/

inductive DataSaving where
  | never
  | mobile
  | always
  deriving DecidableEq, Repr

/-- `VoIPController::Config` and the server configuration. -/
structure Config where
  initTimeout : Time := 30
  dataSaving : DataSaving := .never
  enableCallUpgrade : Bool := false
  enableVideoSend : Bool := false
  enableVideoReceive : Bool := false
  unackNopThreshold : UInt32 := 10
  rateMaxAcceptableRTT : Time := 3 / 5
  establishedDelayIfNoStreamData : Time := 3 / 2
  recvTimeout : Time := 20
  reconnectingTimeout : Time := 2
  needRateFlags : UInt32 := 0xFFFFFFFF
  relaySwitchThreshold : Time := 4 / 5
  p2pToRelaySwitchThreshold : Time := 3 / 5
  relayToP2pSwitchThreshold : Time := 4 / 5
  /-- `use_tcp`. -/
  mayUseTCP : Bool := true

/-- `udpConnectivityState`. -/
inductive UdpConnectivity where
  | unknown
  | pingPending
  | pingSent
  | available
  | notAvailable
  | bad
  deriving DecidableEq, Repr

/-- What the library asks of the system around it. -/
structure Platform where
  /-- The first eight bytes of the SHA-1 of a byte string. -/
  sha1 : Bytes → UInt64
  /-- `encryptPacket`. -/
  encryptPacket : VersionInfo → Bytes → Bytes
  /-- The random bytes of the oldest header, for the packet of each seq. -/
  random : UInt32 → Vector UInt8 15
  /-- `video::VideoSource::GetAvailableEncoders`. -/
  availableEncoders : List UInt32
  /-- `video::VideoRenderer::GetAvailableDecoders`. -/
  availableDecoders : List UInt32
  /-- `video::VideoRenderer::GetMaximumResolution`. -/
  maximumResolution : UInt8
  /-- Whether `audioInput->Start` succeeds. -/
  audioInputStarts : Bool
  /-- What the uninitialised mask of a new packet manager holds. -/
  freshMask : UInt32

/-! ## Streams -/

structure OutgoingStream where
  id : UInt8
  type : UInt8
  codec : UInt32 := 0
  frameDuration : UInt16 := 60
  enabled : Bool := true
  paused : Bool := false
  extraECEnabled : Bool := false
  packetManager : PacketManager
  /-- Whether `packetSender` is set. -/
  hasSender : Bool := true

namespace OutgoingStream

/-- The constructors: the packet manager gets the stream's id. -/
def new (id type : UInt8) (mask : UInt32) : OutgoingStream :=
  { id, type, packetManager := PacketManager.new id mask }

def getStreamInfo (s : OutgoingStream) : ExtraStreamInfo :=
  if s.type = StreamType.audio then
    { streamId := s.id, type := s.type, codec := s.codec, frameDuration := s.frameDuration
      enabled := s.enabled }
  else if s.type = StreamType.video then
    { streamId := s.id, type := s.type, codec := s.codec, enabled := s.enabled }
  else { streamId := s.id, type := s.type, enabled := s.enabled }

end OutgoingStream

structure IncomingStream where
  id : UInt8
  type : UInt8
  enabled : Bool := true
  paused : Bool := false
  codec : UInt32 := 0
  extraECEnabled : Bool := false
  width : UInt16 := 0
  height : UInt16 := 0
  codecSpecificData : List Bytes := []
  csdIsValid : Bool := false

/-! ## Packets on their way -/

structure PendingOutgoingPacket where
  packet : Bytes
  pktInfo : CongestionControlPacket
  endpoint : Int64
  /-- History: the packet whose serialization this is (or is a part of). -/
  carried : Packet

structure ReliableOutgoingPacket where
  pkt : PendingOutgoingPacket
  retryInterval : Time
  timeout : Time
  tries : UInt8
  firstSentTime : Time := 0
  lastSentTime : Time := 0
  /-- History: the tries it was queued with. -/
  budget : UInt8 := tries
  /-- History: how often it was sent. -/
  transmissions : ℕ := 0

structure RawPendingOutgoingPacket where
  pkt : PendingOutgoingPacket
  address : NetworkAddress
  port : UInt16
  tcp : Bool

structure UnacknowledgedExtraData where
  data : WrappedExtra
  seqs : HistoricBuffer UInt32 16 := .new
  endpointId : Int64 := 0
  /-- History: the call of `SendExtra` it came from. -/
  occurrence : ℕ := 0

/-- A ping of `SendRelayPings`. -/
structure SentPing where
  /-- The key of the endpoint. -/
  key : Int64
  time : Time
  /-- The call of `SendExtra`. -/
  occurrence : ℕ
  deriving DecidableEq, Repr

/-- What the congestion controller is told. -/
inductive ConctlCall where
  | packetSent (pkt : CongestionControlPacket) (size : ℕ)
  | packetAcknowledged (pkt : CongestionControlPacket)
  | packetLost (pkt : CongestionControlPacket)
  | tick
  deriving DecidableEq, Repr

/-- The functions posted to the message thread. -/
inductive Task where
  | updateReliablePackets
  | resumeSending
  | setEstablished
  | setEstablishedIfWaiting
  | resendPublicEndpointsRequest
  | networkHandover
  | sendMicState
  deriving DecidableEq, Repr

/-- The timers `SetState` posts when the call is first established. -/
inductive PeriodicTimer where
  | updateRTT
  | updateAudioBitrate
  | updateCongestion
  | updateSignalBars
  | tickJitterBufferAndCongestionControl
  deriving DecidableEq, Repr

/-- In the order they are posted in. -/
def PeriodicTimer.all : List PeriodicTimer :=
  [.updateRTT, .updateAudioBitrate, .updateCongestion, .updateSignalBars,
    .tickJitterBufferAndCongestionControl]

/-! ## The controller -/

/-- What sending works on. -/
structure Transport where
  outgoingStreams : List OutgoingStream
  currentExtras : List UnacknowledgedExtraData := []
  reliablePackets : List ReliableOutgoingPacket := []
  sendQueue : List PendingOutgoingPacket := []
  /-- All that was ever put into `rawSendQueue`. -/
  rawSendQueue : List RawPendingOutgoingPacket := []
  unacknowledgedIncomingPacketCount : UInt32 := 0
  /-- History: the packets that were prepared, with the extras they took along. -/
  preparedPackets : List Packet := []
  /-- History: what each call of `PreparePacket` knew of the peer, and where to. -/
  sealings : List (VersionInfo × Endpoint) := []
  /-- History: how often `SendExtra` was called. -/
  issuedExtras : ℕ := 0
  /-- History: for each of `preparedPackets` its extras, with the calls they came from. -/
  preparedOccurrences : List (List (ℕ × WrappedExtra)) := []
  /-- History: the version and the state of the call each of them was prepared under. -/
  preparedUnder : List (VersionInfo × CallState) := []

structure Controller extends Transport where
  config : Config := {}
  callID : Vector UInt8 16
  state : CallState := .waitInit
  lastError : CallError := .unknown
  ver : VersionInfo
  endpoints : Endpoints := []
  currentEndpoint : Int64 := 0
  preferredRelay : Int64 := 0
  peerPreferredRelay : Int64 := 0
  useTCP : Bool := false
  useUDP : Bool := true
  stopping : Bool := false
  /-- `realUdpSocket->IsReadyToSend()`. -/
  udpSocketReady : Bool := true
  udpConnectivityState : UdpConnectivity := .unknown
  /-- `proxyProtocol` is SOCKS5 and `udpSocket` is not `realUdpSocket`. -/
  udpThroughProxy : Bool := false
  useMTProto2 : Bool := false
  allowP2p : Bool := true
  mobileNetwork : Bool := false
  myIPv6 : NetworkAddress := .empty
  peerIPv6Available : Bool := false
  incomingStreams : List IncomingStream := []
  receivedInit : Bool := false
  receivedInitAck : Bool := false
  receivedFirstStreamPacket : Bool := false
  initTimeoutPosted : Bool := true
  audioStarted : Bool := false
  micMuted : Bool := false
  dataSavingMode : Bool := false
  dataSavingRequestedByPeer : Bool := false
  peerCapabilities : UInt32 := 0
  peerVideoDecoders : List UInt32 := []
  lastReceivedExtrasByType : UInt8 → UInt64 := fun _ => 0
  didSendGroupCallKey : Bool := false
  didReceiveGroupCallKey : Bool := false
  didReceiveGroupCallKeyAck : Bool := false
  didInvokeUpgradeCallback : Bool := false
  waitingForRelayPeerInfo : Bool := false
  publicEndpointsReqCount : ℕ := 0
  waitingForAcks : Bool := false
  firstSentPing : UInt32 := 0
  dontSendPackets : ℕ := 0
  sendLosses : UInt32 := 0
  needRate : Bool := false
  wasNetworkHandover : Bool := false
  wasEstablished : Bool := false
  wasReconnecting : Bool := false
  lastRecvPacketTime : Time := 0
  didAddTcpRelays : Bool := false
  setCurrentEndpointToTCP : Bool := false
  didAddIPv6Relays : Bool := false
  didSendIPv6Endpoint : Bool := false
  useIPv6 : Bool := false
  activeNetItfName : String := ""
  conctlCalls : List ConctlCall := []
  /-- History: how many sent packets were given up as lost. -/
  markedLost : ℕ := 0
  /-- History: how many of these were acknowledged afterwards. -/
  recovered : ℕ := 0
  posted : List (Task × Time) := []
  /-- History: the periodic timers that were posted. -/
  periodicTimers : List PeriodicTimer := []
  /-- History: the pings of `SendRelayPings`. -/
  pings : List SentPing := []

namespace Controller

/-- The constructor's streams: Signaling and Audio. -/
def initialStreams (mask : UInt32) : List OutgoingStream :=
  [OutgoingStream.new StreamId.signaling StreamType.signaling mask,
    { OutgoingStream.new StreamId.audio StreamType.audio mask with codec := Codec.opus }]

/-- A controller before the call: `ver` has the layer only. -/
def new (env : Platform) (config : Config) (callID : Vector UInt8 16) (connectionMaxLayer : Int) :
    Controller where
  outgoingStreams := initialStreams env.freshMask
  config := config
  callID := callID
  ver := { peerVersion := 0, connectionMaxLayer }

variable (c : Controller)

/-- `outgoingStreams[i]`. -/
def outgoingStream (i : ℕ) : Except Fault OutgoingStream :=
  match c.outgoingStreams[i]? with
  | some s => .ok s
  | none => .error .badStream

/-- `endpoints.at(id)`. -/
def endpointAt (id : Int64) : Except Fault Endpoint :=
  match c.endpoints.at? id with
  | some e => .ok e
  | none => .error .noEndpoint

/-- The key `GetEndpointById` looks up. -/
def endpointKey (id : Int64) : Int64 := if id ≠ 0 then id else c.currentEndpoint

/-- `*GetEndpointForPacket(pkt)`: an id that is not zero is looked up without a
throw. -/
def endpointForPacket (id : Int64) : Except Fault Endpoint :=
  match c.endpoints.at? (c.endpointKey id) with
  | some e => .ok e
  | none => .error (if id ≠ 0 then .nullEndpoint else .noEndpoint)

/-- Replace the packet manager of stream `i`. -/
def setManager (i : ℕ) (pm : PacketManager) : Controller :=
  { c with outgoingStreams := c.outgoingStreams.modify i fun s => { s with packetManager := pm } }

/-- `udpConnectivityState` is `UDP_BAD` or `UDP_NOT_AVAILABLE`. -/
def udpBad : Bool := c.udpConnectivityState == .bad || c.udpConnectivityState == .notAvailable

def setState (state : CallState) : Controller := { c with state }

def post (task : Task) (delay : Time) : Controller := { c with posted := c.posted ++ [(task, delay)] }

end Controller

end Tgvoip
