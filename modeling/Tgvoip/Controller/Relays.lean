import Tgvoip.Controller.Receive

/-!
# Relays — how the table of endpoints is filled and used

`Endpoints.cpp`, `Reflector.cpp`, the handover of `Bandwidth.cpp`,
`SendRelayPings` and `EvaluateUdpPingResults`. Pointers and references into
the table are keys; where the source reads through one whose entry is gone,
the model is at fault.
-/

namespace Tgvoip

open ByteReader

namespace NeedRateFlag

def shittyInternetMode : UInt32 := 1
def udpNA : UInt32 := 2
def udpBad : UInt32 := 4
def reconnecting : UInt32 := 8

end NeedRateFlag

namespace EndpointID

/-- The bits that tell a TCP relay's id from that of its UDP relay. -/
def tcp : Int64 := fourCC 0x54 0x43 0x50 0

/-- The same for an endpoint that is used by its IPv6 address only. -/
def ipv6 : Int64 := fourCC 0x49 0x50 0x76 0x36

end EndpointID

namespace Endpoint

/-- A copy of which nothing is known yet. -/
def unpinged (e : Endpoint) : Endpoint :=
  { e with
    averageRTT := 0, lastPingSeq := 0, lastPingTime := 0, rtts := e.rtts.reset, udpPongCount := 0
    samples := [] }

def tcpRelay (e : Endpoint) : Endpoint :=
  { e.unpinged with type := .tcpRelay, id := e.id ^^^ EndpointID.tcp }

def ipv6Relay (e : Endpoint) : Endpoint :=
  { e.unpinged with address := .empty, id := e.id ^^^ EndpointID.ipv6 }

end Endpoint

/-- `endpoints[e.id] = e` for each of them. -/
def Endpoints.insertAll (m : Endpoints) (es : List Endpoint) : Endpoints :=
  es.foldl (fun m e => m.set e.id e) m

namespace Controller

variable (env : Platform) (c : Controller)

/-- `needRateFlags` asks to rate calls with this problem. -/
def wantsRate (flag : UInt32) : Bool := c.config.needRateFlags &&& flag != 0

/-! ## Filling the table -/

def addIPv6Relays : Controller :=
  if !c.myIPv6.isEmpty && !c.didAddIPv6Relays then
    -- the source groups them by address, which only changes the order of the insertions
    let relays := (c.endpoints.filter fun e =>
      e.2.isReflector && !e.2.v6address.isEmpty && !e.2.address.isEmpty).map (·.2.ipv6Relay)
    { c with
      endpoints := c.endpoints.insertAll relays
      didAddIPv6Relays := !relays.isEmpty }
  else c

/-- One round of the loop of `SetRemoteEndpoints`. -/
def addRemoteEndpoint (it : Endpoint) : Controller :=
  { c with
    endpoints := c.endpoints.set it.id it
    currentEndpoint := if c.currentEndpoint = 0 then it.id else c.currentEndpoint
    useTCP := if it.type = .udpRelay then false else c.useTCP
    didAddTcpRelays := c.didAddTcpRelays || it.type == .tcpRelay }

def setRemoteEndpoints (endpoints : List Endpoint) (allowP2p : Bool) (connectionMaxLayer : Int) :
    Controller :=
  let c := { c with
    preferredRelay := 0, endpoints := [], didAddTcpRelays := false, useTCP := true }
  -- `currentEndpoint` is not reset: one that an earlier call has set stays
  let c := endpoints.foldl addRemoteEndpoint c
  addIPv6Relays { c with
    preferredRelay := c.currentEndpoint
    allowP2p := allowP2p
    ver := { c.ver with connectionMaxLayer }
    useMTProto2 := c.useMTProto2 || connectionMaxLayer ≥ 74 }

/-- The part of the loop of `AddTCPRelays` that re-points the current endpoint. -/
def pointToTCP (relay : Endpoint) : Except Fault Controller :=
  if c.setCurrentEndpointToTCP then do
    let current ← c.endpointAt c.currentEndpoint
    pure (if current.type ≠ .tcpRelay then
      { c with
        setCurrentEndpointToTCP := false, currentEndpoint := relay.id, preferredRelay := relay.id }
      else c)
  else pure c

/-- A UDP relay that is not used any more. -/
def resetUdpRelay (e : Endpoint) : Endpoint :=
  if e.type = .udpRelay then { e with rtts := e.rtts.reset, averageRTT := 0, lastPingSeq := 0 } else e

/-- The new relays are in the table only behind the loop. -/
def addTCPRelays : Except Fault Controller :=
  if c.didAddTcpRelays then pure c
  else do
    let relays := (c.endpoints.filter (·.2.type == .udpRelay)).map (·.2.tcpRelay)
    let c := if c.setCurrentEndpointToTCP && !c.useUDP then
      { c with endpoints := c.endpoints.map fun e => (e.1, resetUdpRelay e.2) } else c
    let c ← relays.foldlM pointToTCP c
    pure { c with endpoints := c.endpoints.insertAll relays, didAddTcpRelays := true }

/-! ## Timers -/

/-- The pings themselves are not modelled. -/
def sendUdpPings : Controller :=
  { c with udpConnectivityState :=
      if c.udpConnectivityState = .unknown || c.udpConnectivityState = .pingPending then .pingSent
      else c.udpConnectivityState }

def resetUdpAvailability : Controller :=
  { c with
    endpoints := c.endpoints.map fun e => (e.1, { e.2 with udpPongCount := 0 })
    udpConnectivityState := .pingPending }

def resetEndpointPingStats : Controller :=
  { c with endpoints := c.endpoints.map fun e => (e.1, e.2.resetPingStats) }

/-- The mean of the pong counts of the UDP relays that answered. -/
def averagePongs : ℚ :=
  let answering := c.endpoints.filter fun e => e.2.type == .udpRelay && e.2.udpPongCount > 0
  if answering.isEmpty then 0
  else (answering.map fun e => (e.2.udpPongCount : ℚ)).sum / answering.length

def evaluateUdpPingResults : Except Fault Controller :=
  let avgPongs := c.averagePongs
  if avgPongs = 0 && c.udpThroughProxy then
    -- the proxy does not let UDP through
    pure { c with udpThroughProxy := false }.resetUdpAvailability
  else if !c.config.mayUseTCP then pure { c with udpConnectivityState := .notAvailable }
  else if avgPongs = 0 || (c.udpConnectivityState = .bad && avgPongs < 7) then do
    let c := { c with
      needRate := c.needRate || c.wantsRate NeedRateFlag.udpNA
      udpConnectivityState := .notAvailable, useTCP := true, useUDP := avgPongs > 1 }
    let current ← c.endpointAt c.currentEndpoint
    let c ← addTCPRelays (if current.type ≠ .tcpRelay then
      { c with setCurrentEndpointToTCP := true } else c)
    pure { c with waitingForRelayPeerInfo := false }
  else if avgPongs < 3 then
    addTCPRelays { c with
      needRate := c.needRate || c.wantsRate NeedRateFlag.udpBad
      udpConnectivityState := .bad, useTCP := true, setCurrentEndpointToTCP := true }
  else pure { c with udpConnectivityState := .available }

def sendDataSavingMode : Controller :=
  let flags := if c.dataSavingMode then ExtraInit.dataSavingEnabled else 0
  c.sendExtra { d := .networkChanged { flags } } 0

/-- `rtt < minPing * threshold`. No `minPing` stands for `DBL_MAX`: what that is a
multiple of by a positive threshold is more than any time. -/
def fasterThan (rtt : Time) (minPing : Option Time) (threshold : Time) : Bool :=
  match minPing with
  | none => 0 < threshold
  | some ping => rtt < ping * threshold

/-- The loop of `SendRelayPings`: the controller, the least ping, and the key of
the relay that has it. -/
structure PingRound where
  c : Controller
  minPing : Option Time
  minPingRelay : Int64

/-- A ping to an endpoint that had none for ten seconds. -/
def pingIfDue (now : Time) (key : Int64) (e : Endpoint) : Except Fault Controller :=
  if now - e.lastPingTime ≥ 10 then do
    let ping : SentPing := { key, time := now, occurrence := c.issuedExtras }
    let c ← (c.sendExtra { d := .ping } e.id).sendNopPacket env now e.id
    -- the entry may have got a socket meanwhile
    let e ← c.endpointAt key
    pure { c with
      endpoints := c.endpoints.set key { e with lastPingTime := now }, pings := c.pings ++ [ping] }
  else pure c

def pingRound (now : Time) (r : PingRound) (key : Int64) : Except Fault PingRound := do
  let e ← r.c.endpointAt key
  if (e.type = .tcpRelay && !r.c.useTCP) || (e.type = .udpRelay && !r.c.useUDP) then pure r
  else
    let c ← r.c.pingIfDue env now key e
    let ping := e.averageRTT * if e.type = .udpRelay then 1 else 2
    let usable := (c.useUDP && e.type == .udpRelay) || (c.useTCP && e.type == .tcpRelay)
    if usable && e.averageRTT > 0 && fasterThan ping r.minPing c.config.relaySwitchThreshold then
      pure { c := c, minPing := some ping, minPingRelay := key }
    else pure { r with c := c }

/-- What `SendRelayPings` makes of the pings. `current` is the entry that
`_currentEndpoint` points to in the end. -/
def chooseEndpoint (current : Endpoint) (minPing : Option Time) : Controller :=
  if current.type = .udpRelay && c.useUDP then
    match c.endpoints.at? EndpointID.p2pv4 with
    | none => c
    | some p2p =>
      if (c.endpoints.at? EndpointID.lanv4).any fun lan => lan.averageRTT > 0 &&
          fasterThan lan.averageRTT minPing c.config.relayToP2pSwitchThreshold then
        { c with currentEndpoint := EndpointID.lanv4 }
      else if p2p.averageRTT > 0 &&
          fasterThan p2p.averageRTT minPing c.config.relayToP2pSwitchThreshold then
        { c with currentEndpoint := EndpointID.p2pv4 }
      else c
  else if minPing.any fun ping =>
      ping > 0 && ping < current.averageRTT * c.config.p2pToRelaySwitchThreshold then
    { c with currentEndpoint := c.preferredRelay }
  else c

def sendRelayPings (now : Time) : Except Fault Controller :=
  if (c.state = .established || c.state = .reconnecting) && c.endpoints.length > 1 then do
    let preferred ← c.endpointAt c.preferredRelay
    let current ← c.endpointAt c.currentEndpoint
    let ping := preferred.averageRTT * if preferred.type = .tcpRelay then 2 else 1
    let r ← (c.endpoints.map (·.1)).foldlM (pingRound env now)
      { c := c, minPing := if ping = 0 then none else some ping, minPingRelay := c.preferredRelay }
    let minPingRelay ← r.c.endpointAt r.minPingRelay
    if minPingRelay.id ≠ r.c.preferredRelay then
      let c := { r.c with preferredRelay := minPingRelay.id }
      pure (if current.isReflector then
        { c with currentEndpoint := c.preferredRelay }.chooseEndpoint minPingRelay r.minPing
        else c.chooseEndpoint current r.minPing)
    else pure (r.c.chooseEndpoint current r.minPing)
  else pure c

/-! ## The answers of the relays -/

end Controller

inductive RelayAnswer where
  | selfInfo (myIP : { bs : Bytes // bs.length = 16 })
  | peerInfo (myAddr myPort peerAddr peerPort : UInt32)
  /-- An answer that is too short, or of another kind. -/
  | unknown
  deriving DecidableEq

/-- What `udpSocket` tells of this side. -/
structure LocalInterface where
  address : UInt32
  port : UInt16

namespace RelayAnswer

def tlidPeerInfo : UInt32 := 0x27D9371C
def tlidSelfInfo : UInt32 := 0xC01572C7

/-- The body of an answer, behind its type. -/
def parseBody (tlid : UInt32) (body : Bytes) : RelayAnswer :=
  if tlid = tlidSelfInfo then
    if h : 32 ≤ body.length then
      .selfInfo ⟨(body.drop 12).take 16, by rw [List.length_take, List.length_drop]; omega⟩
    else .unknown
  else if tlid = tlidPeerInfo then
    match (times u32 4).run body with
    | some ([myAddr, myPort, peerAddr, peerPort], _) => .peerInfo myAddr myPort peerAddr peerPort
    | _ => .unknown
  else .unknown

/-- What stands behind the peer tag, if it is an answer of the relay. -/
def parse (bs : Bytes) : Option RelayAnswer :=
  if bs.take 12 = List.replicate 12 0xFF then
    (u32.run (bs.drop 12)).map fun r => parseBody r.1 r.2
  else none

end RelayAnswer

namespace Controller

variable (env : Platform) (c : Controller)

def processSelfInfo (myIP : { bs : Bytes // bs.length = 16 }) (here : LocalInterface)
    (src : Int64) : Except Fault Controller := do
  let srcEndpoint ← c.endpointAt src
  if srcEndpoint.type ≠ .udpRelay then pure c
  else
    let counted := { srcEndpoint with udpPongCount := srcEndpoint.udpPongCount + 1 }
    let c := { c with endpoints := c.endpoints.set src counted }
    if srcEndpoint.isIPv6Only && !c.didSendIPv6Endpoint && c.myIPv6 == .ipv6 myIP then
      let c := { c with useIPv6 := true }
      pure (if c.allowP2p then
        { c with didSendIPv6Endpoint := true }.sendExtra
          { d := .ipv6Endpoint { address := myIP, port := here.port } } 0
        else c)
    else pure c

/-- The endpoint the peer is reached at, as a relay sees it. -/
def learnP2pEndpoint (myAddr peerAddr peerPort : UInt32) (here : LocalInterface) : Controller :=
  let p2p : Endpoint :=
    { id := EndpointID.p2pv4, port := peerPort.toUInt16, address := .ipv4 peerAddr
      type := .udpP2PInet }
  let c := { c with endpoints := c.endpoints.set EndpointID.p2pv4 p2p }
  let c := if myAddr = peerAddr then
    c.sendExtra { d := .lanEndpoint { address := here.address, port := here.port } } 0 else c
  { c with waitingForRelayPeerInfo := false }

def processPeerInfo (myAddr peerAddr peerPort : UInt32) (here : LocalInterface) : Controller :=
  let c := if c.currentEndpoint = EndpointID.p2pv4 || c.currentEndpoint = EndpointID.lanv4 then
    { c with currentEndpoint := c.preferredRelay } else c
  let c := { c with endpoints := c.endpoints.erase EndpointID.lanv4 }
  if c.waitingForRelayPeerInfo then c.learnP2pEndpoint myAddr peerAddr peerPort here else c

/-- `parseRelayPacket`, on what stands behind the peer tag. -/
def parseRelayPacket (bs : Bytes) (here : LocalInterface) (src : Int64) :
    Except Fault Controller :=
  match RelayAnswer.parse bs with
  | some (.selfInfo myIP) => c.processSelfInfo myIP here src
  | some (.peerInfo myAddr _ peerAddr peerPort) =>
    pure (c.processPeerInfo myAddr peerAddr peerPort here)
  | _ => pure c

/-! ## Another network -/

/-- One round of the loop over the endpoints. `preferred` is the key of the
entry `_preferredRelay` refers to. -/
def leaveEndpoint (preferred : Int64) (x : Int64 × Endpoint) : Except Fault Controller := do
  let e := x.2
  if e.type = .udpRelay && c.useTCP then
    let c := { c with
      useTCP := false, endpoints := c.endpoints.set x.1 e.resetPingStats }
    let relay ← c.endpointAt preferred
    pure (if relay.type = .tcpRelay then { c with preferredRelay := e.id, currentEndpoint := e.id }
      else c)
  else
    -- the socket of a TCP relay is closed here, which `IsReadyToSend` does not tell
    pure { c with endpoints := c.endpoints.set x.1 e.resetPingStats }

/-- What the handover makes of the endpoints. -/
def leaveNetwork : Except Fault Controller := do
  let current ← c.endpointAt c.currentEndpoint
  let preferred ← c.endpointAt c.preferredRelay
  if current.type = .udpRelay then pure c
  else
    -- the loop reads through a reference taken here, while `preferredRelay` changes
    let key := c.preferredRelay
    let c := if preferred.type = .udpRelay then { c with currentEndpoint := c.preferredRelay } else c
    let c := { c with endpoints := c.endpoints.erase EndpointID.lanv4 }
    c.endpoints.foldlM (leaveEndpoint · key) c

/-- The function `SetNetworkType` posts. -/
def networkHandover : Except Fault Controller := do
  let c := { c with wasNetworkHandover := true }
  let c ← if c.currentEndpoint ≠ 0 then c.leaveNetwork else pure c
  let c := if c.allowP2p && c.currentEndpoint ≠ 0 then c.sendPublicEndpointsRequest else c
  let c := { c.sendDataSavingMode with didSendIPv6Endpoint := false }
  pure c.addIPv6Relays.resetUdpAvailability.resetEndpointPingStats

/-- `SetNetworkType`: `itfName` and `myIPv6` are what `GetLocalInterfaceInfo`
finds. -/
def setNetworkType (mobile : Bool) (itfName : String) (myIPv6 : NetworkAddress) : Controller :=
  let c := { c with mobileNetwork := mobile }.updateDataSavingState
  let c := { c with myIPv6 := myIPv6 }
  if itfName ≠ c.activeNetItfName then
    let isFirstChange := c.activeNetItfName.isEmpty && c.state ≠ .established &&
      c.state ≠ .reconnecting
    let c := { c with activeNetItfName := itfName }
    if isFirstChange then c else c.post .networkHandover 0
  else c

end Controller

end Tgvoip
