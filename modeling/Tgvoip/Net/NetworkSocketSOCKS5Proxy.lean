import Tgvoip.Net.NetworkSocketPosix
import Tgvoip.Protocol.ExtraRoundTrip

/-!
# NetworkSocketSOCKS5Proxy — a relay behind a SOCKS5 proxy

`NetworkSocketSOCKS5Proxy` of `controller/net/NetworkSocket.cpp`, over the
TCP socket to the proxy and, where the protocol is UDP, a UDP socket. A
datagram goes to the proxy behind a header that names its peer. Before that
the client and the proxy agree on an authentication, and the client has the
proxy connect (TCP), or open a port for it (UDP).

What the TCP socket receives, and whether it fails, are inputs, and so is the
resolver of domain names. An exception (`std::out_of_range`) that is not
caught is an error.
-/

namespace Tgvoip

open ByteReader

/-- `htons` and `ntohs`. -/
def htons (x : UInt16) : UInt16 := (x <<< 8) ||| (x >>> 8)

/-- `ConnectionState`. -/
inductive ConnectionState where
  | initial
  | waitingForAuthMethod
  | waitingForAuthResult
  | waitingForCommandResult
  | connected
  deriving DecidableEq, Repr

inductive ReadFailure where
  | outOfRange
  deriving DecidableEq, Repr

structure NetworkSocketSOCKS5Proxy where
  protocol : NetworkProtocol
  username : Bytes
  password : Bytes
  connectedAddress : NetworkAddress
  connectedPort : UInt16
  state : ConnectionState := .initial
  failed : Bool := false
  readyToSend : Bool := false
  deriving DecidableEq, Repr

/-- What a callback passes to the TCP socket, and what it returns (`none`: what
the wrapped socket's callback returns). -/
structure ProxyStep where
  sent : List Bytes := []
  proxy : NetworkSocketSOCKS5Proxy
  answer : Option Bool := some false
  deriving DecidableEq, Repr

/-- The address in front of a port: `ATYP` and the bytes. -/
def NetworkAddress.field : NetworkAddress → Bytes
  | .ipv4 addr => 1 :: le32 addr
  | .ipv6 addr => 4 :: addr.val

namespace NetworkSocketSOCKS5Proxy

variable (p : NetworkSocketSOCKS5Proxy)

/-! ## Datagrams -/

/-- `Send`: the packet that the wrapped socket is given. -/
def send (packet : NetworkPacket) : NetworkPacket :=
  match p.protocol with
  | .tcp => packet
  | .udp =>
    { data := le16 0 ++ ([0] ++ (packet.address.field ++ (le16 (htons packet.port) ++ packet.data)))
      address := p.connectedAddress
      port := p.connectedPort
      protocol := .udp }

/-- The header of a datagram, up to the port. -/
def readPeer : Reader NetworkAddress := do
  let _ ← u16
  let _ ← u8
  let atyp ← u8
  if atyp = 1 then .ipv4 <$> u32
  else if atyp = 4 then .ipv6 <$> ExtraIpv6Endpoint.parseAddress
  else pure .empty

/-- `Receive`, with what the wrapped socket receives. The payload is copied
before the port is read. -/
def receive (wrapped : NetworkPacket) : Except ReadFailure NetworkPacket :=
  match p.protocol with
  | .tcp => .ok { wrapped with address := p.connectedAddress, port := p.connectedPort }
  | .udp =>
    if !wrapped.isEmpty && wrapped.address == p.connectedAddress
        && wrapped.port == p.connectedPort then
      match readPeer.run wrapped.data with
      | none => .error .outOfRange
      | some (address, copy) =>
        match u16.run copy with
        | none => .error .outOfRange
        | some (port, _) =>
          .ok { data := copy, address := address, port := htons port, protocol := p.protocol }
    else .ok .empty

/-! ## The handshake -/

/-- The greeting of `OnReadyToSend`. -/
def greeting : Bytes := if p.username ≠ [] then [5, 2, 0, 2] else [5, 1, 0]

/-- The message with the username and the password, 255 bytes of each at most. -/
def credentials : Bytes :=
  let name := p.username.take 255
  let word := p.password.take 255
  [1] ++ ([name.length.toUInt8] ++ name) ++ ([word.length.toUInt8] ++ word)

/-- The message of `SendConnectionCommand`. -/
def command : Bytes :=
  match p.protocol with
  | .tcp => [5, 1, 0] ++ p.connectedAddress.field ++ le16 (htons p.connectedPort)
  | .udp => [5, 3, 0, 1] ++ le32 0 ++ le16 0

/-- `SendConnectionCommand`. -/
def sendConnectionCommand : ProxyStep :=
  { sent := [p.command], proxy := { p with state := .waitingForCommandResult } }

def onReadyToSend : ProxyStep :=
  match p.state with
  | .initial => { sent := [p.greeting], proxy := { p with state := .waitingForAuthMethod } }
  | _ => { proxy := p, answer := none }

/-- `failed = true; return false`. -/
def refuse : ProxyStep := { proxy := { p with failed := true } }

/-- `OnReadyToReceive` in `WaitingForAuthMethod`. -/
def onAuthMethod : Reader ProxyStep := do
  let ver ← u8
  let chosenMethod ← u8
  if ver ≠ 5 then pure p.refuse
  else if chosenMethod = 0 then pure p.sendConnectionCommand
  else if chosenMethod = 2 && p.username ≠ [] then
    pure { sent := [p.credentials], proxy := { p with state := .waitingForAuthResult } }
  else pure p.refuse

/-- `OnReadyToReceive` in `WaitingForAuthResult`. -/
def onAuthResult : Reader ProxyStep := do
  let ver ← u8
  let status ← u8
  if ver ≠ 1 then pure p.refuse
  else if status ≠ 0 then pure p.refuse
  else pure p.sendConnectionCommand

/-- `OnReadyToReceive` in `WaitingForCommandResult`, for TCP. -/
def onConnected : Reader ProxyStep := do
  let ver ← u8
  if ver ≠ 5 then pure p.refuse
  else
    let rep ← u8
    if rep ≠ 0 then pure p.refuse
    else pure { proxy := { p with state := .connected, readyToSend := true }, answer := none }

/-- A `char` array as a `std::string`. -/
def cString (bs : Bytes) : Bytes := bs.takeWhile (· ≠ 0)

/-- The address of a UDP association, and whether it is that of a domain;
`none` for an unknown type. -/
def readAddress (resolve : Bytes → NetworkAddress) : Reader (Option (NetworkAddress × Bool)) := do
  let _ ← u8
  let atyp ← u8
  if atyp = 1 then
    let addr ← u32
    pure (some (.ipv4 addr, false))
  else if atyp = 3 then
    let len ← u8
    let domain ← bytes len.toNat
    pure (some (resolve (cString domain), true))
  else if atyp = 4 then
    let addr ← ExtraIpv6Endpoint.parseAddress
    pure (some (.ipv6 addr, false))
  else pure none

/-- The exception is caught: the socket fails, and the callback goes on. -/
def parseFailed : ProxyStep := { proxy := { p with failed := true }, answer := none }

/-- The end of a UDP association, behind its address. -/
def associate (rest : Bytes) : ProxyStep :=
  match u16.run rest with
  | none => p.parseFailed
  | some (port, _) =>
    { proxy := { p with connectedPort := htons port, state := .connected, readyToSend := true }
      answer := none }

/-- `OnReadyToReceive` in `WaitingForCommandResult`, for UDP. The address is
stored before the port is read. -/
def onAssociated (resolve : Bytes → NetworkAddress) (buf : Bytes) : ProxyStep :=
  match (do pure (← u8, ← u8) : Reader (UInt8 × UInt8)).run buf with
  | none => p.parseFailed
  | some ((ver, rep), rest) =>
    if ver ≠ 5 then p.refuse
    else if rep ≠ 0 then p.refuse
    else
      match (readAddress resolve).run rest with
      | none => p.parseFailed
      | some (none, _) => p.refuse
      | some (some (address, domain), rest) =>
        let p := { p with connectedAddress := address }
        if domain && address.isEmpty then p.refuse else p.associate rest

theorem onAssociated_cons (resolve : Bytes → NetworkAddress) (ver rep : UInt8) (rest : Bytes) :
    p.onAssociated resolve (ver :: rep :: rest) =
      if ver ≠ 5 then p.refuse
      else if rep ≠ 0 then p.refuse
      else
        match (readAddress resolve).run rest with
        | none => p.parseFailed
        | some (none, _) => p.refuse
        | some (some (address, domain), rest) =>
          let p := { p with connectedAddress := address }
          if domain && address.isEmpty then p.refuse else p.associate rest := rfl

/-- A read outside a `try` block. -/
def uncaught : Option (ProxyStep × Bytes) → Except ReadFailure ProxyStep
  | none => .error .outOfRange
  | some (result, _) => .ok result

/-- `OnReadyToReceive`, with what the TCP socket receives and whether it has
failed then. -/
def onReadyToReceive (resolve : Bytes → NetworkAddress) (received : Bytes) (tcpFailed : Bool) :
    Except ReadFailure ProxyStep :=
  let buf := received.take 1024
  match p.state with
  | .waitingForAuthMethod =>
    if buf.length < 2 || tcpFailed then .ok p.refuse else uncaught (p.onAuthMethod.run buf)
  | .waitingForAuthResult =>
    if buf.length < 2 || tcpFailed then .ok p.refuse else uncaught (p.onAuthResult.run buf)
  | .waitingForCommandResult =>
    if buf.length < 2 || tcpFailed then .ok p.refuse
    else
      match p.protocol with
      | .tcp => uncaught (p.onConnected.run buf)
      | .udp => .ok (p.onAssociated resolve buf)
  | _ => .ok { proxy := p, answer := none }

/-! ## Encapsulation -/

variable {p : NetworkSocketSOCKS5Proxy} {packet : NetworkPacket}

theorem htons_htons (x : UInt16) : htons (htons x) = x := by
  apply UInt16.toBitVec_inj.mp
  apply BitVec.eq_of_getLsbD_eq
  intro i hi
  show (((x.toBitVec <<< 8 ||| x.toBitVec >>> 8) <<< 8) |||
    ((x.toBitVec <<< 8 ||| x.toBitVec >>> 8) >>> 8)).getLsbD i = _
  simp only [BitVec.getLsbD_or, BitVec.getLsbD_shiftLeft, BitVec.getLsbD_ushiftRight]
  have h8 : 8 ≤ i → 8 + (i - 8) = i := fun h => by omega
  have hhigh : x.toBitVec.getLsbD (8 + (8 + i)) = false := BitVec.getLsbD_of_ge _ _ (by omega)
  grind

/-- The header is read back, up to the port. -/
theorem decodes_peer (address : NetworkAddress) :
    Decodes readPeer (le16 0 ++ ([0] ++ address.field)) address := by
  refine (decodes_u16 0).bind ((decodes_u8 0).bind ?_)
  cases address with
  | ipv4 addr => exact (decodes_u8 1).bind ((decodes_u32 addr).map NetworkAddress.ipv4)
  | ipv6 addr => exact (decodes_u8 4).bind ((ExtraIpv6Endpoint.decodes_parseAddress addr).map NetworkAddress.ipv6)

theorem isEmpty_send (packet : NetworkPacket) (hudp : p.protocol = .udp) :
    (p.send packet).isEmpty = (p.connectedPort == 0 || p.connectedAddress.isEmpty) := by
  rw [send, hudp]
  rfl

/-- **What comes back** from the proxy: the right peer, and two bytes too many. -/
theorem receive_send (hudp : p.protocol = .udp)
    (hopen : (p.connectedPort == 0 || p.connectedAddress.isEmpty) = false) :
    p.receive (p.send packet) = .ok
      { data := le16 (htons packet.port) ++ packet.data, address := packet.address,
        port := packet.port, protocol := .udp } := by
  have hempty := isEmpty_send packet hudp
  rw [hopen] at hempty
  have hpeer : readPeer.run (p.send packet).data =
      some (packet.address, le16 (htons packet.port) ++ packet.data) := by
    have h := decodes_peer packet.address (le16 (htons packet.port) ++ packet.data)
    rw [send, hudp]
    simpa only [List.append_assoc] using h
  have haddress : (p.send packet).address = p.connectedAddress := by rw [send, hudp]
  have hport : (p.send packet).port = p.connectedPort := by rw [send, hudp]
  rw [receive, hudp]
  simp only [hempty, haddress, hport, hpeer, decodes_u16 (htons packet.port) packet.data,
    htons_htons]
  simp

/-- A socket that is not open receives nothing. -/
theorem receive_send_closed (hudp : p.protocol = .udp)
    (hclosed : (p.connectedPort == 0 || p.connectedAddress.isEmpty) = true) :
    p.receive (p.send packet) = .ok .empty := by
  have hempty := isEmpty_send packet hudp
  rw [hclosed] at hempty
  rw [receive, hudp]
  simp only [hempty]
  simp

/-- What is sent comes back: the payload, its address and its port. -/
def RoundTrip (p : NetworkSocketSOCKS5Proxy) (packet : NetworkPacket) : Prop :=
  ∃ r, p.receive (p.send packet) = .ok r ∧ r.data = packet.data ∧ r.address = packet.address ∧
    r.port = packet.port

/-- **The UDP round trip**: no payload comes back. -/
theorem udp_roundTrip_never (p : NetworkSocketSOCKS5Proxy) (packet : NetworkPacket)
    (hudp : p.protocol = .udp) (hpayload : 1 ≤ packet.data.length) : ¬ RoundTrip p packet := by
  rintro ⟨r, hr, hdata, -⟩
  have hlength := congrArg List.length hdata
  cases hopen : (p.connectedPort == 0 || p.connectedAddress.isEmpty) with
  | true =>
    rw [receive_send_closed hudp hopen] at hr
    cases hr
    rw [← hlength] at hpayload
    exact absurd hpayload (by decide)
  | false =>
    rw [receive_send hudp hopen] at hr
    cases hr
    rw [List.length_append, length_le16] at hlength
    omega

/-- A proxy that relays datagrams, and one of them. -/
def udpProxy : NetworkSocketSOCKS5Proxy :=
  { protocol := .udp, username := [], password := [], connectedAddress := .ipv4 0x0100007F,
    connectedPort := 1080, state := .connected }

def relayDatagram : NetworkPacket :=
  { data := [1, 2, 3], address := .ipv4 0x08080808, port := 443, protocol := .udp }

theorem udp_roundTrip_never_datagram :
    (udpProxy.protocol = .udp ∧ 1 ≤ relayDatagram.data.length) ∧
      ¬ RoundTrip udpProxy relayDatagram :=
  ⟨⟨rfl, by decide⟩, udp_roundTrip_never udpProxy relayDatagram rfl (by decide)⟩

/-- The port is in front of the payload. -/
theorem udp_roundTrip_fails :
    ¬ ∀ (p : NetworkSocketSOCKS5Proxy) (packet : NetworkPacket), p.protocol = .udp →
      1 ≤ packet.data.length → packet.data.length ≤ 1400 → RoundTrip p packet := by
  intro hall
  obtain ⟨r, hr, hdata, -⟩ := hall udpProxy relayDatagram rfl (by decide) (by decide)
  have hreceived : udpProxy.receive (udpProxy.send relayDatagram) =
      .ok { relayDatagram with data := [1, 187, 1, 2, 3] } := by decide
  rw [hreceived] at hr
  cases hr
  exact absurd hdata (by decide)

end NetworkSocketSOCKS5Proxy

end Tgvoip
