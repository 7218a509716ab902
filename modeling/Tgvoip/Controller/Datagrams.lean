import Tgvoip.Controller.DecryptedLength
import Tgvoip.Controller.Handshake
import Tgvoip.Controller.MessageThread
import Tgvoip.Packets.Cascade
import Tgvoip.Packets.PacketRoundTrip
import Tgvoip.Net.NetworkSocketPosix

/-!
# Datagrams — from the bytes of a datagram to the handlers

`ProcessIncomingPacket(NetworkPacket&, Endpoint&)` (`Protocol.cpp`), whole:
the peer tag, the answers of a relay, `decryptPacket`, the cascade of
`Packet::parse`, and the handlers. `MessageThread` starts where this ends,
with the packets; so what a peer sealed is handled there as the packet it
was (`processDatagram_sealed`), and what nobody with the key sealed is not
handled at all (`processDatagram_forged`).

The counters of received packets are not modelled.
-/

namespace Tgvoip

open ByteReader Fallible

/-- The key of a call, and whether this end placed it. -/
structure CallKeys where
  fns : CryptoFunctions
  encryptionKey : { bs : Bytes // bs.length = 256 }
  isOutgoing : Bool

namespace CallKeys

/-- What the other end has. -/
def mate (keys : CallKeys) : CallKeys := { keys with isOutgoing := !keys.isOutgoing }

/-- This end, when it seals under a version. -/
def sealer (keys : CallKeys) (ver : VersionInfo) : CryptoState where
  encryptionKey := keys.encryptionKey
  isOutgoing := keys.isOutgoing
  useMTProto2 := true
  ver := ver

/-- `encryptPacket` with MTProto2, given the random bytes it draws. -/
def encrypt (keys : CallKeys) (padding : (n : ℕ) → Vector UInt8 n) (ver : VersionInfo)
    (data : Bytes) : Bytes := (keys.sealer ver).encryptPacket keys.fns padding data

end CallKeys

/-- What the processing of a datagram throws. -/
inductive DatagramFault where
  /-- `std::out_of_range`, of a read. -/
  | read
  | thread (fault : Fault)
  deriving DecidableEq, Repr

/-- The faults of the handlers. -/
def onThread {α : Type} (x : Except Fault α) : Except DatagramFault α := x.mapError .thread

theorem onThread_bind {α β : Type} (x : Except Fault α) (f : α → Except Fault β) :
    onThread (x >>= f) = onThread x >>= fun a => onThread (f a) := by
  cases x <;> rfl

namespace Controller

def cryptoState (c : Controller) (keys : CallKeys) : CryptoState where
  encryptionKey := keys.encryptionKey
  isOutgoing := keys.isOutgoing
  useMTProto2 := c.useMTProto2
  ver := c.ver
  state := c.state

/-- The packets of a payload, handled: the packet, then those that came with it. -/
def processPayload (env : Platform) (fresh : ℕ → Bytes) (c : Controller) (now : Time) (src : Int64)
    (payload : Bytes) : Except DatagramFault Controller :=
  match IncomingPacket.parseCascade fresh c.ver payload with
  | .ok packet => onThread ((packet.toPacket :: packet.otherPackets).foldlM
      (fun c p => c.processIncomingPacket env now p src) c)
  | .error .reject => pure c
  | .error .crash => .error .read

/-- What `decryptPacket` leaves is noted, and handled unless it is empty. -/
def processOpened (env : Platform) (fresh : ℕ → Bytes) (c : Controller) (now : Time) (src : Int64)
    (address : NetworkAddress) (port : UInt16) (opened : Decrypted) :
    Except DatagramFault Controller :=
  let c := { c with useMTProto2 := opened.useMTProto2 }
  if opened.len = 0 then pure c
  else do
    let c ← onThread (c.noteDatagram now src address port)
    c.processPayload env fresh now src opened.stream

/-- `ProcessIncomingPacket` of a datagram from the endpoint under the key `src`. -/
def processDatagram (env : Platform) (keys : CallKeys) (fresh : ℕ → Bytes) (c : Controller)
    (now : Time) (npacket : NetworkPacket) (src : Int64) (here : LocalInterface) :
    Except DatagramFault Controller := do
  let srcEndpoint ← onThread (c.endpointAt src)
  match c.readPeerTag npacket.data srcEndpoint with
  | none => pure c
  | some rest =>
    if (rest.length ≥ 16 && srcEndpoint.isReflector) && (RelayAnswer.parse rest).isSome then
      onThread (c.parseRelayPacket rest here src)
    else if rest.length < 40 then pure c
    else
      match (c.cryptoState keys).decryptPacket keys.fns npacket.data
          (npacket.data.length - rest.length) with
      | none => .error .read
      | some opened => c.processOpened env fresh now src npacket.address npacket.port opened

/-! ## What stands behind the peer tag -/

variable {env : Platform} {keys : CallKeys} {fresh : ℕ → Bytes} {c c' r : Controller} {now : Time}
  {src : Int64} {here : LocalInterface} {e : Endpoint}

/-- The peer tag is a prefix. -/
theorem readPeerTag_eq_some {buffer rest : Bytes} (h : c.readPeerTag buffer e = some rest) :
    ∃ tag, buffer = tag ++ rest := by
  unfold readPeerTag at h
  by_cases htagged : (c.ver.peerVersion < 9 || e.isReflector) = true
  · rw [if_pos htagged] at h
    by_cases hshort : buffer.length < 16
    · rw [if_pos hshort] at h
      cases h
    rw [if_neg hshort] at h
    by_cases hwrong : buffer.take 16 ≠ if e.isReflector then e.peerTag else c.callID.toList
    · rw [if_pos hwrong] at h
      cases h
    · rw [if_neg hwrong] at h
      exact ⟨buffer.take 16, by rw [← Option.some.inj h, List.take_append_drop]⟩
  · rw [if_neg htagged] at h
    exact ⟨[], by rw [← Option.some.inj h, List.nil_append]⟩

/-- What is opened depends on what stands behind the peer tag only. -/
theorem drop_peerTag {buffer rest : Bytes} (h : c.readPeerTag buffer e = some rest) :
    buffer.drop (buffer.length - rest.length) = rest := by
  obtain ⟨tag, rfl⟩ := readPeerTag_eq_some h
  rw [List.length_append, Nat.add_sub_cancel, List.drop_left]

/-- The bytes are those of an answer of the relay. -/
def isRelayAnswer (e : Endpoint) (rest : Bytes) : Bool :=
  e.isReflector && rest.take 12 == List.replicate 12 0xFF

/-- Sixteen bytes are an answer of the relay if twelve of them are ones. -/
theorem isSome_relayAnswer {rest : Bytes} (h : 16 ≤ rest.length) :
    (RelayAnswer.parse rest).isSome = (rest.take 12 == List.replicate 12 0xFF) := by
  unfold RelayAnswer.parse
  split
  · rename_i hones
    have hlen : 4 ≤ (rest.drop 12).length := by
      rw [List.length_drop]
      omega
    obtain ⟨word, hword⟩ : ∃ word, u32.run (rest.drop 12) = some word := by
      match rest.drop 12, hlen with
      | a :: b :: d :: f :: bs, _ => exact ⟨_, rfl⟩
    rw [hword]
    exact (beq_iff_eq.mpr hones).symm
  · rename_i hother
    exact (beq_eq_false_iff_ne.mpr hother).symm

variable {npacket : NetworkPacket} {rest : Bytes}

theorem decryptPacket_drop (s : CryptoState) (fns : CryptoFunctions) (buffer : Bytes) (offset : ℕ) :
    s.decryptPacket fns buffer offset = s.decryptPacket fns (buffer.drop offset) 0 := by
  rw [CryptoState.decryptPacket, CryptoState.decryptPacket, List.drop_zero]

/-- The datagram of an endpoint of the table, by what stands behind its peer tag. -/
theorem processDatagram_at (he : c.endpoints.at? src = some e) :
    c.processDatagram env keys fresh now npacket src here =
      match c.readPeerTag npacket.data e with
      | none => pure c
      | some rest =>
        if rest.length ≥ 16 && isRelayAnswer e rest then onThread (c.parseRelayPacket rest here src)
        else if rest.length < 40 then pure c
        else match (c.cryptoState keys).decryptPacket keys.fns rest 0 with
          | none => .error .read
          | some opened =>
            c.processOpened env fresh now src npacket.address npacket.port opened := by
  have hsource : onThread (c.endpointAt src) = pure e := by
    rw [endpointAt_eq_ok.mpr he]
    rfl
  rw [processDatagram, hsource, pure_bind]
  cases htag : c.readPeerTag npacket.data e with
  | none => rfl
  | some rest =>
      have hanswer : ((rest.length ≥ 16 && e.isReflector) && (RelayAnswer.parse rest).isSome) =
          (rest.length ≥ 16 && isRelayAnswer e rest) := by
        by_cases hlen : rest.length ≥ 16
        · rw [isSome_relayAnswer hlen, isRelayAnswer, decide_eq_true hlen, Bool.true_and]
          rfl
        · rw [decide_eq_false hlen]
          rfl
      simp only [hanswer, decryptPacket_drop _ _ npacket.data, drop_peerTag htag]

/-! ## What nobody with the key has sealed -/

theorem length_oneKey : (List.replicate 256 (7 : UInt8)).length = 256 := List.length_replicate

/-- The keys of a call of which one packet is known. -/
def oneKeys : CallKeys where
  fns := CryptoState.onePacket
  encryptionKey := ⟨List.replicate 256 7, length_oneKey⟩
  isOutgoing := true

/-- A datagram with the peer tag of the relay of `Call.sample`. -/
def fromSample (rest : Bytes) : NetworkPacket where
  data := List.replicate 16 0 ++ rest
  address := .ipv4 0
  port := 0
  protocol := .udp

/-- A hash in front of the bytes is that of what they decrypt to, under a form of
MTProto that is tried. -/
def Authentic (keys : CallKeys) (c : Controller) (rest : Bytes) : Prop :=
  (c.useMTProto2 = false ∧ ((c.cryptoState keys).plaintext1 keys.fns rest).2 = true) ∨
    ((c.useMTProto2 = true ∨ c.state = .waitInit ∨ c.state = .waitInitAck) ∧
      ((c.cryptoState keys).plaintext2 keys.fns rest).2 = true)

theorem decryptPacket_forged (hfns : keys.fns.KeepsLength) (hlen : 40 ≤ rest.length)
    (hforged : ¬ c.Authentic keys rest) :
    (c.cryptoState keys).decryptPacket keys.fns rest 0 = some (c.cryptoState keys).failed := by
  have hsecond : (c.useMTProto2 = true ∨ c.state = .waitInit ∨ c.state = .waitInitAck) →
      (c.cryptoState keys).decrypt2 keys.fns rest = some (c.cryptoState keys).failed := by
    intro htried
    obtain ⟨opened, hopened, rfl | hauthentic⟩ :=
      CryptoState.decrypt2_ok (s := c.cryptoState keys) hfns hlen
    · exact hopened
    · exact absurd (.inr ⟨htried, hauthentic.1⟩) hforged
  cases hmt : c.useMTProto2 with
  | true => exact (if_pos hmt).trans (hsecond (.inl hmt))
  | false =>
      obtain ⟨len, content, -, -, hdecrypt⟩ :=
        CryptoState.decryptPacket_mtproto1 (s := c.cryptoState keys) hfns hmt
          (show 40 ≤ (rest.drop 0).length by rwa [List.drop_zero])
      rw [List.drop_zero] at hdecrypt
      rw [hdecrypt, if_neg fun hfirst => hforged (.inl ⟨hmt, hfirst⟩)]
      split
      · rename_i hwaits
        simp only [Bool.or_eq_true, decide_eq_true_eq] at hwaits
        exact hsecond (.inr hwaits)
      · rfl

/-- What is neither an answer of the relay nor authentic is dropped. -/
theorem processDatagram_unsealed (hfns : keys.fns.KeepsLength) (he : c.endpoints.at? src = some e)
    (hforged : ∀ rest, c.readPeerTag npacket.data e = some rest →
      ¬ (16 ≤ rest.length ∧ isRelayAnswer e rest = true) ∧ ¬ c.Authentic keys rest) :
    c.processDatagram env keys fresh now npacket src here = .ok c := by
  rw [processDatagram_at he]
  cases htag : c.readPeerTag npacket.data e with
  | none => rfl
  | some rest =>
      obtain ⟨hanswer, hforged⟩ := hforged rest htag
      have hother : ¬ (rest.length ≥ 16 && isRelayAnswer e rest) = true := by
        rwa [Bool.and_eq_true, decide_eq_true_eq]
      simp only [if_neg hother]
      by_cases hlen : rest.length < 40
      · rw [if_pos hlen]
        rfl
      · rw [if_neg hlen, decryptPacket_forged hfns (Nat.not_lt.mp hlen) hforged]
        rfl

/-- **A forged datagram changes nothing**, and nothing is thrown: what is neither an
answer of a relay nor sealed with the key is dropped. -/
theorem processDatagram_forged (hfns : keys.fns.KeepsLength) (he : c.endpoints.at? src = some e)
    (hforged : ∀ rest, c.readPeerTag npacket.data e = some rest →
      isRelayAnswer e rest = false ∧ ¬ c.Authentic keys rest) :
    c.processDatagram env keys fresh now npacket src here = .ok c := by
  refine processDatagram_unsealed hfns he ?_
  intro rest hrest
  obtain ⟨hanswer, hforged⟩ := hforged rest hrest
  exact ⟨fun h => Bool.false_ne_true (hanswer.symm.trans h.2), hforged⟩

/-- SHA-256 and AES-IGE on two blocks of zeros behind a hash of zeros, under the key of 256
sevens. -/
def zeroBlocks : CryptoFunctions where
  sha1 _ := .replicate 20 0
  sha256 bs :=
    if bs = List.replicate 16 0 ++ List.replicate 36 7 then
      #v[0x57, 0x18, 0xE6, 0xC5, 0xE1, 0x8D, 0xF4, 0x14, 0x07, 0x82, 0x21, 0x05,
        0x23, 0xF8, 0xA8, 0x79, 0x76, 0xEA, 0x79, 0x26, 0xAE, 0xD7, 0xF4, 0x7B,
        0x39, 0x98, 0x1D, 0x7A, 0xAD, 0xD4, 0x8C, 0xED]
    else if bs = List.replicate 36 7 ++ List.replicate 16 0 then
      #v[0xFE, 0x15, 0x19, 0x23, 0xCC, 0xB0, 0xCC, 0xC2, 0x87, 0x4B, 0xF0, 0x45,
        0xBB, 0x03, 0x2D, 0xB7, 0xCF, 0xB9, 0xAC, 0x7B, 0xE2, 0x90, 0x50, 0x3E,
        0x98, 0x1C, 0x44, 0xB7, 0xD6, 0x73, 0x3D, 0x71]
    else
      #v[0xA0, 0x9F, 0x17, 0x45, 0x4F, 0x8D, 0x72, 0x62, 0x84, 0x4B, 0xF2, 0x3F,
        0x32, 0xA0, 0xCC, 0x39, 0xDE, 0x8F, 0x64, 0x58, 0xD0, 0xC2, 0x25, 0x40,
        0x36, 0xCC, 0xD8, 0x64, 0x8B, 0x23, 0x11, 0x57]
  aesIgeEncrypt _ _ bs := bs
  aesIgeDecrypt _ _ bs :=
    if bs = List.replicate 32 0 then
      [0x33, 0x36, 0xCE, 0x06, 0x65, 0xED, 0xD9, 0x75, 0x4D, 0x65, 0x0F, 0x32,
        0x43, 0x1F, 0xE0, 0x8A, 0x1F, 0xE0, 0x46, 0x6A, 0x7F, 0xC0, 0xBE, 0xE5,
        0xF4, 0x54, 0xEB, 0xC6, 0xE7, 0x51, 0xB9, 0x2F]
    else bs

theorem zeroBlocks_keepsLength : zeroBlocks.KeepsLength := by
  intro key iv bs
  simp only [zeroBlocks]
  split
  · rename_i hzeros
    rw [hzeros]
    rfl
  · rfl

/-- Whole blocks, and a hash that is not that of what they decrypt to. -/
theorem processDatagram_forged_zeros :
    (Call.sample 110 true).processDatagram samplePlatform { oneKeys.mate with fns := zeroBlocks }
        (fun n => .replicate n 0) 0 (fromSample (.replicate 48 0)) 1 ⟨0, 0⟩ =
      .ok (Call.sample 110 true) := by
  refine processDatagram_forged zeroBlocks_keepsLength rfl ?_
  intro rest hrest
  obtain rfl : List.replicate 48 0 = rest := Option.some.inj hrest
  refine ⟨by decide, ?_⟩
  rintro (⟨hmt, -⟩ | ⟨-, hauthentic⟩)
  · cases hmt
  · exact absurd hauthentic (by decide +kernel)

end Controller

/-! ## What the other end has sealed -/

namespace CallKeys

/-- The length of what is encrypted: the length field, the data, and the padding. -/
def innerLength (ver : VersionInfo) (data : Bytes) : ℕ :=
  let length := (if ver.isLegacyLegacy then 4 else 2) + data.length
  length + CryptoState.padLen length

variable {keys : CallKeys} {padding : (n : ℕ) → Vector UInt8 n} {ver : VersionInfo} {data : Bytes}

theorem length_inner : ((keys.sealer ver).inner padding data).length = innerLength ver data := by
  have hfield : (CryptoState.lengthField (keys.sealer ver).shortFormat data.length ++ data).length =
      (if ver.isLegacyLegacy then 4 else 2) + data.length := by
    rw [List.length_append, CryptoState.length_lengthField]
    cases h : ver.isLegacyLegacy with
    | true => simp [sealer, CryptoState.shortFormat, h]
    | false => simp [sealer, CryptoState.shortFormat, h]
  rw [CryptoState.inner, List.length_append, Vector.length_toList, hfield]
  rfl

section
variable (keys padding ver data)

/-- The hash in front of what is encrypted. -/
def msgKey : Bytes :=
  (keys.sealer ver).msgKey keys.fns ((keys.sealer ver).inner padding data)
    (if keys.isOutgoing then 0 else 8)

def cipher : Bytes :=
  let aes := (keys.sealer ver).kdf2 keys.fns (keys.msgKey padding ver data)
    (if keys.isOutgoing then 0 else 8)
  keys.fns.aesIgeEncrypt aes.1 aes.2 ((keys.sealer ver).inner padding data)

/-- The fingerprint, in the long format. -/
def fingerprint : Bytes :=
  if (keys.sealer ver).shortFormat then [] else (keys.sealer ver).keyFingerprint keys.fns

theorem encrypt_eq : keys.encrypt padding ver data =
    keys.fingerprint ver ++ (keys.msgKey padding ver data ++ keys.cipher padding ver data) :=
  List.append_assoc ..

theorem length_msgKey : (keys.msgKey padding ver data).length = 16 :=
  CryptoState.length_msgKey _ _

theorem length_cipher (hfns : keys.fns.Lawful) :
    (keys.cipher padding ver data).length = innerLength ver data := by
  obtain ⟨hkey, hiv⟩ := @CryptoState.length_kdf2 keys.fns (keys.sealer ver)
    (keys.msgKey padding ver data) (if keys.isOutgoing then 0 else 8)
  rw [cipher, hfns.length_encrypt _ _ _ hkey hiv (CryptoState.dvd_length_inner padding data),
    length_inner]

/-- Two blocks stand behind the hash. -/
theorem le_length_encrypt (hfns : keys.fns.Lawful) :
    40 ≤ (keys.encrypt padding ver data).length := by
  obtain ⟨hblocks, hpad⟩ := CryptoState.dvd_add_padLen
    ((if ver.isLegacyLegacy then 4 else 2) + data.length)
  have hfield : 2 ≤ if ver.isLegacyLegacy then 4 else 2 := by
    split <;> omega
  rw [encrypt_eq, List.length_append, List.length_append, length_msgKey,
    length_cipher keys padding ver data hfns, innerLength]
  omega

end

end CallKeys

namespace Controller

variable {env : Platform} {keys : CallKeys} {fresh : ℕ → Bytes} {c r : Controller} {now : Time}
  {src : Int64} {here : LocalInterface} {e : Endpoint} {npacket : NetworkPacket}
  {padding : (n : ℕ) → Vector UInt8 n} {ver : VersionInfo} {p : Packet}

/-- **Opening what the other end has sealed**: all of it, unless it is too long for the
buffer of `decryptPacket`. -/
theorem decryptPacket_mate (padding : (n : ℕ) → Vector UInt8 n) (hfns : keys.fns.Lawful) (hmt : r.useMTProto2 = true)
    (hformat : r.ver.isLegacyLegacy = ver.isLegacyLegacy) (data : Bytes) :
    (r.cryptoState keys.mate).decryptPacket keys.fns (keys.encrypt padding ver data) 0 =
      some (if CallKeys.innerLength ver data ≤ 1500 then
          { len := data.length, stream := data, useMTProto2 := true }
        else (r.cryptoState keys.mate).failed) := by
  have hpeers : CryptoState.Peers (keys.sealer ver) (r.cryptoState keys.mate) := ⟨rfl, rfl, hformat⟩
  have hopen : (r.cryptoState keys.mate).open2 keys.fns
      (keys.msgKey padding ver data ++ keys.cipher padding ver data) =
      some (if CallKeys.innerLength ver data ≤ 1500 then
          { len := data.length, stream := data, useMTProto2 := true }
        else (r.cryptoState keys.mate).failed) := by
    by_cases hfit : CallKeys.innerLength ver data ≤ 1500
    · rw [if_pos hfit]
      exact CryptoState.open2_seal hfns hpeers padding (CallKeys.length_inner ▸ hfit) rfl
    · have hread := decodes_bytes (keys.msgKey padding ver data)
      rw [CallKeys.length_msgKey] at hread
      rw [if_neg hfit, CryptoState.open2, hread]
      simp only [Option.bind_eq_bind, Option.bind_some]
      rw [if_pos (by rw [CallKeys.length_cipher keys padding ver data hfns]; omega)]
      rfl
  rw [CryptoState.decryptPacket, if_pos (show (r.cryptoState keys.mate).useMTProto2 = true from hmt),
    List.drop_zero, CryptoState.decrypt2, CallKeys.encrypt_eq, CallKeys.fingerprint, hpeers.shortFormat]
  by_cases hshort : (keys.sealer ver).shortFormat = true
  · rw [if_pos hshort, if_pos hshort, List.nil_append]
    exact hopen
  · have hread := decodes_bytes ((keys.sealer ver).keyFingerprint keys.fns)
    rw [CryptoState.length_keyFingerprint] at hread
    rw [if_neg hshort, if_neg hshort, hread]
    simp only [Option.bind_eq_bind, Option.bind_some, hpeers.keyFingerprint]
    rw [if_neg (by simp)]
    exact hopen

/-- The new format of two versions of one layer is the same. -/
theorem serialize_congr {ver' : VersionInfo} (hnew : ver.isNew = true) (hnew' : ver'.isNew = true)
    (hlayer : ver.connectionMaxLayer = ver'.connectionMaxLayer) (p : Packet) :
    p.serialize ver = p.serialize ver' := by
  have hcodec : Codec.serialize ver = Codec.serialize ver' := by
    funext codec
    simp [Codec.serialize, hnew, hnew']
  have hstream : ExtraStreamInfo.serialize ver = ExtraStreamInfo.serialize ver' := by
    funext s
    rw [ExtraStreamInfo.serialize, ExtraStreamInfo.serialize, hcodec]
  have hextra : ∀ x : Extra, x.serialize ver = x.serialize ver' := by
    intro x
    cases x with
    | streamFlags d => simp [Extra.serialize, ExtraStreamFlags.serialize, hnew, hnew']
    | lanEndpoint d => simp [Extra.serialize, ExtraLanEndpoint.serialize, hnew, hnew']
    | networkChanged d => simp [Extra.serialize, ExtraNetworkChanged.serialize, hnew, hnew']
    | init d => simp [Extra.serialize, ExtraInit.serialize, hnew, hnew', hlayer, hcodec]
    | initAck d => simp [Extra.serialize, ExtraInitAck.serialize, hstream]
    | _ => rfl
  have hwrapped : WrappedExtra.serialize ver = WrappedExtra.serialize ver' := by
    funext x
    rw [WrappedExtra.serialize, WrappedExtra.serialize, WrappedExtra.content, WrappedExtra.content,
      hextra]
  rw [Packet.serialize, Packet.serialize, hwrapped]

/-- What is parsed of a packet that fits the format. -/
theorem parseCascade_serialize (hnew : ver.isNew = true) (hp : p.Sendable ver)
    (hwhole : p.eFlags &&& Packet.EFlags.fragmented = 0) :
    IncomingPacket.parseCascade fresh ver (p.serialize ver) = .ok (p.afterWire ver) := by
  have hparse : IncomingPacket.parse fresh ver ({}, p.serialize ver) =
      .ok () (p.afterWire ver, []) := by
    rw [IncomingPacket.parse, if_pos hnew]
    exact (Packet.fills_serialize fresh hp hwhole).run
  rw [IncomingPacket.parseCascade, IncomingPacket.parseFrom.eq_def]
  simp only [hparse]


theorem noteDatagram_ver {address : NetworkAddress} {port : UInt16}
    (h : c.noteDatagram now src address port = .ok r) : r.ver = c.ver := by
  have hmoved : ∀ c : Controller, c.moveP2pEndpoint src address port = .ok r → r.ver = c.ver := by
    intro c h
    unfold moveP2pEndpoint at h
    obtain ⟨e, -, h⟩ := bind_eq_ok.mp h
    cases address with
    | ipv6 addr => exact pure_eq_ok.mp h ▸ rfl
    | ipv4 addr =>
        rw [← pure_eq_ok.mp h]
        split <;> rfl
  rw [hmoved _ h]
  split <;> rfl

theorem processPayload_packet (hnew : c.ver.isNew = true) (hp : p.Sendable c.ver)
    (hwhole : p.eFlags &&& Packet.EFlags.fragmented = 0) :
    c.processPayload env fresh now src (p.serialize c.ver) =
      onThread (c.processIncomingPacket env now (p.afterWire c.ver).toPacket src) := by
  rw [processPayload, parseCascade_serialize hnew hp hwhole]
  show onThread (List.foldlM _ c [_]) = _
  simp only [List.foldlM_cons, List.foldlM_nil, bind_pure]

/-- A packet that was opened is received. -/
theorem processOpened_packet {address : NetworkAddress} {port : UInt16} {len : ℕ}
    (hmt : c.useMTProto2 = true) (hlen : len ≠ 0) (hnew : c.ver.isNew = true)
    (hp : p.Sendable c.ver) (hwhole : p.eFlags &&& Packet.EFlags.fragmented = 0) :
    c.processOpened env fresh now src address port
        { len, stream := p.serialize c.ver, useMTProto2 := true } =
      onThread (c.receive env now src address port [(p.afterWire c.ver).toPacket]) := by
  have hkept : { c with useMTProto2 := true } = c := by rw [← hmt]
  rw [processOpened, receive, onThread_bind]
  simp only [hkept, if_neg hlen]
  cases hnote : c.noteDatagram now src address port with
  | error fault => rfl
  | ok c' =>
      have hver := noteDatagram_ver hnote
      show c'.processPayload env fresh now src _ = onThread (List.foldlM _ c' [_])
      rw [← hver, processPayload_packet (hver ▸ hnew) (hver ▸ hp) hwhole]
      simp only [List.foldlM_cons, List.foldlM_nil, bind_pure]

/-- **What the other end has sealed is handled as the packet it was**: if it fits the
buffer of `decryptPacket`, and does not happen to look like an answer of the relay it
comes from. -/
theorem processDatagram_sealed (hfns : keys.fns.Lawful) (hmt : r.useMTProto2 = true)
    (hnew : ver.isNew = true) (hnew' : r.ver.isNew = true)
    (hlayer : ver.connectionMaxLayer = r.ver.connectionMaxLayer)
    (hformat : r.ver.isLegacyLegacy = ver.isLegacyLegacy) (hp : p.Sendable r.ver)
    (hwhole : p.eFlags &&& Packet.EFlags.fragmented = 0) (he : r.endpoints.at? src = some e)
    (hdata : r.readPeerTag npacket.data e = some (keys.encrypt padding ver (p.serialize ver))) :
    r.processDatagram env keys.mate fresh now npacket src here =
      if isRelayAnswer e (keys.encrypt padding ver (p.serialize ver)) then
        onThread (r.parseRelayPacket (keys.encrypt padding ver (p.serialize ver)) here src)
      else if CallKeys.innerLength ver (p.serialize ver) ≤ 1500 then
        onThread (r.receive env now src npacket.address npacket.port [(p.afterWire r.ver).toPacket])
      else .ok r := by
  have hlen := CallKeys.le_length_encrypt keys padding ver (p.serialize ver) hfns
  have hopen := decryptPacket_mate padding hfns hmt hformat (p.serialize ver)
  change (r.cryptoState keys.mate).decryptPacket keys.mate.fns _ 0 = _ at hopen
  rw [processDatagram_at he, hdata]
  simp only [hopen, decide_eq_true (by omega : (keys.encrypt padding ver (p.serialize ver)).length ≥ 16),
    Bool.true_and, if_neg (by omega : ¬ (keys.encrypt padding ver (p.serialize ver)).length < 40)]
  by_cases hfit : CallKeys.innerLength ver (p.serialize ver) ≤ 1500
  · have hsome : (p.serialize ver).length ≠ 0 := by
      rw [Packet.serialize]
      simp
    simp only [if_pos hfit]
    rw [serialize_congr hnew hnew' hlayer p] at hsome
    rw [← processOpened_packet hmt hsome hnew' hp hwhole, serialize_congr hnew hnew' hlayer p]
  · simp only [if_neg hfit]
    rfl

end Controller

/-! ## From one end to the other -/

/-- What arrives of a datagram: a relay puts the receiver's peer tag in the place of the
sender's. -/
def Endpoint.forward (e : Endpoint) (bs : Bytes) : Bytes :=
  if e.isReflector then e.peerTag ++ bs.drop 16 else bs

/-- The platform seals with the key. -/
def Platform.SealsWith (env : Platform) (keys : CallKeys) : Prop :=
  ∀ ver data, ∃ padding, env.encryptPacket ver data = keys.encrypt padding ver data

/-- What was sealed under `ver` for `ep` arrives at `r` from `e`: both of them relays or
neither, and in the format that is expected. -/
structure Controller.Faces (ver : VersionInfo) (ep : Endpoint) (r : Controller) (e : Endpoint) :
    Prop where
  layer : ver.connectionMaxLayer = r.ver.connectionMaxLayer
  isNew : ver.isNew = true ∧ r.ver.isNew = true
  format : ver.writes ep = r.ver.expects e
  relayed : ep.isReflector = e.isReflector
  tags : ep.isReflector = true → ep.peerTag.length = 16 ∧ e.peerTag.length = 16

namespace Controller

variable {env env' : Platform} {keys : CallKeys} {fresh : ℕ → Bytes} {c r : Controller} {now : Time}
  {src : Int64} {here : LocalInterface} {ep e : Endpoint} {npacket : NetworkPacket} {p : Packet}
  {pktInfo : CongestionControlPacket} {ver : VersionInfo}

theorem Faces.isLegacyLegacy (h : Faces ver ep r e) :
    r.ver.isLegacyLegacy = ver.isLegacyLegacy := by
  have hshort := congrArg WireFormat.short h.format
  simpa [VersionInfo.writes, VersionInfo.expects] using hshort.symm

/-- Sixteen bytes in front of the rest. -/
theorem peerTag_front (rest : Bytes) {tag : Bytes} (htag : tag.length = 16) :
    (tag ++ rest).take 16 = tag ∧ (tag ++ rest).drop 16 = rest ∧ ¬ (tag ++ rest).length < 16 := by
  refine ⟨?_, ?_, ?_⟩
  · rw [← htag, List.take_left]
  · rw [← htag, List.drop_left]
  · rw [List.length_append, htag]
    omega

/-- The peer tag that arrives is the one that is expected. -/
theorem readPeerTag_forward (h : Faces ver ep r e) {header : Bytes}
    (hheader : header = if ep.isReflector then ep.peerTag
      else if (ver.writes ep).callID then r.callID.toList else []) (rest : Bytes) :
    r.readPeerTag (e.forward (header ++ rest)) e = some rest := by
  rw [hheader, Endpoint.forward]
  cases hrelay : e.isReflector with
  | true =>
      have hrelay' : ep.isReflector = true := h.relayed.trans hrelay
      obtain ⟨htag, htag'⟩ := h.tags hrelay'
      obtain ⟨-, hrest, -⟩ := peerTag_front rest htag
      obtain ⟨hfront, hback, hlong⟩ := peerTag_front rest htag'
      simp only [hrelay', if_true, hrest, readPeerTag, hrelay, Bool.or_true, hfront, hback, if_neg hlong,
        ne_eq, not_true_eq_false, if_false]
  | false =>
      have hrelay' : ¬ ep.isReflector = true := by
        rw [h.relayed, hrelay]
        exact Bool.false_ne_true
      rw [if_neg Bool.false_ne_true, if_neg hrelay', readPeerTag_eq_expects r _ e hrelay, ← h.format]
      have hid : r.callID.toList.length = 16 := Vector.length_toList
      obtain ⟨hfront, hback, hlong⟩ := peerTag_front rest hid
      by_cases htold : (ver.writes ep).callID = true
      · rw [if_pos htold, if_pos htold, if_neg hlong, hfront, hback, if_neg (not_not.mpr rfl)]
      · rw [if_neg htold, if_neg htold, List.nil_append]

/-- **From one end to the other**: what `PreparePacket` makes of a packet, forwarded, is
handled by the other end as that packet. It is refused if it is too long, and taken for
an answer of the relay if it starts like one. -/
theorem processDatagram_preparePacket (hfns : keys.fns.Lawful) (hseals : env.SealsWith keys)
    (hfaces : Faces c.ver ep r e) (hcall : r.callID = c.callID) (hmt : r.useMTProto2 = true)
    (hp : p.Sendable r.ver) (hwhole : p.eFlags &&& Packet.EFlags.fragmented = 0)
    (he : r.endpoints.at? src = some e)
    (hdata : npacket.data =
      e.forward (c.preparePacket env (p.serialize c.ver) ep pktInfo p).packet) :
    r.processDatagram env' keys.mate fresh now npacket src here =
      if isRelayAnswer e (env.encryptPacket c.ver (p.serialize c.ver)) then
        onThread (r.parseRelayPacket (env.encryptPacket c.ver (p.serialize c.ver)) here src)
      else if CallKeys.innerLength c.ver (p.serialize c.ver) ≤ 1500 then
        onThread (r.receive env' now src npacket.address npacket.port [(p.afterWire r.ver).toPacket])
      else .ok r := by
  have hsome : ¬ (p.serialize c.ver).isEmpty = true := by
    rw [Packet.serialize]
    simp
  obtain ⟨padding, hsealed⟩ := hseals c.ver (p.serialize c.ver)
  rw [preparePacket_eq_writes, if_neg hsome, ← hcall] at hdata
  have htag := readPeerTag_forward hfaces rfl (env.encryptPacket c.ver (p.serialize c.ver))
  rw [← hdata, hsealed] at htag
  rw [hsealed]
  exact processDatagram_sealed hfns hmt hfaces.isNew.1 hfaces.isNew.2 hfaces.layer
    hfaces.isLegacyLegacy hp hwhole he htag

/-- `samplePlatform`, with `encryptPacket`. -/
def sealingPlatform : Platform :=
  { samplePlatform with encryptPacket := oneKeys.encrypt fun n => .replicate n 0 }

/-- An audio packet. -/
def oneFrame : Packet := { seq := 1, streamId := StreamId.audio, data := some [1, 2, 3] }

theorem oneFrame_sendable (ver : VersionInfo) : oneFrame.Sendable ver where
  data := by decide
  eFlags := by decide
  extraEC := fun i b h => nomatch h
  count := by decide
  extras := fun x hx => nomatch hx

/-- The packet travels from one end of the call to the other. -/
theorem processDatagram_preparePacket_frame :
    (Call.sample 110 true).processDatagram samplePlatform oneKeys.mate (fun n => .replicate n 0) 0
        (fromSample (sealingPlatform.encryptPacket ⟨0, 110⟩ (oneFrame.serialize ⟨0, 110⟩))) 1
        ⟨0, 0⟩ =
      onThread ((Call.sample 110 true).receive samplePlatform 0 1 (.ipv4 0) 0
        [(oneFrame.afterWire ⟨0, 110⟩).toPacket]) := by
  have hfaces : Faces (Call.sample 110 false).ver { id := 1, type := .udpRelay }
      (Call.sample 110 true) { id := 1, type := .udpRelay } :=
    ⟨rfl, ⟨rfl, rfl⟩, rfl, rfl, fun _ => ⟨rfl, rfl⟩⟩
  have hseals : sealingPlatform.SealsWith oneKeys := fun ver data => ⟨_, rfl⟩
  have hdata : (fromSample (sealingPlatform.encryptPacket ⟨0, 110⟩
      (oneFrame.serialize ⟨0, 110⟩))).data =
      ({ id := 1, type := .udpRelay } : Endpoint).forward
        ((Call.sample 110 false).preparePacket sealingPlatform (oneFrame.serialize ⟨0, 110⟩)
          { id := 1, type := .udpRelay } ⟨1, 1⟩ oneFrame).packet := rfl
  refine (processDatagram_preparePacket CryptoState.onePacket_lawful hseals hfaces rfl rfl
    (oneFrame_sendable _) (by decide) rfl hdata).trans ?_
  rw [if_neg (by decide +kernel), if_pos (by decide)]
  rfl

end Controller

end Tgvoip
