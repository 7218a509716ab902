import Tgvoip.Protocol.Interface
import Tgvoip.Protocol.VersionInfo

/-!
# Extra — the signaling messages and their wire format

`controller/protocol/protocol/Extra.{h,cpp}`: eleven kinds of signaling
messages ("extras"). An extra travels behind its one-byte id inside a
`Wrapped` object, or (the oldest formats) as the body of a packet of its
own type. `Extra.parse` and `Extra.serialize` are the eleven pairs of
virtual functions of the source; which fields are wide and which narrow
depends on the version.

An address is an IPv4 word in a LAN endpoint and sixteen bytes in an IPv6
endpoint: the `isIPv6` flag of the source's union is the constructor.
-/

namespace Tgvoip

open ByteReader

/-! ## Codecs -/

namespace Codec

def opus : UInt32 := 0x4F505553
def avc : UInt32 := 0x41564320
def hevc : UInt32 := 0x48455643
def vp8 : UInt32 := 0x56503830

/-- `CODEC_OPUS_OLD`. -/
def opusOld : UInt8 := 1

def parse (ver : VersionInfo) : Reader UInt32 :=
  if ver.peerVersion ≥ 5 || ver.isNew then u32
  else do
    let codec ← u8
    pure (if codec = opusOld then opus else 0)

def serialize (ver : VersionInfo) (codec : UInt32) : Bytes :=
  if ver.peerVersion ≥ 5 || ver.isNew then le32 codec
  else [if codec = opus then 1 else 0]

/-- How many bytes a codec takes. -/
def size (ver : VersionInfo) : ℕ := if ver.peerVersion ≥ 5 || ver.isNew then 4 else 1

end Codec

/-! ## The messages -/

namespace StreamType

def signaling : UInt8 := 0
def audio : UInt8 := 1
def video : UInt8 := 2

end StreamType

structure ExtraStreamInfo where
  streamId : UInt8 := 0
  type : UInt8 := StreamType.audio
  codec : UInt32 := 0
  frameDuration : UInt16 := 60
  enabled : Bool := false
  deriving DecidableEq, Repr

structure ExtraStreamFlags where
  streamId : UInt8
  flags : UInt8 := 0
  deriving DecidableEq, Repr

namespace ExtraStreamFlags

def enabled : UInt8 := 1
def dtx : UInt8 := 2
def extraEC : UInt8 := 3
def paused : UInt8 := 4

end ExtraStreamFlags

structure ExtraStreamCsd where
  streamId : UInt8
  width : UInt16 := 0
  height : UInt16 := 0
  data : List Bytes := []
  deriving DecidableEq, Repr

structure ExtraLanEndpoint where
  address : UInt32
  port : UInt16 := 0
  deriving DecidableEq, Repr

structure ExtraIpv6Endpoint where
  address : { bs : Bytes // bs.length = 16 }
  port : UInt16 := 0
  deriving DecidableEq, Repr

structure ExtraNetworkChanged where
  flags : UInt8 := 0
  deriving DecidableEq, Repr

structure ExtraGroupCallKey where
  key : Bytes := []
  deriving DecidableEq, Repr

structure ExtraInit where
  peerVersion : UInt32 := 0
  minVersion : UInt32 := 0
  flags : UInt8 := 0
  audioCodecs : List UInt32 := []
  decoders : List UInt32 := []
  maxResolution : UInt8 := 0
  deriving DecidableEq, Repr

namespace ExtraInit

def dataSavingEnabled : UInt8 := 1
def groupCallSupported : UInt8 := 2
def videoSendSupported : UInt8 := 4
def videoRecvSupported : UInt8 := 8

end ExtraInit

structure ExtraInitAck where
  peerVersion : UInt32 := 0
  minVersion : UInt32 := 0
  streams : List ExtraStreamInfo := []
  deriving DecidableEq, Repr

structure ExtraPong where
  seq : UInt32 := 0
  deriving DecidableEq, Repr

inductive Extra where
  | streamFlags (d : ExtraStreamFlags)
  | streamCsd (d : ExtraStreamCsd)
  | lanEndpoint (d : ExtraLanEndpoint)
  | networkChanged (d : ExtraNetworkChanged)
  | groupCallKey (d : ExtraGroupCallKey)
  | groupCallUpgrade
  | ipv6Endpoint (d : ExtraIpv6Endpoint)
  | init (d : ExtraInit)
  | initAck (d : ExtraInitAck)
  | ping
  | pong (d : ExtraPong)
  deriving DecidableEq, Repr

/-- The kinds of extras: the classes derived from `Extra`. -/
inductive ExtraKind where
  | streamFlags | streamCsd | lanEndpoint | networkChanged | groupCallKey | groupCallUpgrade
  | ipv6Endpoint | init | initAck | ping | pong
  deriving DecidableEq, Repr

namespace ExtraKind

/-- The `ID` of the class. -/
def id : ExtraKind → UInt8
  | streamFlags => 1
  | streamCsd => 2
  | lanEndpoint => 3
  | networkChanged => 4
  | groupCallKey => 5
  | groupCallUpgrade => 6
  | ipv6Endpoint => 7
  | init => 8
  | initAck => 9
  | ping => 10
  | pong => 11

/-- The switch of `Extra::choose`. -/
def choose (id : UInt8) : Option ExtraKind :=
  if id = 1 then some streamFlags
  else if id = 2 then some streamCsd
  else if id = 3 then some lanEndpoint
  else if id = 7 then some ipv6Endpoint
  else if id = 4 then some networkChanged
  else if id = 5 then some groupCallKey
  else if id = 6 then some groupCallUpgrade
  else if id = 8 then some init
  else if id = 9 then some initAck
  else if id = 10 then some ping
  else if id = 11 then some pong
  else none

@[simp] theorem choose_id (k : ExtraKind) : choose k.id = some k := by
  cases k <;> rfl

end ExtraKind

namespace Extra

def kind : Extra → ExtraKind
  | streamFlags _ => .streamFlags
  | streamCsd _ => .streamCsd
  | lanEndpoint _ => .lanEndpoint
  | networkChanged _ => .networkChanged
  | groupCallKey _ => .groupCallKey
  | groupCallUpgrade => .groupCallUpgrade
  | ipv6Endpoint _ => .ipv6Endpoint
  | init _ => .init
  | initAck _ => .initAck
  | ping => .ping
  | pong _ => .pong

def getID (e : Extra) : UInt8 := e.kind.id

end Extra

/-! ## Parsing and serializing -/

/-- A byte, which the old formats write as a 32-bit word
(`TryReadCompat<uint32_t>`). -/
def byteOrWord (isNew : Bool) : Reader UInt8 := if isNew then u8 else UInt32.toUInt8 <$> u32

/-- The same for a 16-bit port. -/
def shortOrWord (isNew : Bool) : Reader UInt16 := if isNew then u16 else UInt32.toUInt16 <$> u32

namespace ExtraStreamInfo

def parse (ver : VersionInfo) : Reader ExtraStreamInfo := do
  let streamId ← u8
  let type ← u8
  let codec ← Codec.parse ver
  let frameDuration ← u16
  let enabled ← u8
  pure { streamId, type, codec, frameDuration, enabled := enabled != 0 }

def serialize (ver : VersionInfo) (s : ExtraStreamInfo) : Bytes :=
  [s.streamId] ++ ([s.type] ++ (Codec.serialize ver s.codec ++
    (le16 s.frameDuration ++ [if s.enabled then 1 else 0])))

end ExtraStreamInfo

namespace ExtraStreamFlags

def parse (ver : VersionInfo) : Reader ExtraStreamFlags :=
  if ver.peerVersion < 6 then do
    let streamId ← u8
    let flags ← u8
    pure { streamId, flags := if flags != 0 then enabled else 0 }
  else do
    let streamId ← u8
    let flags ← byteOrWord ver.isNew
    pure { streamId, flags }

def serialize (ver : VersionInfo) (d : ExtraStreamFlags) : Bytes :=
  [d.streamId] ++
    if ver.isNew then [d.flags]
    else if ver.peerVersion ≥ 6 then le32 d.flags.toUInt32
    else [d.flags &&& enabled]

end ExtraStreamFlags

namespace ExtraStreamCsd

def parse (_ : VersionInfo) : Reader ExtraStreamCsd := do
  let streamId ← u8
  let width ← u16
  let height ← u16
  let data ← parseArray parseBytes
  pure { streamId, width, height, data }

def serialize (_ : VersionInfo) (d : ExtraStreamCsd) : Bytes :=
  [d.streamId] ++ (le16 d.width ++ (le16 d.height ++ serializeArray serializeBytes d.data))

end ExtraStreamCsd

namespace ExtraLanEndpoint

def parse (ver : VersionInfo) : Reader ExtraLanEndpoint := do
  let address ← u32
  let port ← shortOrWord ver.isNew
  pure { address, port }

def serialize (ver : VersionInfo) (d : ExtraLanEndpoint) : Bytes :=
  le32 d.address ++ if ver.isNew then le16 d.port else le32 d.port.toUInt32

end ExtraLanEndpoint

namespace ExtraIpv6Endpoint

/-- Sixteen bytes, as an address. -/
def parseAddress : Reader { bs : Bytes // bs.length = 16 } := fun bs =>
  match bytes 16 bs with
  | none => none
  | some (a, rest) => if h : a.length = 16 then some (⟨a, h⟩, rest) else none

def parse (_ : VersionInfo) : Reader ExtraIpv6Endpoint := do
  let address ← parseAddress
  let port ← u16
  pure { address, port }

def serialize (_ : VersionInfo) (d : ExtraIpv6Endpoint) : Bytes := d.address.val ++ le16 d.port

end ExtraIpv6Endpoint

namespace ExtraNetworkChanged

def parse (ver : VersionInfo) : Reader ExtraNetworkChanged := do
  let flags ← byteOrWord ver.isNew
  pure { flags }

def serialize (ver : VersionInfo) (d : ExtraNetworkChanged) : Bytes :=
  if ver.isNew then [d.flags] else le32 d.flags.toUInt32

end ExtraNetworkChanged

namespace ExtraGroupCallKey

/-- The read goes into the object's own buffer, which a new object has empty. -/
def parse (_ : VersionInfo) : Reader ExtraGroupCallKey := do
  let key ← bytes ({} : ExtraGroupCallKey).key.length
  pure { key }

def serialize (_ : VersionInfo) (d : ExtraGroupCallKey) : Bytes := d.key

end ExtraGroupCallKey

namespace ExtraInit

def parse (ver : VersionInfo) : Reader ExtraInit := do
  let peerVersion ← u32
  let minVersion ← u32
  let flags ← byteOrWord ver.isNew
  let audioCodecs ← parseArray (Codec.parse ver)
  let decoders ← parseArray u32
  let maxResolution ← u8
  pure { peerVersion, minVersion, flags, audioCodecs, decoders, maxResolution }

def serialize (ver : VersionInfo) (d : ExtraInit) : Bytes :=
  le32 d.peerVersion ++ (le32 d.minVersion ++
    ((if ver.isNew then [d.flags] else le32 d.flags.toUInt32) ++
      if ver.connectionMaxLayer < 74 then
        -- the audio codec count, two old codecs, the new one, no video codecs
        [2, Codec.opusOld, 0, 0, 0] ++ (le32 Codec.opus ++ [0, 0])
      else
        serializeArray (Codec.serialize ver) d.audioCodecs ++
          (serializeArray le32 d.decoders ++ [d.maxResolution])))

end ExtraInit

namespace ExtraInitAck

def parse (ver : VersionInfo) : Reader ExtraInitAck := do
  let peerVersion ← u32
  let minVersion ← u32
  let streams ← parseArray (ExtraStreamInfo.parse ver)
  pure { peerVersion, minVersion, streams }

def serialize (ver : VersionInfo) (d : ExtraInitAck) : Bytes :=
  le32 d.peerVersion ++ (le32 d.minVersion ++
    serializeArray (ExtraStreamInfo.serialize ver) d.streams)

end ExtraInitAck

namespace ExtraPong

def parse (_ : VersionInfo) : Reader ExtraPong := do
  let left ← remaining
  if left ≥ 4 then do
    let seq ← u32
    pure { seq }
  else pure {}

def serialize (_ : VersionInfo) (d : ExtraPong) : Bytes := le32 d.seq

end ExtraPong

namespace Extra

/-- The virtual `parse` of a new object of the kind. -/
def parse (ver : VersionInfo) : ExtraKind → Reader Extra
  | .streamFlags => streamFlags <$> ExtraStreamFlags.parse ver
  | .streamCsd => streamCsd <$> ExtraStreamCsd.parse ver
  | .lanEndpoint => lanEndpoint <$> ExtraLanEndpoint.parse ver
  | .networkChanged => networkChanged <$> ExtraNetworkChanged.parse ver
  | .groupCallKey => groupCallKey <$> ExtraGroupCallKey.parse ver
  | .groupCallUpgrade => pure groupCallUpgrade
  | .ipv6Endpoint => ipv6Endpoint <$> ExtraIpv6Endpoint.parse ver
  | .init => init <$> ExtraInit.parse ver
  | .initAck => initAck <$> ExtraInitAck.parse ver
  | .ping => pure ping
  | .pong => pong <$> ExtraPong.parse ver

def serialize (ver : VersionInfo) : Extra → Bytes
  | streamFlags d => d.serialize ver
  | streamCsd d => d.serialize ver
  | lanEndpoint d => d.serialize ver
  | networkChanged d => d.serialize ver
  | groupCallKey d => d.serialize ver
  | groupCallUpgrade => []
  | ipv6Endpoint d => d.serialize ver
  | init d => d.serialize ver
  | initAck d => d.serialize ver
  | ping => []
  | pong d => d.serialize ver

end Extra

/-- `Wrapped<Extra>` with its `hash` field: the bytes the SHA-1 was taken
over, or none where the field was never set (an extra made by this side,
or read from a packet of its own type). -/
structure WrappedExtra where
  d : Extra
  hashed : Option Bytes := none
  deriving DecidableEq, Repr

namespace WrappedExtra

/-- `Extra::choose` and the `parse` of what it chose, on a part buffer. -/
def parseContent (ver : VersionInfo) (buf : Bytes) : Reader WrappedExtra := do
  let id ← u8
  match ExtraKind.choose id with
  | none => failure
  | some k => do
    let d ← Extra.parse ver k
    pure { d, hashed := some buf }

def parse (ver : VersionInfo) : Reader WrappedExtra := parseWrapped (parseContent ver)

/-- The id byte and the body. -/
def content (ver : VersionInfo) (e : Extra) : Bytes := e.getID :: e.serialize ver

def serialize (ver : VersionInfo) (x : WrappedExtra) : Bytes := serializeWrapped (content ver x.d)

end WrappedExtra

/-! ## The deprecated packet types -/

namespace PktType

def init : UInt8 := 1
def initAck : UInt8 := 2
def streamState : UInt8 := 3
def streamData : UInt8 := 4
def ping : UInt8 := 6
def pong : UInt8 := 7
def streamDataX2 : UInt8 := 8
def streamDataX3 : UInt8 := 9
def lanEndpoint : UInt8 := 10
def networkChanged : UInt8 := 11
def nop : UInt8 := 14
def streamEC : UInt8 := 17

end PktType

namespace Extra

def chooseFromType (type : UInt8) : Option ExtraKind :=
  if type = PktType.init then some .init
  else if type = PktType.initAck then some .initAck
  else if type = PktType.lanEndpoint then some .lanEndpoint
  else if type = PktType.networkChanged then some .networkChanged
  else if type = PktType.ping then some .ping
  else if type = PktType.pong then some .pong
  else if type = PktType.streamState then some .streamFlags
  else none

def chooseType (e : Extra) (peerVersion : Int) : UInt8 :=
  match e.kind with
  | .init => PktType.init
  | .initAck => PktType.initAck
  | .ping => PktType.ping
  | .pong => PktType.pong
  | .lanEndpoint => if peerVersion < 6 then PktType.lanEndpoint else PktType.nop
  | .networkChanged => if peerVersion < 6 then PktType.networkChanged else PktType.nop
  | .streamFlags => if peerVersion < 6 then PktType.streamState else PktType.nop
  | _ => PktType.nop

/-- An extra sent in a packet of its own type is parsed as its own kind. -/
theorem chooseFromType_chooseType (e : Extra) (peerVersion : Int)
    (h : e.chooseType peerVersion ≠ PktType.nop) :
    chooseFromType (e.chooseType peerVersion) = some e.kind := by
  by_cases hv : peerVersion < 6
  · cases e <;> simp only [chooseType, kind, hv, if_true, ne_eq, not_true_eq_false] at h ⊢ <;> rfl
  · cases e <;> simp only [chooseType, kind, hv, if_false, ne_eq, not_true_eq_false] at h ⊢ <;> rfl

end Extra

end Tgvoip
