import Tgvoip.Packets.Packet

/-!
# Legacy — the two older wire formats

`controller/protocol/packets/Legacy.cpp`. A legacy packet has a type; one
packet of the new kind is sent as several legacy ones: each extra that
has a packet type of its own, the redundant frames, the data, or a NOP if
there is none of these. The remaining extras ride in every header.

`parseLegacy` reads both formats; they differ in the header. The header
of the oldest one (`parseLegacyLegacy`) is read with `ReadByte`,
`ReadUInt32`, `ReadTlLength` and `Seek`, which throw where bytes are
missing: the model's `read` crashes there.
-/

namespace Tgvoip

open ByteReader ObjectParser

/-! ## Constants -/

namespace Xpflag

/-- `XPFLAG_HAS_EXTRA`. -/
def hasExtra : UInt8 := 1

/-- `XPFLAG_HAS_RECV_TS`. -/
def hasRecvTS : UInt8 := 2

end Xpflag

namespace StreamData

def flagLen16 : UInt8 := 0x40
def xflagKeyframe : UInt16 := 0x8000
def xflagFragmented : UInt16 := 0x4000
def xflagExtraFEC : UInt16 := 0x2000

end StreamData

namespace LegacyPflag

def hasData : UInt32 := 1
def hasExtra : UInt32 := 2
def hasCallID : UInt32 := 4
def hasProto : UInt32 := 8
def hasSeq : UInt32 := 16
def hasRecentRecv : UInt32 := 32

end LegacyPflag

def tlidDecryptedAudioBlock : UInt32 := 0xDBF948C1
def tlidSimpleAudioBlock : UInt32 := 0xCC0D0E76

/-- `PROTOCOL_NAME`: "GrVP" in little endian. -/
def protocolName : UInt32 := 0x50567247

/-- The padding of a TL byte string of length `x`. -/
def pad4 (x : ℕ) : ℕ :=
  let r := 4 - (x + if x ≤ 253 then 1 else 0) % 4
  if r = 4 then 0 else r

/-! ## Parsing -/

/-- `ReadTlLength`. -/
def tlLength : Reader UInt32 := do
  let l ← u8
  if l < 254 then pure l.toUInt32
  else do
    let a ← u8
    let b ← u8
    let c ← u8
    pure (a.toUInt32 ||| (b.toUInt32 <<< 8) ||| (c.toUInt32 <<< 16))

structure LegacyHeader where
  type : UInt8
  ackId : UInt32
  pseq : UInt32
  acks : UInt32
  pflags : UInt8
  deriving DecidableEq, Repr

namespace LegacyHeader

def parse : Reader LegacyHeader := do
  let type ← u8
  let ackId ← u32
  let pseq ← u32
  let acks ← u32
  let pflags ← u8
  pure { type, ackId, pseq, acks, pflags }

end LegacyHeader

variable {σ : Type}

/-- A TL byte string that nothing is done with: `Seek` behind it. -/
def skipString : Parse σ Unit := do
  let len ← read tlLength
  let _ ← read (bytes (len.toNat + pad4 len.toNat))
  pure ()

/-- The form a peer uses before the call is established. -/
def parseDecryptedAudioBlock : Parse σ LegacyHeader := do
  let _ ← read (bytes 8)
  skipString
  let flags ← read u32
  refuseIf (!(flags &&& LegacyPflag.hasSeq != 0 && flags &&& LegacyPflag.hasRecentRecv != 0))
  let ackId ← read u32
  let pseq ← read u32
  let acks ← read u32
  onlyIf (flags &&& LegacyPflag.hasProto != 0) do
    let proto ← read u32
    refuseIf (proto != protocolName)
  onlyIf (flags &&& LegacyPflag.hasExtra != 0) skipString
  onlyIf (flags &&& LegacyPflag.hasData != 0) do
    let _ ← read tlLength
    pure ()
  pure { type := (flags >>> 24).toUInt8, ackId, pseq, acks, pflags := 0 }

def parseSimpleAudioBlock (peerVersion : Int) : Parse σ LegacyHeader := do
  let _ ← read (bytes 8)
  skipString
  let _ ← read tlLength
  let type ← read u8
  let ackId ← read u32
  let pseq ← read u32
  let acks ← read u32
  let pflags ← read (if peerVersion ≥ 6 then u8 else pure 0)
  pure { type, ackId, pseq, acks, pflags }

def parseLegacyLegacy (peerVersion : Int) : Parse σ LegacyHeader := do
  let tlid ← read u32
  if tlid = tlidDecryptedAudioBlock then parseDecryptedAudioBlock
  else if tlid = tlidSimpleAudioBlock then parseSimpleAudioBlock peerVersion
  else reject

/-- A counted list of byte strings: the first eight fill entries. Of more
than eight, the loop that skips the rest counts down from `8 - count` in
eight bits. -/
def legacyEntries (set : Fin 8 → Bytes → σ → σ) (count : UInt8) : Parse σ Unit := do
  ((List.finRange 8).take count.toNat).forM fun i => field parseBytes (set i)
  let _ ← tryRead (times parseBytes (if count > 8 then (8 - count).toNat else 0))
  pure ()

namespace Packet

def setEntry (i : Fin 8) (b : Bytes) (p : Packet) : Packet :=
  { p with extraEC := Function.update p.extraEC i (some b) }

end Packet

namespace IncomingPacket

open Packet

/-- Edit the packet itself. -/
def onThis (f : Packet → Packet) (p : IncomingPacket) : IncomingPacket :=
  { p with toPacket := f p.toPacket }

/-- Edit the newest of the packets that came along. -/
def onLast (f : Packet → Packet) (p : IncomingPacket) : IncomingPacket :=
  { p with otherPackets := p.otherPackets.modify (p.otherPackets.length - 1) f }

/-- The body of `PKT_STREAM_EC`, read by peer versions below 7. -/
def parseStreamEC : Parse IncomingPacket Unit := do
  field u8 fun x p => { p with streamId := x }
  field u32 fun x p => { p with seq := x }
  let count ← tryRead u8
  -- the wire has the timestamp of a 60 ms frame, and seqs start at 1
  edit fun p => { p with seq := p.seq / 60 + 1 }
  legacyEntries (fun i b => onThis (setEntry i b)) count

/-- One frame of `PKT_STREAM_DATA`, into the packet that `on` edits. -/
def parseFrame (fresh : ℕ → Bytes) (on : (Packet → Packet) → IncomingPacket → IncomingPacket) :
    Parse IncomingPacket Unit := do
  let flags ← tryRead u8
  let len ← tryRead (parseLength (flags &&& StreamData.flagLen16 != 0))
  field u32 fun x => on fun p => { p with seq := x }
  edit (on fun p => { p with streamId := flags &&& 0x3F, seq := p.seq / 60 + 1 })
  onlyIf (len &&& StreamData.xflagFragmented != 0) do
    edit (on fun p => { p with eFlags := p.eFlags ||| EFlags.fragmented })
    field u8 fun x => on fun p => { p with fragmentIndex := x }
    field u8 fun x => on fun p => { p with fragmentCount := x }
  onlyIf (len &&& StreamData.xflagKeyframe != 0)
    (edit (on fun p => { p with eFlags := p.eFlags ||| EFlags.keyframe }))
  readData fresh (len &&& 0x7FF).toNat fun d => on fun p => { p with data := some d }
  onlyIf (len &&& StreamData.xflagExtraFEC != 0) do
    let count ← tryRead u8
    legacyEntries (fun i b => on (setEntry i b)) count

/-- `n` frames: all but the last go to packets of their own. -/
def parseFrames (fresh : ℕ → Bytes) : ℕ → Parse IncomingPacket Unit
  | 0 => pure ()
  | 1 => parseFrame fresh onThis
  | n + 2 => do
    edit fun p => { p with otherPackets := p.otherPackets ++ [{ legacy := true }] }
    parseFrame fresh onLast
    parseFrames fresh (n + 1)

/-- What follows the header, by the packet's type. -/
def parseLegacyBody (fresh : ℕ → Bytes) (ver : VersionInfo) (type : UInt8) :
    Parse IncomingPacket Unit :=
  match Extra.chooseFromType type with
  | some k => field (Extra.parse ver k) fun d p =>
      { p with extraSignaling := p.extraSignaling ++ [{ d }], streamId := 0 }
  | none =>
    if type = PktType.streamEC then onlyIf (ver.peerVersion < 7) parseStreamEC
    else if type = PktType.streamData then parseFrames fresh 1
    else if type = PktType.streamDataX2 then parseFrames fresh 2
    else if type = PktType.streamDataX3 then parseFrames fresh 3
    else reject

def parseLegacyHeader (ver : VersionInfo) : Parse IncomingPacket LegacyHeader :=
  if ver.isLegacy then tryRead LegacyHeader.parse else parseLegacyLegacy ver.peerVersion

def parseLegacy (fresh : ℕ → Bytes) (ver : VersionInfo) : Parse IncomingPacket Unit := do
  edit fun p => { p with legacy := true }
  let h ← parseLegacyHeader ver
  edit fun p => { p with legacySeq := h.pseq, ackSeq := h.ackId, ackMask := h.acks }
  onlyIf (h.pflags &&& Xpflag.hasExtra != 0)
    (field (parseArray (WrappedExtra.parse ver)) fun xs p =>
      { p with extraSignaling := p.extraSignaling ++ xs })
  onlyIf (h.pflags &&& Xpflag.hasRecvTS != 0) (field u32 fun x p => { p with recvTS := x })
  parseLegacyBody fresh ver h.type

/-- `Packet::parse`. -/
def parse (fresh : ℕ → Bytes) (ver : VersionInfo) : Parse IncomingPacket Unit :=
  if ver.isNew then parseNew fresh ver else parseLegacy fresh ver

end IncomingPacket

/-! ## Serializing -/

/-- What the headers of the oldest format are filled with: the call's id,
whether the call is not established yet, and the random bytes drawn for
the packet of each seq. -/
structure HeaderContext where
  callID : Vector UInt8 16
  state : CallState
  random : UInt32 → Vector UInt8 15

/-- One of the legacy packets a packet is sent as. -/
inductive LegacyPart where
  | extra (e : Extra)
  | ec
  | data (d : Bytes)
  | nop
  deriving DecidableEq, Repr

namespace Packet

/-- The extras delivered as packets of their own type. -/
def separatePackets (ver : VersionInfo) (p : Packet) : List WrappedExtra :=
  p.extraSignaling.filter fun x => x.d.chooseType ver.peerVersion != PktType.nop

/-- The extras that ride in the headers. -/
def allowedExtras (ver : VersionInfo) (p : Packet) : List WrappedExtra :=
  p.extraSignaling.filter fun x => !(x.d.chooseType ver.peerVersion != PktType.nop)

/-- The mask as an array of eight, or nothing if all are empty. -/
def extraECArray (p : Packet) : List Bytes :=
  if p.extraEC.any then (List.finRange 8).map fun i => (p.extraEC i).getD [] else []

/-- The packets to serialize, in order. -/
def legacyParts (ver : VersionInfo) (p : Packet) : List LegacyPart :=
  let parts := (p.separatePackets ver).map (fun x => .extra x.d) ++
    ((if ver.peerVersion < 7 && p.extraEC.any then [.ec] else []) ++
      (p.data.map LegacyPart.data).toList)
  if parts.isEmpty then [.nop] else parts

def partType (ver : VersionInfo) : LegacyPart → UInt8
  | .extra e => e.chooseType ver.peerVersion
  | .ec => PktType.streamEC
  | .data _ => PktType.streamData
  | .nop => PktType.nop

/-- Whether the data packet carries the redundant frames too. -/
def hasExtraFEC (ver : VersionInfo) (p : Packet) : Bool := ver.peerVersion ≥ 7 && p.extraEC.any

def dataFlags (ver : VersionInfo) (p : Packet) (d : Bytes) : UInt8 :=
  if d.length > 255 || p.hasExtraFEC ver then StreamData.flagLen16 else 0

def partBody (ver : VersionInfo) (p : Packet) : LegacyPart → Bytes
  | .extra e => e.serialize ver
  | .ec => [p.streamId] ++ (le32 ((p.seq - 1) * 60) ++ serializeArray serializeBytes p.extraECArray)
  | .data d => [p.dataFlags ver d ||| 1] ++
      ((if p.dataFlags ver d &&& StreamData.flagLen16 ≠ 0 then
          le16 (UInt16.ofNat d.length |||
            (if p.hasExtraFEC ver then StreamData.xflagExtraFEC else 0))
        else [UInt8.ofNat d.length]) ++
      (le32 ((p.seq - 1) * 60) ++
      (d ++ if p.hasExtraFEC ver then serializeArray serializeBytes p.extraECArray else [])))
  | .nop => []

/-- Whether the packet is sent again until it is acknowledged. -/
def partReliable (ver : VersionInfo) : LegacyPart → Bool
  | .extra e => !(e.chooseType ver.peerVersion == PktType.ping ||
      e.chooseType ver.peerVersion == PktType.pong)
  | _ => false

def headerFlags (p : Packet) (extras : List WrappedExtra) : UInt8 :=
  (if extras.isEmpty then 0 else Xpflag.hasExtra) ||| (if p.recvTS != 0 then Xpflag.hasRecvTS else 0)

def writePacketHeaderLegacy (ver : VersionInfo) (p : Packet) (seq : UInt32) (type : UInt8)
    (extras : List WrappedExtra) : Bytes :=
  [type] ++ (le32 p.ackSeq ++ (le32 seq ++ (le32 p.ackMask ++ ([p.headerFlags extras] ++
    ((if !extras.isEmpty then serializeArray (WrappedExtra.serialize ver) extras else []) ++
    (if p.recvTS != 0 then le32 p.recvTS else []))))))

/-- The length of a TL byte string. -/
def tlLengthBytes (length : ℕ) : Bytes :=
  if length ≤ 253 then [UInt8.ofNat length]
  else [254, UInt8.ofNat length, UInt8.ofNat (length >>> 8), UInt8.ofNat (length >>> 16)]

def writePacketHeaderLegacyLegacy (ctx : HeaderContext) (ver : VersionInfo) (p : Packet)
    (seq : UInt32) (type : UInt8) (length : ℕ) (extras : List WrappedExtra) : Bytes :=
  let waiting := ctx.state == .waitInit || ctx.state == .waitInitAck
  let randomID := (ctx.random seq).toList.take 8
  let randBytes := (ctx.random seq).toList.drop 8
  le32 (if waiting then tlidDecryptedAudioBlock else tlidSimpleAudioBlock) ++
    (randomID ++ (([7] : Bytes) ++ (randBytes ++
      if waiting then
        let pflags := LegacyPflag.hasRecentRecv ||| LegacyPflag.hasSeq |||
          (if length > 0 then LegacyPflag.hasData else 0) |||
          (LegacyPflag.hasCallID ||| LegacyPflag.hasProto) ||| (type.toUInt32 <<< 24)
        le32 pflags ++ (ctx.callID.toList ++ (le32 p.ackSeq ++ (le32 seq ++ (le32 p.ackMask ++
          (le32 protocolName ++ if length > 0 then tlLengthBytes length else [])))))
      else
        tlLengthBytes (length + 13) ++ ([type] ++ (le32 p.ackSeq ++ (le32 seq ++ (le32 p.ackMask ++
          if ver.peerVersion ≥ 6 then
            if extras.isEmpty then [0]
            else [Xpflag.hasExtra] ++ serializeArray (WrappedExtra.serialize ver) extras
          else [])))))))

/-- One legacy packet: the header of the version, and the body. -/
def serializePart (ctx : HeaderContext) (ver : VersionInfo) (p : Packet) (seq : UInt32)
    (part : LegacyPart) : Bytes :=
  (if ver.isLegacyLegacy then
    p.writePacketHeaderLegacyLegacy ctx ver seq (partType ver part) (p.partBody ver part).length
      (p.allowedExtras ver)
  else p.writePacketHeaderLegacy ver seq (partType ver part) (p.allowedExtras ver)) ++
    p.partBody ver part

/-- Number and serialize the packets from `seq` on: the buffers with their
reliability, and the next seq. -/
def serializeParts (ctx : HeaderContext) (ver : VersionInfo) (p : Packet) :
    UInt32 → List LegacyPart → List (Bytes × Bool) × UInt32
  | seq, [] => ([], seq)
  | seq, part :: parts =>
    let rest := serializeParts ctx ver p (seq + 1) parts
    ((p.serializePart ctx ver seq part, partReliable ver part) :: rest.1, rest.2)

/-- `serializeLegacy`: the buffers, and what becomes of `legacySeq`. -/
def serializeLegacy (ctx : HeaderContext) (ver : VersionInfo) (p : Packet) :
    List (Bytes × Bool) × UInt32 :=
  p.serializeParts ctx ver p.legacySeq (p.legacyParts ver)

end Packet

end Tgvoip
