import Tgvoip.Lib.ObjectParser
import Tgvoip.Protocol.Extra

/-!
# Packet — a packet and the new wire format

`controller/protocol/packets/PacketStructs.{h,cpp}`. The new format puts
two flag sets into a packet: `Flags` share the first byte with the short
stream id, `EFlags` share the 16-bit length.

A packet that is being parsed (`IncomingPacket`) also collects the
packets that came with it. It is an object under construction: a parser
that fails leaves the fields it had read. `clear`, between two attempts
on the same bytes, resets only some of them.

A buffer is allocated before it is read into; `fresh n` stands for the
contents of a new buffer of `n` bytes.
-/

namespace Tgvoip

open ByteReader ObjectParser

namespace StreamId

def signaling : UInt8 := 0
def audio : UInt8 := 1
def video : UInt8 := 2
def extended : UInt8 := 3

end StreamId

structure Packet where
  legacy : Bool := false
  legacySeq : UInt32 := 0
  seq : UInt32 := 0
  ackSeq : UInt32 := 0
  ackMask : UInt32 := 0
  streamId : UInt8 := 0
  eFlags : UInt8 := 0
  fragmentIndex : UInt8 := 0
  fragmentCount : UInt8 := 1
  recvTS : UInt32 := 0
  data : Option Bytes := none
  extraEC : Entries := Entries.none
  extraSignaling : List WrappedExtra := []
  deriving DecidableEq

structure IncomingPacket extends Packet where
  otherPackets : List Packet := []
  deriving DecidableEq

namespace Packet

namespace Flags

def len16 : UInt8 := 1
def recvTS : UInt8 := 2
def extraEC : UInt8 := 4
def extraSignaling : UInt8 := 8
def reserved : UInt8 := 16

end Flags

namespace EFlags

def fragmented : UInt8 := 1
def keyframe : UInt8 := 2

end EFlags

/-- The contents of the data buffer, empty if there is none. -/
def contents (p : Packet) : Bytes := p.data.getD []

/-- The first byte's flags. -/
def flags (p : Packet) : UInt8 :=
  Flags.reserved |||
    (if p.contents.length > 0xFF || p.eFlags != 0 then Flags.len16 else 0) |||
    (if p.recvTS != 0 then Flags.recvTS else 0) |||
    (if p.extraEC.any then Flags.extraEC else 0) |||
    (if !p.extraSignaling.isEmpty then Flags.extraSignaling else 0)

def shortStreamId (p : Packet) : UInt8 :=
  if p.streamId > StreamId.extended then StreamId.extended else p.streamId

def serialize (ver : VersionInfo) (p : Packet) : Bytes :=
  [p.shortStreamId ||| (p.flags <<< 2)] ++ (le32 p.seq ++ (le32 p.ackSeq ++ (le32 p.ackMask ++
    ((if p.shortStreamId = StreamId.extended then [p.streamId] else []) ++
    ((if p.flags &&& Flags.len16 ≠ 0 then
        le16 (UInt16.ofNat p.contents.length ||| (p.eFlags.toUInt16 <<< 11))
      else [UInt8.ofNat p.contents.length]) ++
    (p.contents ++
    ((if p.flags &&& Flags.recvTS ≠ 0 then le32 p.recvTS else []) ++
    ((if p.flags &&& Flags.extraEC ≠ 0 then serializeMask p.extraEC else []) ++
    (if p.flags &&& Flags.extraSignaling ≠ 0 then
      serializeArray (WrappedExtra.serialize ver) p.extraSignaling else [])))))))))

end Packet

namespace IncomingPacket

/-- What `clear` resets. -/
def clear (p : IncomingPacket) : IncomingPacket :=
  { p with
    seq := 0, ackSeq := 0, ackMask := 0, streamId := 0, data := none, recvTS := 0
    legacy := false, extraEC := Entries.none, extraSignaling := [] }

end IncomingPacket

/-- Allocate a buffer and read into it. -/
def readData {σ : Type} (fresh : ℕ → Bytes) (n : ℕ) (set : Bytes → σ → σ) : Parse σ Unit := do
  edit (set (fresh n))
  field (bytes n) set

theorem fills_readData {σ : Type} (fresh : ℕ → Bytes) (d : Bytes) (set : Bytes → σ → σ) (o : σ) :
    Fills (readData fresh d.length set) d () o (set d (set (fresh d.length) o)) :=
  Fills.edit_bind (Fills.field (decodes_bytes d) _)

namespace IncomingPacket

open Packet

/-- The length field: 16 bits, or 8. -/
def parseLength (len16 : Bool) : Reader UInt16 := if len16 then u16 else UInt8.toUInt16 <$> u8

/-- `Packet::parse` for a new version. -/
def parseNew (fresh : ℕ → Bytes) (ver : VersionInfo) : Parse IncomingPacket Unit := do
  let first ← tryRead u8
  field u32 fun x p => { p with seq := x }
  field u32 fun x p => { p with ackSeq := x }
  field u32 fun x p => { p with ackMask := x }
  edit fun p => { p with streamId := first &&& 3 }
  let flags := first >>> 2
  refuseIf (flags &&& Flags.reserved == 0)
  onlyIf (first &&& 3 == StreamId.extended) (field u8 fun x p => { p with streamId := x })
  let lengthField ← tryRead (parseLength (flags &&& Flags.len16 != 0))
  let eFlags := (lengthField >>> 11).toUInt8
  edit fun p => { p with eFlags := eFlags }
  let length := lengthField &&& 0x7FF
  onlyIf (eFlags &&& EFlags.fragmented != 0) do
    field u8 fun x p => { p with fragmentCount := x }
    field u8 fun x p => { p with fragmentIndex := x }
  onlyIf (length != 0) (readData fresh length.toNat fun d p => { p with data := some d })
  onlyIf (flags &&& Flags.recvTS != 0) (field u32 fun x p => { p with recvTS := x })
  onlyIf (flags &&& Flags.extraEC != 0)
    (field parseMask fun v p => { p with extraEC := v.writtenOver p.extraEC })
  onlyIf (flags &&& Flags.extraSignaling != 0)
    (field (parseArray (WrappedExtra.parse ver)) fun xs p =>
      { p with extraSignaling := p.extraSignaling ++ xs })

end IncomingPacket

end Tgvoip
