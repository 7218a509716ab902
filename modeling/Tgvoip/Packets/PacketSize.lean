import Tgvoip.Packets.PacketRoundTrip

/-!
# PacketSize — the size an object predicts, and the bytes it writes

Every `Serializable` of `controller/protocol/protocol` has beside its
`serialize` a `getSize`, so that a buffer can be allocated before the
object is written. The objects are built from five leaves with `Wrapped`
and `Array`; `Kind` names them, `Kind.Obj` is the type of the object.

The two agree up to a shortfall: what was written and not predicted
(`length_serialize`). There are three causes: `Codec::getSize` does not
know that a new format has wide codecs, and `Packet::getSize` leaves out
the data and the long form of the stream id 3.

`Wrapped` and `Bytes` hold a pointer; here they hold what it points to.
-/

namespace Tgvoip

open ByteReader

/-! ## getSize -/

def getSizeWrapped (size : ℕ) : ℕ := 1 + size

def getSizeArray {α : Type} (getSize : α → ℕ) (v : List α) : ℕ :=
  v.foldl (fun res data => res + getSize data) 1

/-- `Mask<Wrapped<Bytes>>::getSize`. -/
def getSizeMask (v : Entries) : ℕ :=
  (List.finRange 8).foldl
    (fun res i => if v.has i then res + getSizeWrapped ((v i).getD []).length else res) 1

def Codec.getSize (ver : VersionInfo) (_ : UInt32) : ℕ := if ver.peerVersion ≥ 5 then 4 else 1

/-- The fields' `sizeof`: stream id, type, frame duration, enabled. -/
def ExtraStreamInfo.getSize (ver : VersionInfo) (s : ExtraStreamInfo) : ℕ :=
  1 + 1 + Codec.getSize ver s.codec + 2 + 1

namespace Extra

def getConstructorSize (ver : VersionInfo) : Extra → ℕ
  | streamFlags _ => if ver.isNew then 1 + 1 else if ver.peerVersion ≥ 6 then 1 + 4 else 1 + 1
  | streamCsd d => 1 + 2 + 2 + getSizeArray (fun b => getSizeWrapped b.length) d.data
  | lanEndpoint _ => 4 + if ver.isNew then 2 else 4
  | networkChanged _ => if ver.isNew then 1 else 4
  | groupCallKey d => d.key.length
  | groupCallUpgrade => 0
  | ipv6Endpoint _ => 16 + 2
  | init d => 4 + 4 + (if ver.isNew then 1 else 4) +
      if ver.connectionMaxLayer < 74 then 11
      else getSizeArray (Codec.getSize ver) d.audioCodecs + getSizeArray (fun _ => 4) d.decoders + 1
  | initAck d => 4 + 4 + getSizeArray (ExtraStreamInfo.getSize ver) d.streams
  | ping => 0
  | pong _ => 4

/-- With the constructor byte. -/
def getSize (ver : VersionInfo) (e : Extra) : ℕ := 1 + e.getConstructorSize ver

end Extra

def Packet.getSize (ver : VersionInfo) (p : Packet) : ℕ :=
  if !ver.isNew then 0
  else 4 + 4 + 4 + 1 +
    (if p.streamId > StreamId.extended then 1 else 0) +
    (if p.contents.length > 0xFF || p.eFlags != 0 then 2 else 1) +
    (if p.recvTS != 0 then 4 else 0) +
    (if p.extraEC.any then getSizeMask p.extraEC else 0) +
    (if !p.extraSignaling.isEmpty then
      getSizeArray (fun x => getSizeWrapped (x.d.getSize ver)) p.extraSignaling else 0)

/-! ## The objects -/

/-- The `Serializable` types of the format, at any nesting. -/
inductive Kind where
  | codec | uint32 | bytes | streamInfo | extra | mask
  | wrapped (content : Kind)
  | array (element : Kind)

namespace Kind

@[reducible] def Obj : Kind → Type
  | codec => UInt32
  | uint32 => UInt32
  | bytes => Bytes
  | streamInfo => ExtraStreamInfo
  | extra => Extra
  | mask => Entries
  | wrapped k => k.Obj
  | array k => List k.Obj

/-- `choose`, which only an extra has, and `serialize`. -/
def serialize (ver : VersionInfo) : (k : Kind) → k.Obj → Bytes
  | codec, c => Codec.serialize ver c
  | uint32, x => le32 x
  | bytes, data => data
  | streamInfo, s => s.serialize ver
  | extra, e => WrappedExtra.content ver e
  | mask, v => serializeMask v
  | wrapped k, d => serializeWrapped (k.serialize ver d)
  | array k, v => serializeArray (k.serialize ver) v

def getSize (ver : VersionInfo) : (k : Kind) → k.Obj → ℕ
  | codec, c => Codec.getSize ver c
  | uint32, _ => 4
  | bytes, data => data.length
  | streamInfo, s => s.getSize ver
  | extra, e => e.getSize ver
  | mask, v => getSizeMask v
  | wrapped k, d => getSizeWrapped (k.getSize ver d)
  | array k, v => getSizeArray (k.getSize ver) v

end Kind

/-! ## What is not predicted -/

/-- The codecs are as narrow as `Codec::getSize` takes them for. -/
def CodecsCounted (ver : VersionInfo) : Prop := ver.isNew = true → 5 ≤ ver.peerVersion

instance (ver : VersionInfo) : Decidable (CodecsCounted ver) :=
  inferInstanceAs (Decidable (_ → _))

/-- The codecs that an extra writes one by one. -/
def Extra.codecs : Extra → ℕ
  | init d => d.audioCodecs.length
  | initAck d => d.streams.length
  | _ => 0

namespace Kind

/-- The objects whose size is predicted: the codecs are counted, or there
are none. -/
def Counted (ver : VersionInfo) : (k : Kind) → k.Obj → Prop
  | codec, _ => CodecsCounted ver
  | streamInfo, _ => CodecsCounted ver
  | extra, e => CodecsCounted ver ∨ e.codecs = 0
  | wrapped k, d => k.Counted ver d
  | array k, v => ∀ d ∈ v, k.Counted ver d
  | _, _ => True

/-- The bytes that are written and not predicted. -/
def shortfall (ver : VersionInfo) : (k : Kind) → k.Obj → ℕ
  | codec, _ => if CodecsCounted ver then 0 else 3
  | streamInfo, _ => if CodecsCounted ver then 0 else 3
  | extra, e => e.codecs * if CodecsCounted ver then 0 else 3
  | wrapped k, d => k.shortfall ver d
  | array k, v => (v.map (k.shortfall ver)).sum
  | _, _ => 0

end Kind

variable {ver : VersionInfo}

theorem Kind.shortfall_eq_zero_iff (k : Kind) (o : k.Obj) :
    k.shortfall ver o = 0 ↔ k.Counted ver o := by
  induction k with
  | codec => simp [shortfall, Counted]
  | uint32 => simp [shortfall, Counted]
  | bytes => simp [shortfall, Counted]
  | streamInfo => simp [shortfall, Counted]
  | extra =>
      by_cases hcounted : CodecsCounted ver <;> simp [shortfall, Counted, hcounted]
  | mask => simp [shortfall, Counted]
  | wrapped k ih => exact ih o
  | array k ih =>
      rw [shortfall, List.sum_eq_zero_iff]
      simp [Counted, ih]

/-! ## The sums -/

theorem getSizeArray_eq {α : Type} (size : α → ℕ) (v : List α) :
    getSizeArray size v = 1 + (v.map size).sum := by
  have hgen : ∀ n, v.foldl (fun res data => res + size data) n = n + (v.map size).sum := by
    induction v with
    | nil => simp
    | cons a v ih =>
        intro n
        rw [List.foldl_cons, ih, List.map_cons, List.sum_cons, Nat.add_assoc]
  exact hgen 1

/-- An array is short by what its elements are short by. -/
theorem length_serializeArray_eq {α : Type} {enc : α → Bytes} (size short : α → ℕ) {v : List α}
    (h : ∀ a ∈ v, (enc a).length = size a + short a) :
    (serializeArray enc v).length = getSizeArray size v + (v.map short).sum := by
  rw [length_serializeArray, getSizeArray_eq, List.map_congr_left h, List.sum_map_add]
  omega

theorem length_serializeMask (v : Entries) : (serializeMask v).length = getSizeMask v := by
  have hgen : ∀ (is : List (Fin 8)) (n : ℕ),
      n + (is.flatMap fun i => if v.has i then serializeBytes ((v i).getD []) else []).length =
        is.foldl (fun res i => if v.has i then res + getSizeWrapped ((v i).getD []).length else res)
          n := by
    intro is
    induction is with
    | nil => simp
    | cons i is ih =>
        intro n
        rw [List.flatMap_cons, List.length_append, List.foldl_cons, ← ih, ← Nat.add_assoc]
        by_cases hv : v.has i = true
        · simp only [if_pos hv, serializeBytes, serializeWrapped, List.length_cons, getSizeWrapped]
          omega
        · simp only [if_neg hv, List.length_nil, Nat.add_zero]
  rw [serializeMask, List.length_cons, Nat.add_comm]
  exact hgen _ 1

/-! ## The objects' sizes -/

theorem Codec.size_eq (codec : UInt32) :
    Codec.size ver = Codec.getSize ver codec + if CodecsCounted ver then 0 else 3 := by
  simp only [Codec.size, Codec.getSize, CodecsCounted, ge_iff_le]
  by_cases hpeer : 5 ≤ ver.peerVersion
  · simp [hpeer]
  · by_cases hnew : ver.isNew = true <;> simp [hpeer, hnew]

theorem ExtraStreamInfo.length_serialize_eq (s : ExtraStreamInfo) :
    (s.serialize ver).length = s.getSize ver + if CodecsCounted ver then 0 else 3 := by
  rw [ExtraStreamInfo.length_serialize, Codec.size_eq s.codec, ExtraStreamInfo.getSize]
  omega

/-- A new format of an old peer has a layer that writes the codecs one by
one. -/
theorem codecsCounted_of_layer (hl : ver.connectionMaxLayer < 74) : CodecsCounted ver := by
  intro hnew
  have hnew' : 10 ≤ ver.peerVersion ∨ 110 ≤ ver.connectionMaxLayer := by
    simpa [VersionInfo.isNew, protocolReliable] using hnew
  omega

theorem ExtraInit.length_serialize_eq (d : ExtraInit) :
    (d.serialize ver).length = (Extra.init d).getConstructorSize ver +
      d.audioCodecs.length * if CodecsCounted ver then 0 else 3 := by
  have hflags : (if ver.isNew = true then [d.flags] else le32 d.flags.toUInt32).length =
      if ver.isNew = true then 1 else 4 := by
    split <;> rfl
  rw [ExtraInit.serialize, Extra.getConstructorSize]
  simp only [List.length_append, length_le32, hflags]
  by_cases hl : ver.connectionMaxLayer < 74
  · rw [if_pos hl, if_pos hl, if_pos (codecsCounted_of_layer hl)]
    simp only [List.length_append, length_le32, List.length_cons, List.length_nil]
    omega
  · have hcodecs : (serializeArray (Codec.serialize ver) d.audioCodecs).length = _ :=
      length_serializeArray_eq _ _ fun c _ => (Codec.length_serialize c).trans (Codec.size_eq c)
    have hdecoders : (serializeArray le32 d.decoders).length = _ :=
      length_serializeArray_eq _ (fun _ => 0) fun x _ => length_le32 x
    rw [if_neg hl, if_neg hl, List.length_append, List.length_append, hcodecs, hdecoders,
      List.length_singleton, List.map_const', List.map_const', List.sum_replicate_nat,
      List.sum_replicate_nat]
    omega

theorem ExtraInitAck.length_serialize_eq (d : ExtraInitAck) :
    (d.serialize ver).length = (Extra.initAck d).getConstructorSize ver +
      d.streams.length * if CodecsCounted ver then 0 else 3 := by
  have hstreams : (serializeArray (ExtraStreamInfo.serialize ver) d.streams).length = _ :=
    length_serializeArray_eq _ _ fun s _ => s.length_serialize_eq
  rw [ExtraInitAck.serialize, Extra.getConstructorSize]
  simp only [List.length_append, length_le32, hstreams, List.map_const',
    List.sum_replicate_nat]
  omega

theorem ExtraStreamCsd.length_serialize_eq (ver : VersionInfo) (d : ExtraStreamCsd) :
    (d.serialize ver).length = (Extra.streamCsd d).getConstructorSize ver := by
  have hdata : (serializeArray serializeBytes d.data).length = _ :=
    length_serializeArray_eq (fun b => getSizeWrapped b.length) (fun _ => 0)
      fun b _ => Nat.add_comm _ _
  rw [ExtraStreamCsd.serialize, Extra.getConstructorSize]
  simp only [List.length_append, length_le16, List.length_singleton, hdata, List.map_const',
    List.sum_replicate_nat]
  omega

/-- The constructor byte, and the body of each of the eleven kinds. -/
theorem Extra.length_content (e : Extra) :
    (WrappedExtra.content ver e).length =
      e.getSize ver + e.codecs * if CodecsCounted ver then 0 else 3 := by
  have hbody : (e.serialize ver).length =
      e.getConstructorSize ver + e.codecs * if CodecsCounted ver then 0 else 3 := by
    cases e with
    | streamFlags d =>
        simp only [serialize, ExtraStreamFlags.serialize, getConstructorSize, codecs]
        split
        · simp
        · split <;> simp
    | streamCsd d =>
        have hcodecs : (streamCsd d).codecs = 0 := rfl
        rw [hcodecs, Nat.zero_mul]
        exact d.length_serialize_eq ver
    | lanEndpoint d =>
        simp only [serialize, ExtraLanEndpoint.serialize, getConstructorSize, codecs]
        split <;> simp
    | networkChanged d =>
        simp only [serialize, ExtraNetworkChanged.serialize, getConstructorSize, codecs]
        split <;> simp
    | groupCallKey d => simp [serialize, ExtraGroupCallKey.serialize, getConstructorSize, codecs]
    | groupCallUpgrade => simp [serialize, getConstructorSize, codecs]
    | ipv6Endpoint d =>
        simp [serialize, ExtraIpv6Endpoint.serialize, getConstructorSize, codecs,
          d.address.property]
    | init d => exact d.length_serialize_eq
    | initAck d => exact d.length_serialize_eq
    | ping => simp [serialize, getConstructorSize, codecs]
    | pong d => simp [serialize, ExtraPong.serialize, getConstructorSize, codecs]
  rw [WrappedExtra.content, List.length_cons, hbody, Extra.getSize]
  omega

/-- **What is written is what is predicted and the shortfall**, at every
nesting. -/
theorem Kind.length_serialize (k : Kind) (o : k.Obj) :
    (k.serialize ver o).length = k.getSize ver o + k.shortfall ver o := by
  induction k with
  | codec => exact (Codec.length_serialize o).trans (Codec.size_eq o)
  | uint32 => exact length_le32 o
  | bytes => rfl
  | streamInfo => exact o.length_serialize_eq
  | extra => exact o.length_content
  | mask => exact length_serializeMask o
  | wrapped k ih =>
      show (k.serialize ver o).length + 1 = 1 + k.getSize ver o + k.shortfall ver o
      rw [ih]
      omega
  | array k ih => exact length_serializeArray_eq _ _ fun d _ => ih d

/-! ## The packet -/

namespace Packet

/-- The announced fields, by the flags that announce them. -/
theorem flags_spec (p : Packet) :
    (p.flags &&& Flags.len16 ≠ 0 ↔ p.contents.length > 0xFF ∨ p.eFlags ≠ 0) ∧
      (p.flags &&& Flags.recvTS ≠ 0 ↔ p.recvTS ≠ 0) ∧
      (p.flags &&& Flags.extraEC ≠ 0 ↔ p.extraEC.any = true) ∧
      (p.flags &&& Flags.extraSignaling ≠ 0 ↔ (!p.extraSignaling.isEmpty) = true) := by
  obtain ⟨-, -, hlen, hts, hec, hsig⟩ := flagsOf_spec
    (p.contents.length > 0xFF || p.eFlags != 0) (p.recvTS != 0) p.extraEC.any
    (!p.extraSignaling.isEmpty)
  rw [← flags_eq] at hlen hts hec hsig
  refine ⟨?_, ?_, ?_, ?_⟩
  · rw [← bne_iff_ne, hlen]
    simp
  · rw [← bne_iff_ne, hts]
    simp
  · rw [← bne_iff_ne, hec]
  · rw [← bne_iff_ne, hsig]

/-- The bytes that are written and not predicted: the data, the long form
of the last short stream id, and what the extras are short by. -/
def shortfall (ver : VersionInfo) (p : Packet) : ℕ :=
  p.contents.length + (if p.streamId = StreamId.extended then 1 else 0) +
    (p.extraSignaling.map fun x => Kind.extra.shortfall ver x.d).sum

/-- The packets whose size is predicted. -/
structure Counted (ver : VersionInfo) (p : Packet) : Prop where
  data : p.contents = []
  streamId : p.streamId ≠ StreamId.extended
  extras : ∀ x ∈ p.extraSignaling, Kind.extra.Counted ver x.d

theorem shortfall_eq_zero_iff (p : Packet) : p.shortfall ver = 0 ↔ p.Counted ver := by
  rw [shortfall, Nat.add_eq_zero_iff, Nat.add_eq_zero_iff, List.sum_eq_zero_iff]
  constructor
  · rintro ⟨⟨hdata, hid⟩, hextras⟩
    refine ⟨List.length_eq_zero_iff.mp hdata, by simpa using hid, fun x hx => ?_⟩
    exact (Kind.shortfall_eq_zero_iff .extra x.d).mp (hextras _ (List.mem_map_of_mem hx))
  · rintro ⟨hdata, hid, hextras⟩
    refine ⟨⟨List.length_eq_zero_iff.mpr hdata, if_neg hid⟩, ?_⟩
    rw [List.forall_mem_map]
    exact fun x hx => (Kind.shortfall_eq_zero_iff .extra x.d).mpr (hextras x hx)

/-- The stream id is written in full from 3 on, and predicted from 4 on. -/
theorem length_streamId (p : Packet) :
    (if p.shortStreamId = StreamId.extended then [p.streamId] else []).length =
      (if p.streamId > StreamId.extended then 1 else 0) +
        if p.streamId = StreamId.extended then 1 else 0 := by
  unfold shortStreamId
  by_cases hgt : p.streamId > StreamId.extended
  · have hne : p.streamId ≠ StreamId.extended := fun h => by simp [h] at hgt
    simp [hgt, hne]
  · by_cases heq : p.streamId = StreamId.extended <;> simp [hgt, heq]

theorem length_serialize (hnew : ver.isNew = true) (p : Packet) :
    (p.serialize ver).length = p.getSize ver + p.shortfall ver := by
  obtain ⟨hlen, hts, hec, hsig⟩ := p.flags_spec
  have hlength : (if p.flags &&& Flags.len16 ≠ 0 then
        le16 (UInt16.ofNat p.contents.length ||| (p.eFlags.toUInt16 <<< 11))
      else [UInt8.ofNat p.contents.length]).length =
      if p.contents.length > 0xFF || p.eFlags != 0 then 2 else 1 := by
    by_cases h : p.contents.length > 0xFF ∨ p.eFlags ≠ 0
    · rw [if_pos (hlen.mpr h), if_pos (by simpa using h), length_le16]
    · rw [if_neg (mt hlen.mp h), if_neg (by simpa using h), List.length_singleton]
  have hrecvTS : (if p.flags &&& Flags.recvTS ≠ 0 then le32 p.recvTS else []).length =
      if p.recvTS != 0 then 4 else 0 := by
    by_cases h : p.recvTS ≠ 0
    · rw [if_pos (hts.mpr h), if_pos (by simpa using h), length_le32]
    · rw [if_neg (mt hts.mp h), if_neg (by simpa using h), List.length_nil]
  have hmask : (if p.flags &&& Flags.extraEC ≠ 0 then serializeMask p.extraEC else []).length =
      if p.extraEC.any then getSizeMask p.extraEC else 0 := by
    by_cases h : p.extraEC.any = true
    · rw [if_pos (hec.mpr h), if_pos h, length_serializeMask]
    · rw [if_neg (mt hec.mp h), if_neg h, List.length_nil]
  have hextras : (if p.flags &&& Flags.extraSignaling ≠ 0 then
        serializeArray (WrappedExtra.serialize ver) p.extraSignaling else []).length =
      (if !p.extraSignaling.isEmpty then
        getSizeArray (fun x => getSizeWrapped (x.d.getSize ver)) p.extraSignaling else 0) +
        (p.extraSignaling.map fun x => Kind.extra.shortfall ver x.d).sum := by
    by_cases h : (!p.extraSignaling.isEmpty) = true
    · rw [if_pos (hsig.mpr h), if_pos h]
      exact length_serializeArray_eq _ _ fun x _ => Kind.length_serialize (.wrapped .extra) x.d
    · have hnil : p.extraSignaling = [] := by simpa using h
      rw [if_neg (mt hsig.mp h), if_neg h, hnil]
      rfl
  rw [serialize, getSize, hnew, shortfall]
  simp only [List.length_append, List.length_singleton, length_le32, length_streamId, hlength,
    hrecvTS, hmask, hextras, Bool.not_true, Bool.false_eq_true, if_false]
  omega

end Packet

/-! ## Which sizes are predicted -/

/-- **Sizes.** Under a new version the predicted size of a packet is what
it writes exactly if it has no data, its stream id is not 3, and its
extras are counted; and that of any other object, under any version,
exactly if the object is counted. -/
theorem getSize_eq_written_iff (ver : VersionInfo) :
    (ver.isNew = true → ∀ p : Packet,
      p.getSize ver = (p.serialize ver).length ↔ p.Counted ver) ∧
    ∀ (k : Kind) (o : k.Obj), k.getSize ver o = (k.serialize ver o).length ↔ k.Counted ver o := by
  constructor
  · intro hnew p
    rw [p.length_serialize hnew, ← p.shortfall_eq_zero_iff]
    omega
  · intro k o
    rw [k.length_serialize, ← k.shortfall_eq_zero_iff]
    omega

/-- A packet that only acknowledges, with a pong for the peer. -/
theorem getSize_eq_written_pong :
    Packet.getSize ⟨10, 110⟩ { extraSignaling := [⟨.pong {}, none⟩] } =
      (Packet.serialize ⟨10, 110⟩ { extraSignaling := [⟨.pong {}, none⟩] }).length :=
  ((getSize_eq_written_iff ⟨10, 110⟩).1 rfl _).mpr
    ⟨rfl, by decide, by simp [Kind.Counted, Extra.codecs]⟩

/-- A byte of data is not predicted, nor the stream id 3, nor the width of
a codec of an old peer on a new layer. -/
theorem getSize_mispredicts :
    ¬ ((∀ ver : VersionInfo, ver.isNew = true → ∀ p : Packet, p.contents.length ≤ 0x7FF →
          p.getSize ver = (p.serialize ver).length) ∧
        ∀ (ver : VersionInfo) (k : Kind) (o : k.Obj),
          k.getSize ver o = (k.serialize ver o).length) ∧
      Packet.getSize ⟨10, 110⟩ { data := some [0] } ≠
        (Packet.serialize ⟨10, 110⟩ { data := some [0] }).length ∧
      Packet.getSize ⟨10, 110⟩ { streamId := 3 } ≠
        (Packet.serialize ⟨10, 110⟩ { streamId := 3 }).length ∧
      Kind.getSize ⟨4, 110⟩ (.array .codec) [Codec.opus] ≠
        (Kind.serialize ⟨4, 110⟩ (.array .codec) [Codec.opus]).length := by
  have hdata : Packet.getSize ⟨10, 110⟩ { data := some [0] } ≠
      (Packet.serialize ⟨10, 110⟩ { data := some [0] }).length := by
    decide
  refine ⟨fun h => hdata (h.1 _ rfl _ (by decide)), hdata, ?_, ?_⟩ <;> decide

end Tgvoip
