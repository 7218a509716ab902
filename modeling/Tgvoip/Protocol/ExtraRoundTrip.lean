import Mathlib.Algebra.Order.BigOperators.Group.List
import Mathlib.Algebra.Order.Group.Nat
import Tgvoip.Protocol.Extra

/-!
# ExtraRoundTrip — which extras survive the wire

`RoundTrips ver e`: the extra `e`, written as a `Wrapped` object and read
again under the same version, is rebuilt. The format itself loses some
values on purpose (`Representable` leaves them out). Of the rest, an
extra is rebuilt exactly when id and body fit the 8-bit length
(`wireSize`), and, for stream flags, when the parser takes the same
branch as the serializer (`FlagsKept`).
-/

namespace Tgvoip

open ByteReader

/-! ## Sizes -/

namespace Extra

/-- The bytes of the body, counted from the fields. -/
def bodySize (ver : VersionInfo) : Extra → ℕ
  | streamFlags _ => if ver.isNew then 2 else if ver.peerVersion ≥ 6 then 5 else 2
  | streamCsd d => 6 + (d.data.map fun b => 1 + b.length).sum
  | lanEndpoint _ => if ver.isNew then 6 else 8
  | networkChanged _ => if ver.isNew then 1 else 4
  | groupCallKey d => d.key.length
  | groupCallUpgrade => 0
  | ipv6Endpoint _ => 18
  | init d => 8 + (if ver.isNew then 1 else 4) +
      (1 + (d.audioCodecs.map fun _ => Codec.size ver).sum) +
      (1 + (d.decoders.map fun _ => 4).sum) + 1
  | initAck d => 8 + (1 + (d.streams.map fun _ => 5 + Codec.size ver).sum)
  | ping => 0
  | pong _ => 4

/-- The bytes behind the length byte: the id and the body. -/
def wireSize (ver : VersionInfo) (e : Extra) : ℕ := 1 + e.bodySize ver

end Extra

variable {ver : VersionInfo}

theorem Codec.length_serialize (codec : UInt32) :
    (Codec.serialize ver codec).length = Codec.size ver := by
  unfold Codec.serialize Codec.size
  split <;> rfl

theorem length_serializeArray {α : Type} (enc : α → Bytes) (v : List α) :
    (serializeArray enc v).length = 1 + (v.map fun a => (enc a).length).sum := by
  simp [serializeArray, List.length_flatMap, Nat.add_comm]

theorem ExtraStreamInfo.length_serialize (s : ExtraStreamInfo) :
    (s.serialize ver).length = 5 + Codec.size ver := by
  simp only [ExtraStreamInfo.serialize, List.length_append, List.length_singleton, length_le16,
    Codec.length_serialize]
  omega

/-- `bodySize` is the length of what is written, but for the fixed codec
lists that an `ExtraInit` has below layer 74. -/
theorem Extra.length_serialize (e : Extra) (hl : 74 ≤ ver.connectionMaxLayer ∨ e.kind ≠ .init) :
    (e.serialize ver).length = e.bodySize ver := by
  cases e with
  | streamFlags d =>
      simp only [Extra.serialize, ExtraStreamFlags.serialize, bodySize]
      split
      · rfl
      · split <;> rfl
  | streamCsd d =>
      simp only [Extra.serialize, ExtraStreamCsd.serialize, bodySize, List.length_append,
        length_le16, length_serializeArray, serializeBytes, serializeWrapped, List.length_cons,
        List.length_nil]
      have : (fun b : Bytes => b.length + 1) = fun b => 1 + b.length := by
        funext b
        omega
      rw [this]
      omega
  | lanEndpoint d =>
      simp only [Extra.serialize, ExtraLanEndpoint.serialize, bodySize]
      split <;> rfl
  | networkChanged d =>
      simp only [Extra.serialize, ExtraNetworkChanged.serialize, bodySize]
      split <;> rfl
  | groupCallKey d => rfl
  | groupCallUpgrade => rfl
  | ipv6Endpoint d =>
      simp [Extra.serialize, ExtraIpv6Endpoint.serialize, bodySize, d.address.property]
  | init d =>
      have hl' : ¬ ver.connectionMaxLayer < 74 := by
        rcases hl with hl | hl
        · omega
        · exact absurd rfl hl
      have hflags : (if ver.isNew = true then [d.flags] else le32 d.flags.toUInt32).length =
          if ver.isNew = true then 1 else 4 := by
        split <;> rfl
      simp only [Extra.serialize, ExtraInit.serialize, bodySize, hl', if_false, List.length_append,
        List.length_singleton, length_le32, length_serializeArray, Codec.length_serialize, hflags]
      omega
  | initAck d =>
      simp only [Extra.serialize, ExtraInitAck.serialize, bodySize, List.length_append,
        length_le32, length_serializeArray, ExtraStreamInfo.length_serialize]
      omega
  | ping => rfl
  | pong d => rfl

theorem ExtraInit.length_serialize_old (d : ExtraInit) (hl : ver.connectionMaxLayer < 74) :
    (d.serialize ver).length ≤ 23 := by
  simp only [ExtraInit.serialize, if_pos hl, List.length_append, length_le32, List.length_cons,
    List.length_nil]
  split <;> simp

/-! ## The stated losses -/

/-- The codecs the format can write. -/
def Codec.Representable (ver : VersionInfo) (codec : UInt32) : Prop :=
  ver.isNew = false → ver.peerVersion < 5 → codec = Codec.opus ∨ codec = 0

/-- The values the format does not lose on purpose: old versions know no
codec but Opus and no stream flag but `Enabled`; a group call key has 256
bytes. -/
def Extra.Representable (ver : VersionInfo) : Extra → Prop
  | .streamFlags d => ver.isNew = false → ver.peerVersion < 6 → d.flags = 0 ∨ d.flags = 1
  | .init d => ∀ c ∈ d.audioCodecs, Codec.Representable ver c
  | .initAck d => ∀ s ∈ d.streams, Codec.Representable ver s.codec
  | .groupCallKey d => d.key.length = 256
  | _ => True

/-- Stream flags of a new version with an old peer version are parsed as if
they were old. -/
def Extra.FlagsKept (ver : VersionInfo) : Extra → Prop
  | .streamFlags d => ver.isNew = true → ver.peerVersion < 6 → d.flags = 0 ∨ d.flags = 1
  | _ => True

/-! ## Bodies -/

theorem Codec.decodes {codec : UInt32} (h : Codec.Representable ver codec) :
    Decodes (Codec.parse ver) (Codec.serialize ver codec) codec := by
  unfold Codec.parse Codec.serialize
  split
  · exact decodes_u32 codec
  · rename_i hv
    simp only [Bool.or_eq_true, decide_eq_true_eq, not_or] at hv
    rcases h (by simpa using hv.2) (by omega) with rfl | rfl
    · exact (decodes_u8 1).last
    · exact (decodes_u8 0).last

theorem decodes_byte (isNew : Bool) (x : UInt8) :
    Decodes (byteOrWord isNew) (if isNew then [x] else le32 x.toUInt32) x := by
  cases isNew with
  | true => exact decodes_u8 x
  | false =>
      have h := (decodes_u32 x.toUInt32).map UInt32.toUInt8
      rwa [UInt8.toUInt8_toUInt32] at h

theorem decodes_port (isNew : Bool) (x : UInt16) :
    Decodes (shortOrWord isNew) (if isNew then le16 x else le32 x.toUInt32) x := by
  cases isNew with
  | true => exact decodes_u16 x
  | false =>
      have h := (decodes_u32 x.toUInt32).map UInt32.toUInt16
      rwa [UInt16.toUInt16_toUInt32] at h

theorem ExtraStreamInfo.decodes {s : ExtraStreamInfo} (h : Codec.Representable ver s.codec) :
    Decodes (ExtraStreamInfo.parse ver) (s.serialize ver) s := by
  have hen : ((if s.enabled then 1 else 0 : UInt8) != 0) = s.enabled := by
    cases s.enabled <;> rfl
  have hd : Decodes (ExtraStreamInfo.parse ver) (s.serialize ver)
      { s with enabled := (if s.enabled then 1 else 0 : UInt8) != 0 } :=
    (decodes_u8 s.streamId).bind ((decodes_u8 s.type).bind ((Codec.decodes h).bind
      ((decodes_u16 s.frameDuration).bind (decodes_u8 _).last)))
  rwa [hen] at hd

theorem ExtraStreamFlags.decodes {d : ExtraStreamFlags}
    (hrep : Extra.Representable ver (.streamFlags d)) (hkept : Extra.FlagsKept ver (.streamFlags d)) :
    Decodes (ExtraStreamFlags.parse ver) (d.serialize ver) d := by
  unfold ExtraStreamFlags.parse ExtraStreamFlags.serialize
  by_cases hv : ver.peerVersion < 6
  · have hflags : d.flags = 0 ∨ d.flags = 1 := by
      cases hn : ver.isNew with
      | true => exact hkept hn hv
      | false => exact hrep hn hv
    have hv' : ¬ ver.peerVersion ≥ 6 := by omega
    have hbyte : (if ver.isNew = true then [d.flags]
        else if ver.peerVersion ≥ 6 then le32 d.flags.toUInt32 else [d.flags &&& enabled])
        = [d.flags] := by
      rw [if_neg hv']
      split
      · rfl
      · rcases hflags with h | h <;> rw [h] <;> rfl
    have hval : (if (d.flags != 0) = true then enabled else 0) = d.flags := by
      rcases hflags with h | h <;> rw [h] <;> rfl
    rw [if_pos hv, hbyte]
    have hd := (decodes_u8 d.streamId).bind
      (f := fun streamId => u8 >>= fun flags =>
        Pure.pure ({ streamId, flags := if flags != 0 then enabled else 0 } : ExtraStreamFlags))
      (decodes_u8 d.flags).last
    rwa [hval] at hd
  · have hv' : ver.peerVersion ≥ 6 := by omega
    rw [if_neg hv, if_pos hv']
    exact (decodes_u8 d.streamId).bind (decodes_byte ver.isNew d.flags).last

/-- The counts and lengths behind a sum of at most 255 fit a byte. -/
theorem length_le_of_sum_le {α : Type} {size : α → ℕ} (v : List α) {n : ℕ}
    (hsize : ∀ a, 1 ≤ size a) (h : (v.map size).sum ≤ n) :
    v.length ≤ n ∧ ∀ a ∈ v, size a ≤ n := by
  constructor
  · have := List.length_le_sum_of_one_le (v.map size) (by
      intro i hi
      obtain ⟨a, -, rfl⟩ := List.mem_map.mp hi
      exact hsize a)
    rw [List.length_map] at this
    omega
  · intro a ha
    exact Nat.le_trans (List.le_sum_of_mem (List.mem_map_of_mem ha)) h

theorem Codec.one_le_size (ver : VersionInfo) : 1 ≤ Codec.size ver := by
  unfold Codec.size
  split <;> decide

theorem ExtraIpv6Endpoint.decodes_parseAddress (address : { bs : Bytes // bs.length = 16 }) :
    Decodes ExtraIpv6Endpoint.parseAddress address.val address := by
  intro rest
  have h := decodes_bytes address.val rest
  rw [address.property] at h
  show ExtraIpv6Endpoint.parseAddress (address.val ++ rest) = _
  have h' : bytes 16 (address.val ++ rest) = some (address.val, rest) := h
  simp [ExtraIpv6Endpoint.parseAddress, h', address.property]

theorem ExtraIpv6Endpoint.of_run_parseAddress {bs r : Bytes}
    {address : { bs : Bytes // bs.length = 16 }}
    (h : ExtraIpv6Endpoint.parseAddress.run bs = some (address, r)) : bs = address.val ++ r := by
  cases hbytes : bytes 16 bs with
  | none => simp [StateT.run, parseAddress, hbytes] at h
  | some result =>
    obtain ⟨hlength, rfl⟩ := of_run_bytes hbytes
    simp [StateT.run, parseAddress, hbytes, hlength] at h
    rw [← h.1, ← h.2]

theorem ExtraIpv6Endpoint.decodes (d : ExtraIpv6Endpoint) :
    Decodes (ExtraIpv6Endpoint.parse ver) (d.serialize ver) d :=
  (ExtraIpv6Endpoint.decodes_parseAddress d.address).bind (decodes_u16 d.port).last

theorem ExtraPong.decodes (d : ExtraPong) : Decodes (ExtraPong.parse ver) (d.serialize ver) d := by
  intro rest
  have hleft : remaining.run (d.serialize ver ++ rest) =
      some ((d.serialize ver ++ rest).length, d.serialize ver ++ rest) := rfl
  have hlen : (d.serialize ver ++ rest).length ≥ 4 := by
    simp [ExtraPong.serialize]
  rw [ExtraPong.parse, StateT.run_bind, hleft]
  simp only [Option.bind_eq_bind, Option.bind_some, hlen, if_true]
  exact (decodes_u32 d.seq).last (f := fun seq => ({ seq } : ExtraPong)) rest

/-- **Bodies round trip**: a representable extra whose body fits, and whose
stream flags are kept, is parsed from its own bytes. -/
theorem Extra.decodes {e : Extra} (hl : 74 ≤ ver.connectionMaxLayer) (hrep : e.Representable ver)
    (hkept : e.FlagsKept ver) (hfit : e.wireSize ver ≤ 255) :
    Decodes (Extra.parse ver e.kind) (e.serialize ver) e := by
  have hl' : ¬ ver.connectionMaxLayer < 74 := by omega
  cases e with
  | streamFlags d => exact (ExtraStreamFlags.decodes hrep hkept).map _
  | streamCsd d =>
      have hbody : 1 + (6 + (d.data.map fun b => 1 + b.length).sum) ≤ 255 := hfit
      obtain ⟨hcount, hmem⟩ := length_le_of_sum_le (n := 248) d.data
        (fun b => Nat.le_add_right 1 b.length) (by omega)
      have harr : Decodes (parseArray parseBytes) (serializeArray serializeBytes d.data) d.data :=
        decodes_array (by omega) fun b hb => decodes_parseBytes (by
          have := hmem b hb
          omega)
      exact ((decodes_u8 d.streamId).bind ((decodes_u16 d.width).bind
        ((decodes_u16 d.height).bind harr.last))).map _
  | lanEndpoint d =>
      exact ((decodes_u32 d.address).bind (decodes_port ver.isNew d.port).last).map _
  | networkChanged d => exact (decodes_byte ver.isNew d.flags).last.map _
  | groupCallKey d =>
      -- 256 bytes and the id do not fit
      have hbody : 1 + d.key.length ≤ 255 := hfit
      have hkey : d.key.length = 256 := hrep
      omega
  | groupCallUpgrade => exact Decodes.pure _
  | ipv6Endpoint d => exact (ExtraIpv6Endpoint.decodes d).map _
  | init d =>
      have hbody : 1 + (8 + (if ver.isNew then 1 else 4) +
        (1 + (d.audioCodecs.map fun _ => Codec.size ver).sum) +
        (1 + (d.decoders.map fun _ => 4).sum) + 1) ≤ 255 := hfit
      obtain ⟨hcodecs, -⟩ := length_le_of_sum_le (n := 255) d.audioCodecs
        (fun _ => Codec.one_le_size ver) (by omega)
      obtain ⟨hdecoders, -⟩ := length_le_of_sum_le (n := 255) d.decoders
        (fun _ => (by decide : 1 ≤ 4)) (by omega)
      have hc : Decodes (parseArray (Codec.parse ver))
          (serializeArray (Codec.serialize ver) d.audioCodecs) d.audioCodecs :=
        decodes_array hcodecs fun c hc => Codec.decodes (hrep c hc)
      have hd : Decodes (parseArray u32) (serializeArray le32 d.decoders) d.decoders :=
        decodes_array hdecoders fun x _ => decodes_u32 x
      have hall : Decodes (ExtraInit.parse ver) (d.serialize ver) d := by
        unfold ExtraInit.serialize
        rw [if_neg hl']
        exact (decodes_u32 d.peerVersion).bind ((decodes_u32 d.minVersion).bind
          ((decodes_byte ver.isNew d.flags).bind (hc.bind
            (hd.bind (decodes_u8 d.maxResolution).last))))
      exact hall.map _
  | initAck d =>
      have hbody : 1 + (8 + (1 + (d.streams.map fun _ => 5 + Codec.size ver).sum)) ≤ 255 := hfit
      obtain ⟨hcount, -⟩ := length_le_of_sum_le (n := 255) d.streams
        (fun _ => Nat.le_trans (by decide : 1 ≤ 5) (Nat.le_add_right 5 (Codec.size ver)))
        (by omega)
      have hs : Decodes (parseArray (ExtraStreamInfo.parse ver))
          (serializeArray (ExtraStreamInfo.serialize ver) d.streams) d.streams :=
        decodes_array hcount fun s hs => ExtraStreamInfo.decodes (hrep s hs)
      exact ((decodes_u32 d.peerVersion).bind ((decodes_u32 d.minVersion).bind hs.last)).map _
  | ping => exact Decodes.pure _
  | pong d => exact (ExtraPong.decodes d).map _

/-! ## Wrapped extras -/

/-- `e`, written as a `Wrapped` object, is read back under the same version. -/
def RoundTrips (ver : VersionInfo) (e : Extra) : Prop :=
  ∃ x rest, (WrappedExtra.parse ver).run (WrappedExtra.serialize ver { d := e }) = some (x, rest) ∧
    x.d = e

/-- An id byte in front chooses the kind; the rest is the body. -/
theorem run_parseContent (ver : VersionInfo) (e : Extra) (buf bs : Bytes) :
    (WrappedExtra.parseContent ver buf).run (e.getID :: bs) =
      ((Extra.parse ver e.kind).run bs).map fun r =>
        ({ d := r.1, hashed := some buf }, r.2) := by
  have hid : u8.run (e.getID :: bs) = some (e.getID, bs) := rfl
  have hchoose : ExtraKind.choose e.getID = some e.kind := ExtraKind.choose_id e.kind
  rw [WrappedExtra.parseContent, StateT.run_bind, hid]
  simp only [Option.bind_eq_bind, Option.bind_some, hchoose]
  rw [StateT.run_bind]
  cases (Extra.parse ver e.kind).run bs <;> rfl

/-- What the wrapped parser sees of an extra: the content up to its
truncated length. -/
theorem run_parse (ver : VersionInfo) (e : Extra) :
    (WrappedExtra.parse ver).run (WrappedExtra.serialize ver { d := e }) =
      ((WrappedExtra.parseContent ver ((WrappedExtra.content ver e).take
        ((WrappedExtra.content ver e).length % 256))).run ((WrappedExtra.content ver e).take
          ((WrappedExtra.content ver e).length % 256))).map fun r =>
        (r.1, (WrappedExtra.content ver e).drop ((WrappedExtra.content ver e).length % 256)) := by
  have h := run_parseWrapped (WrappedExtra.parseContent ver) (WrappedExtra.content ver e) []
  rwa [List.append_nil, List.append_nil] at h

theorem takes_codec : Takes (Codec.parse ver) fun _ => Codec.size ver := by
  unfold Codec.parse Codec.size
  split
  · exact takes_u32
  · apply TakesFrom.takes
    exact .bind takes_u8 fun _ => .pure rfl

theorem takes_byteOrWord (isNew : Bool) :
    Takes (byteOrWord isNew) fun _ => if isNew = true then 1 else 4 := by
  cases isNew with
  | true => exact takes_u8
  | false => exact Takes.map takes_u32

theorem takes_shortOrWord (isNew : Bool) :
    Takes (shortOrWord isNew) fun _ => if isNew = true then 2 else 4 := by
  cases isNew with
  | true => exact takes_u16
  | false => exact Takes.map takes_u32

theorem takes_address : Takes ExtraIpv6Endpoint.parseAddress fun _ => 16 := by
  intro bs a r h
  simp only [StateT.run, ExtraIpv6Endpoint.parseAddress] at h
  split at h
  · cases h
  · rename_i a' rest hb
    split at h
    · rename_i h16
      cases h
      have hlen := takes_bytes 16 _ _ _ hb
      rwa [h16] at hlen
    · cases h

theorem takes_streamInfo : Takes (ExtraStreamInfo.parse ver) fun _ => 5 + Codec.size ver := by
  apply TakesFrom.takes
  refine .bind takes_u8 fun _ => .bind takes_u8 fun _ => .bind takes_codec fun _ =>
    .bind takes_u16 fun _ => .bind takes_u8 fun _ => .pure ?_
  omega

/-- Below version 6 the parser reads the two bytes of the serializer. -/
theorem takes_streamFlags : Takes (ExtraStreamFlags.parse ver) fun _ =>
    if ver.isNew then 2 else if ver.peerVersion ≥ 6 then 5 else 2 := by
  unfold ExtraStreamFlags.parse
  split
  · rename_i hold
    apply TakesFrom.takes
    refine .bind takes_u8 fun _ => .bind takes_u8 fun _ => .pure ?_
    rw [if_neg (by omega : ¬ ver.peerVersion ≥ 6), ite_self]
  · rename_i hnew
    apply TakesFrom.takes
    refine .bind takes_u8 fun _ => .bind (takes_byteOrWord _) fun _ => .pure ?_
    rw [if_pos (by omega : ver.peerVersion ≥ 6)]
    split <;> rfl

/-- **A body that was read was there**, except for the short form of a pong. -/
theorem takes_body {kind : ExtraKind} (hpong : kind ≠ .pong) :
    Takes (Extra.parse ver kind) (Extra.bodySize ver) := by
  cases kind with
  | streamFlags => exact Takes.map takes_streamFlags
  | streamCsd =>
      refine Takes.map (TakesFrom.takes ?_)
      refine .bind takes_u8 fun _ => .bind takes_u16 fun _ => .bind takes_u16 fun _ =>
        .bind (takes_array takes_parseBytes) fun data => .pure ?_
      show 6 + (data.map fun b => 1 + b.length).sum = _
      omega
  | lanEndpoint =>
      refine Takes.map (TakesFrom.takes ?_)
      refine .bind takes_u32 fun _ => .bind (takes_shortOrWord _) fun _ => .pure ?_
      rw [Extra.bodySize]
      split <;> rfl
  | networkChanged =>
      refine Takes.map (TakesFrom.takes ?_)
      exact .bind (takes_byteOrWord _) fun _ => .pure (Nat.zero_add _).symm
  | groupCallKey =>
      -- the parser reads no bytes into its empty key
      refine Takes.map (TakesFrom.takes ?_)
      exact .bind (takes_bytes _) fun key => .pure (Nat.zero_add _).symm
  | groupCallUpgrade => exact TakesFrom.takes (.pure rfl)
  | ipv6Endpoint =>
      refine Takes.map (TakesFrom.takes ?_)
      exact .bind takes_address fun _ => .bind takes_u16 fun _ => .pure rfl
  | init =>
      refine Takes.map (TakesFrom.takes ?_)
      exact .bind takes_u32 fun _ => .bind takes_u32 fun _ => .bind (takes_byteOrWord _) fun _ =>
        .bind (takes_array takes_codec) fun codecs => .bind (takes_array takes_u32) fun decoders =>
          .bind takes_u8 fun _ => .pure rfl
  | initAck =>
      refine Takes.map (TakesFrom.takes ?_)
      exact .bind takes_u32 fun _ => .bind takes_u32 fun _ =>
        .bind (takes_array takes_streamInfo) fun streams => .pure rfl
  | ping => exact TakesFrom.takes (.pure rfl)
  | pong => exact absurd rfl hpong

/-- The id and the body take no more than what `bodySize` counts, or they
are short. -/
theorem length_content_le (ver : VersionInfo) (e : Extra) :
    (WrappedExtra.content ver e).length ≤ e.wireSize ver ∨
      (WrappedExtra.content ver e).length ≤ 255 := by
  rw [WrappedExtra.content, List.length_cons, Extra.wireSize, Nat.add_comm]
  by_cases hl : 74 ≤ ver.connectionMaxLayer ∨ e.kind ≠ .init
  · exact Or.inl (Nat.le_of_eq (congrArg _ (e.length_serialize hl)))
  · obtain ⟨hl, hk⟩ := not_or.mp hl
    cases e with
    | init d =>
        have hold : ver.connectionMaxLayer < 74 := by omega
        have := d.length_serialize_old hold
        right
        simp only [Extra.serialize]
        omega
    | _ => exact absurd (by simp [Extra.kind]) hk

/-- **An extra that is read back fits its length byte**: what a truncated
length leaves of it is too short for it. -/
theorem RoundTrips.length_le {e : Extra} (h : RoundTrips ver e) :
    (WrappedExtra.content ver e).length ≤ 255 := by
  by_contra hbig
  obtain ⟨x, rest, hrun, hx⟩ := h
  have hwire : (WrappedExtra.content ver e).length ≤ e.wireSize ver := by
    rcases length_content_le ver e with h | h
    · exact h
    · omega
  have hpong : e.kind ≠ .pong := fun hk => by
    cases e with
    | pong d => exact hbig (by simp [WrappedExtra.content, Extra.serialize, ExtraPong.serialize])
    | _ => cases hk
  have happ := run_parse ver e
  rw [hrun] at happ
  cases hn : (WrappedExtra.content ver e).length % 256 with
  | zero =>
      rw [hn] at happ
      cases happ
  | succ n =>
      rw [hn] at happ
      have htake : (WrappedExtra.content ver e).take (n + 1) = e.getID :: (e.serialize ver).take n := by
        rw [WrappedExtra.content, List.take_succ_cons]
      rw [htake, run_parseContent] at happ
      cases hbody : (Extra.parse ver e.kind).run ((e.serialize ver).take n) with
      | none =>
          rw [hbody] at happ
          cases happ
      | some y =>
          obtain ⟨e', r⟩ := y
          rw [hbody] at happ
          simp only [Option.map_some, Option.some.injEq, Prod.mk.injEq] at happ
          have he : e' = e := by rw [← hx, happ.1]
          rw [he] at hbody
          have hsize := takes_body hpong _ _ _ hbody
          rw [List.length_take] at hsize
          have hw : e.wireSize ver = 1 + e.bodySize ver := rfl
          have hlt := Nat.mod_lt (WrappedExtra.content ver e).length (by decide : 0 < 256)
          omega

/-- What the peer makes of an extra that is read back. -/
def WrappedExtra.received (ver : VersionInfo) (e : Extra) : WrappedExtra :=
  { d := e, hashed := some (content ver e) }

/-- The body of an extra that is read back is parsed from its own bytes. -/
theorem RoundTrips.run_body {e : Extra} (h : RoundTrips ver e) :
    ∃ r, (Extra.parse ver e.kind).run (e.serialize ver) = some (e, r) := by
  have hlen := h.length_le
  obtain ⟨x, rest, hrun, hx⟩ := h
  have happ := run_parse ver e
  rw [hrun, Nat.mod_eq_of_lt (by omega), List.take_length, WrappedExtra.content,
    run_parseContent] at happ
  cases hbody : (Extra.parse ver e.kind).run (e.serialize ver) with
  | none =>
      rw [hbody] at happ
      cases happ
  | some y =>
      rw [hbody] at happ
      simp only [Option.map_some, Option.some.injEq, Prod.mk.injEq] at happ
      have he : y.1 = e := by rw [← hx, happ.1]
      exact ⟨y.2, by rw [← he]⟩

theorem RoundTrips.of_body {e : Extra} {r : Bytes} (hlen : (WrappedExtra.content ver e).length ≤ 255)
    (hbody : (Extra.parse ver e.kind).run (e.serialize ver) = some (e, r)) :
    Decodes (WrappedExtra.parse ver) (serializeWrapped (WrappedExtra.content ver e))
      (WrappedExtra.received ver e) := by
  have hcontent := run_parseContent ver e (WrappedExtra.content ver e) (e.serialize ver)
  rw [hbody] at hcontent
  exact decodes_wrapped hlen hcontent

/-- An extra that is read back is read back in front of other bytes. -/
theorem RoundTrips.decodes {x : WrappedExtra} (h : RoundTrips ver x.d) :
    Decodes (WrappedExtra.parse ver) (x.serialize ver) (WrappedExtra.received ver x.d) := by
  obtain ⟨r, hbody⟩ := h.run_body
  exact RoundTrips.of_body h.length_le hbody

/-- A list of extras that are read back. -/
theorem decodes_receivedArray {v : List WrappedExtra} (hcount : v.length ≤ 255)
    (h : ∀ x ∈ v, RoundTrips ver x.d) :
    Decodes (parseArray (WrappedExtra.parse ver)) (serializeArray (WrappedExtra.serialize ver) v)
      (v.map fun x => WrappedExtra.received ver x.d) := by
  have hser : serializeArray (WrappedExtra.serialize ver) v =
      serializeArray (WrappedExtra.serialize ver) (v.map fun x => WrappedExtra.received ver x.d) := by
    simp only [serializeArray, List.length_map, List.flatMap_map]
    rfl
  rw [hser]
  refine decodes_array (by rwa [List.length_map]) fun y hy => ?_
  obtain ⟨x, hx, rfl⟩ := List.mem_map.mp hy
  exact (h x hx).decodes

/-- Stream flags that are read back were kept. -/
theorem RoundTrips.flagsKept {e : Extra} (h : RoundTrips ver e) : e.FlagsKept ver := by
  cases e with
  | streamFlags d =>
      intro hnew hv
      obtain ⟨r, hbody⟩ := h.run_body
      have hser : (Extra.streamFlags d).serialize ver = [d.streamId, d.flags] := by
        simp [Extra.serialize, ExtraStreamFlags.serialize, hnew]
      have hparse : (Extra.parse ver (Extra.streamFlags d).kind).run [d.streamId, d.flags] =
          some (.streamFlags { d with flags := if d.flags != 0 then 1 else 0 }, []) := by
        simp only [Extra.parse, Extra.kind, ExtraStreamFlags.parse, if_pos hv]
        rfl
      rw [hser, hparse] at hbody
      injection hbody with hbody
      injection hbody with hbody
      injection hbody with hbody
      have hf : (if d.flags != 0 then 1 else 0) = d.flags := congrArg ExtraStreamFlags.flags hbody
      rw [← hf]
      split
      · exact Or.inr rfl
      · exact Or.inl rfl
  | _ => trivial

/-- **The extra round trip, exactly**: a representable extra is rebuilt from
its `Wrapped` bytes if and only if id and body fit the length byte and its
stream flags are kept. -/
theorem extra_roundTrips_iff (ver : VersionInfo) (e : Extra) (hl : 74 ≤ ver.connectionMaxLayer)
    (hrep : e.Representable ver) :
    RoundTrips ver e ↔ e.wireSize ver ≤ 255 ∧ e.FlagsKept ver := by
  have hlen : (WrappedExtra.content ver e).length = e.wireSize ver := by
    rw [WrappedExtra.content, List.length_cons, e.length_serialize (Or.inl hl), Extra.wireSize,
      Nat.add_comm]
  constructor
  · exact fun h => ⟨hlen ▸ h.length_le, h.flagsKept⟩
  · rintro ⟨hfit, hkept⟩
    have hbody := (Extra.decodes hl hrep hkept hfit).run_nil
    exact ⟨_, _, (RoundTrips.of_body (hlen ▸ hfit) hbody).run_nil, rfl⟩

/-- Stream flags of the newest version. -/
theorem extra_roundTrips_streamFlags :
    RoundTrips ⟨10, 110⟩ (.streamFlags { streamId := 1, flags := 7 }) ↔
      (Extra.streamFlags { streamId := 1, flags := 7 }).wireSize ⟨10, 110⟩ ≤ 255 ∧
        (Extra.streamFlags { streamId := 1, flags := 7 }).FlagsKept ⟨10, 110⟩ :=
  extra_roundTrips_iff ⟨10, 110⟩ _ (by decide) (by intro h; exact absurd h (by decide))

/-- A group call key is not read back. -/
theorem extra_roundTrips_fails :
    (Extra.groupCallKey { key := List.replicate 256 0 }).Representable ⟨10, 110⟩ ∧
      ¬ RoundTrips ⟨10, 110⟩ (.groupCallKey { key := List.replicate 256 0 }) := by
  have hrep : (Extra.groupCallKey { key := List.replicate 256 0 }).Representable ⟨10, 110⟩ :=
    List.length_replicate
  refine ⟨hrep, fun h => ?_⟩
  have hlen : (List.replicate 256 (0 : UInt8)).length + 1 ≤ 255 := h.length_le
  rw [List.length_replicate] at hlen
  omega

end Tgvoip
