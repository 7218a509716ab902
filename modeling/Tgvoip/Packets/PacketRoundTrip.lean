import Mathlib.Data.Nat.Bitwise
import Tgvoip.Packets.Legacy
import Tgvoip.Protocol.ExtraRoundTrip

/-!
# PacketRoundTrip — the new format, written and read

Every optional field of a new packet is announced by a flag. The proof
takes the fields one by one: for each, the parser's conditional read
takes exactly the bytes the serializer's conditional write produced
(`fills_*`), and the whole packet is their sequence.

The fragment numbers are the one field without a write. The parser reads
them when `EFlags::Fragmented` is set, so packets with that flag do not
come back, and all others do.
-/

namespace Tgvoip

open ByteReader ObjectParser Packet

/-! ## Packed fields -/

/-- The first byte: two bits and six bits. -/
theorem first_byte (s f : UInt8) (hs : s.toNat < 4) (hf : f.toNat < 64) :
    (s ||| (f <<< 2)) &&& 3 = s ∧ (s ||| (f <<< 2)) >>> 2 = f := by
  have hval : (s ||| (f <<< 2)).toNat = f.toNat * 4 + s.toNat := by
    have hmod : f.toNat <<< 2 % 2 ^ 8 = f.toNat <<< 2 := by
      rw [Nat.shiftLeft_eq]
      omega
    rw [UInt8.toNat_or, UInt8.toNat_shiftLeft]
    show s.toNat ||| f.toNat <<< 2 % 2 ^ 8 = _
    rw [hmod, or_shiftLeft_of_lt (k := 2) f.toNat hs]
    omega
  constructor
  · apply UInt8.toNat_inj.mp
    rw [UInt8.toNat_and, hval]
    show (f.toNat * 4 + s.toNat) &&& (2 ^ 2 - 1) = _
    rw [Nat.and_two_pow_sub_one_eq_mod]
    omega
  · apply UInt8.toNat_inj.mp
    rw [UInt8.toNat_shiftRight, hval]
    show (f.toNat * 4 + s.toNat) >>> 2 = _
    rw [Nat.shiftRight_eq_div_pow]
    omega

/-- The 16-bit length: eleven bits and five bits. -/
theorem length_field (l : ℕ) (e : UInt8) (hl : l ≤ 0x7FF) (he : e.toNat < 32) :
    ((UInt16.ofNat l ||| (e.toUInt16 <<< 11)) >>> 11).toUInt8 = e ∧
      (UInt16.ofNat l ||| (e.toUInt16 <<< 11)) &&& 0x7FF = UInt16.ofNat l := by
  have hl' : (UInt16.ofNat l).toNat = l := by
    rw [UInt16.toNat_ofNat']
    omega
  have hval : (UInt16.ofNat l ||| (e.toUInt16 <<< 11)).toNat = e.toNat * 2048 + l := by
    have hmod : e.toNat <<< 11 % 2 ^ 16 = e.toNat <<< 11 := by
      rw [Nat.shiftLeft_eq]
      omega
    rw [UInt16.toNat_or, UInt16.toNat_shiftLeft, hl', UInt8.toNat_toUInt16]
    show l ||| e.toNat <<< 11 % 2 ^ 16 = _
    rw [hmod, or_shiftLeft_of_lt (k := 11) e.toNat (Nat.lt_succ_of_le hl)]
    omega
  constructor
  · apply UInt8.toNat_inj.mp
    rw [UInt16.toNat_toUInt8, UInt16.toNat_shiftRight, hval]
    show (e.toNat * 2048 + l) >>> 11 % 256 = _
    rw [Nat.shiftRight_eq_div_pow]
    omega
  · apply UInt16.toNat_inj.mp
    rw [UInt16.toNat_and, hval, hl']
    show (e.toNat * 2048 + l) &&& (2 ^ 11 - 1) = _
    rw [Nat.and_two_pow_sub_one_eq_mod]
    omega

namespace Packet

/-- The flags byte of four announcements. -/
def flagsOf (len16 ts ec sig : Bool) : UInt8 :=
  Flags.reserved ||| (if len16 then Flags.len16 else 0) ||| (if ts then Flags.recvTS else 0) |||
    (if ec then Flags.extraEC else 0) ||| (if sig then Flags.extraSignaling else 0)

/-- Each flag is read back, and the byte fits behind the stream id. -/
theorem flagsOf_spec (len16 ts ec sig : Bool) :
    (flagsOf len16 ts ec sig).toNat < 64 ∧
      (flagsOf len16 ts ec sig &&& Flags.reserved == 0) = false ∧
      (flagsOf len16 ts ec sig &&& Flags.len16 != 0) = len16 ∧
      (flagsOf len16 ts ec sig &&& Flags.recvTS != 0) = ts ∧
      (flagsOf len16 ts ec sig &&& Flags.extraEC != 0) = ec ∧
      (flagsOf len16 ts ec sig &&& Flags.extraSignaling != 0) = sig := by
  revert len16 ts ec sig
  decide

theorem flags_eq (p : Packet) :
    p.flags = flagsOf (p.contents.length > 0xFF || p.eFlags != 0) (p.recvTS != 0) p.extraEC.any
      (!p.extraSignaling.isEmpty) := rfl

/-- The packets of the claim: what the format has room for. -/
structure Sendable (ver : VersionInfo) (p : Packet) : Prop where
  data : p.contents.length ≤ 0x7FF
  eFlags : p.eFlags.toNat < 32
  extraEC : ∀ i b, p.extraEC i = some b → 1 ≤ b.length ∧ b.length ≤ 255
  count : p.extraSignaling.length ≤ 255
  extras : ∀ x ∈ p.extraSignaling, RoundTrips ver x.d

/-- Nothing of `p` is lost in `q`. -/
structure Carries (p q : Packet) : Prop where
  seq : q.seq = p.seq
  ackSeq : q.ackSeq = p.ackSeq
  ackMask : q.ackMask = p.ackMask
  streamId : q.streamId = p.streamId
  eFlags : q.eFlags = p.eFlags
  fragment : p.eFlags &&& EFlags.fragmented ≠ 0 →
    q.fragmentIndex = p.fragmentIndex ∧ q.fragmentCount = p.fragmentCount
  data : q.contents = p.contents
  recvTS : q.recvTS = p.recvTS
  extraEC : q.extraEC = p.extraEC
  extras : q.extraSignaling.map (·.d) = p.extraSignaling.map (·.d)

/-- `p` is written, read to the last byte, and nothing is lost. -/
def RoundTrips (fresh : ℕ → Bytes) (ver : VersionInfo) (p : Packet) : Prop :=
  ∃ q, IncomingPacket.parse fresh ver ({}, p.serialize ver) = .ok () (q, []) ∧
    p.Carries q.toPacket

/-! ## Field by field -/

section
variable {p : Packet} {o : IncomingPacket} {ver : VersionInfo}

theorem fills_streamId (ho : o.streamId = p.shortStreamId) :
    Fills (onlyIf (p.shortStreamId == StreamId.extended)
        (field u8 fun x p => { p with streamId := x }))
      (if p.shortStreamId = StreamId.extended then [p.streamId] else []) () o
      { o with streamId := p.streamId } := by
  by_cases h : p.shortStreamId = StreamId.extended
  · rw [if_pos h]
    exact Fills.onlyIf_true (by simp [h]) (Fills.field (decodes_u8 p.streamId) o)
  · have hid : p.streamId = p.shortStreamId := by
      simp only [shortStreamId] at h ⊢
      split at h
      · exact absurd rfl h
      · rename_i hgt
        rw [if_neg hgt]
    have hsame : { o with streamId := p.streamId } = o := by rw [hid, ← ho]
    rw [if_neg h, hsame]
    exact Fills.onlyIf_false (by simp [h])

theorem decodes_length (hs : p.Sendable ver) :
    ∃ x, Decodes (IncomingPacket.parseLength (p.contents.length > 0xFF || p.eFlags != 0))
        (if p.flags &&& Flags.len16 ≠ 0 then
          le16 (UInt16.ofNat p.contents.length ||| (p.eFlags.toUInt16 <<< 11))
        else [UInt8.ofNat p.contents.length]) x ∧
      (x >>> 11).toUInt8 = p.eFlags ∧ (x &&& 0x7FF) = UInt16.ofNat p.contents.length := by
  have hbit := (flagsOf_spec (p.contents.length > 0xFF || p.eFlags != 0) (p.recvTS != 0)
    p.extraEC.any (!p.extraSignaling.isEmpty)).2.2.1
  rw [← flags_eq] at hbit
  cases hlong : (decide (p.contents.length > 0xFF) || p.eFlags != 0) with
  | true =>
      rw [hlong] at hbit
      rw [if_pos (by simpa using hbit)]
      exact ⟨_, decodes_u16 _, length_field _ _ hs.data hs.eFlags⟩
  | false =>
      rw [hlong] at hbit
      rw [if_neg (by simpa using hbit)]
      simp only [Bool.or_eq_false_iff, decide_eq_false_iff_not, bne_eq_false_iff_eq] at hlong
      have hbyte : (UInt8.ofNat p.contents.length).toUInt16 = UInt16.ofNat p.contents.length := by
        apply UInt16.toNat_inj.mp
        rw [UInt8.toNat_toUInt16, UInt8.toNat_ofNat', UInt16.toNat_ofNat']
        omega
      have hfield := length_field p.contents.length 0 hs.data (by decide)
      have hzero : UInt16.ofNat p.contents.length ||| ((0 : UInt8).toUInt16 <<< 11) =
          UInt16.ofNat p.contents.length := by
        apply UInt16.toNat_inj.mp
        simp
      rw [hzero] at hfield
      refine ⟨_, (decodes_u8 _).map UInt8.toUInt16, ?_⟩
      rw [hbyte, hlong.2]
      exact hfield

theorem fills_data (fresh : ℕ → Bytes) (hs : p.Sendable ver) (ho : o.data = none) :
    Fills (onlyIf (UInt16.ofNat p.contents.length != 0)
        (readData fresh (UInt16.ofNat p.contents.length).toNat fun d p => { p with data := some d }))
      p.contents () o { o with data := if p.contents = [] then none else some p.contents } := by
  have hlen : (UInt16.ofNat p.contents.length).toNat = p.contents.length := by
    have := hs.data
    rw [UInt16.toNat_ofNat']
    omega
  by_cases h : p.contents = []
  · rw [if_pos h, h]
    rw [← ho]
    exact Fills.onlyIf_false (by simp)
  · rw [if_neg h]
    have hpos : p.contents.length ≠ 0 := fun h0 => h (List.eq_nil_of_length_eq_zero h0)
    refine Fills.onlyIf_true ?_ ?_
    · rw [bne_iff_ne, ne_eq, ← UInt16.toNat_inj, hlen]
      exact hpos
    · rw [hlen]
      exact fills_readData fresh p.contents _ o

theorem fills_recvTS (ho : o.recvTS = 0) :
    Fills (onlyIf (p.recvTS != 0) (field u32 fun x p => { p with recvTS := x }))
      (if (p.recvTS != 0) = true then le32 p.recvTS else []) () o { o with recvTS := p.recvTS } := by
  by_cases h : p.recvTS = 0
  · have hsame : { o with recvTS := p.recvTS } = o := by rw [h, ← ho]
    rw [if_neg (by simp [h]), hsame]
    exact Fills.onlyIf_false (by simp [h])
  · rw [if_pos (by simpa using h)]
    exact Fills.onlyIf_true (by simpa using h) (Fills.field (decodes_u32 p.recvTS) o)

theorem fills_extraEC (hs : p.Sendable ver) (ho : o.extraEC = Entries.none) :
    Fills (onlyIf p.extraEC.any
        (field parseMask fun v p => { p with extraEC := v.writtenOver p.extraEC }))
      (if p.extraEC.any = true then serializeMask p.extraEC else []) () o
      { o with extraEC := p.extraEC } := by
  have hhas : ∀ i, (if p.extraEC.has i = true then some ((p.extraEC i).getD []) else none) =
      p.extraEC i := by
    intro i
    cases hi : p.extraEC i with
    | none => simp [Entries.has, hi]
    | some b =>
        have := (hs.extraEC i b hi).1
        have hne : b ≠ [] := fun h => by simp [h] at this
        simp [Entries.has, hi, hne]
  cases hany : p.extraEC.any with
  | false =>
      have hnone : p.extraEC = Entries.none := by
        funext i
        have hi : p.extraEC.has i = false := by
          simp only [Entries.any, List.any_eq_false] at hany
          simpa using hany i (List.mem_finRange i)
        have := hhas i
        rw [hi] at this
        exact this.symm
      have hsame : { o with extraEC := p.extraEC } = o := by rw [hnone, ← ho]
      rw [hsame]
      exact Fills.onlyIf_false rfl
  | true =>
      have hlen : ∀ i, ((p.extraEC i).getD []).length ≤ 255 := by
        intro i
        cases hi : p.extraEC i with
        | none => simp
        | some b => exact (hs.extraEC i b hi).2
      have hd := decodes_mask hlen
      simp only [hhas] at hd
      have hover : p.extraEC.writtenOver o.extraEC = p.extraEC := by
        funext i
        simp [Entries.writtenOver, ho, Entries.none]
      have hf := Fills.field (g := fun v (p : IncomingPacket) =>
        { p with extraEC := v.writtenOver p.extraEC }) hd o
      simp only [hover] at hf
      exact Fills.onlyIf_true rfl hf

theorem fills_extras (v : List WrappedExtra) (hcount : v.length ≤ 255)
    (hv : ∀ x ∈ v, Tgvoip.RoundTrips ver x.d) (ho : o.extraSignaling = []) :
    Fills (onlyIf (!v.isEmpty)
        (field (parseArray (WrappedExtra.parse ver)) fun xs p =>
          { p with extraSignaling := p.extraSignaling ++ xs }))
      (if (!v.isEmpty) = true then serializeArray (WrappedExtra.serialize ver) v else []) () o
      { o with extraSignaling := v.map fun x => WrappedExtra.received ver x.d } := by
  cases v with
  | nil =>
      have hsame : { o with extraSignaling := [] } = o := by rw [← ho]
      rw [List.map_nil, hsame]
      exact Fills.onlyIf_false rfl
  | cons x xs =>
      have hd := decodes_receivedArray hcount hv
      have hf := Fills.field (g := fun xs (p : IncomingPacket) =>
        { p with extraSignaling := p.extraSignaling ++ xs }) hd o
      simp only [ho, List.nil_append] at hf
      exact Fills.onlyIf_true rfl hf

/-- The object a sendable packet without fragments is read into. -/
def afterWire (ver : VersionInfo) (p : Packet) : IncomingPacket :=
  { seq := p.seq, ackSeq := p.ackSeq, ackMask := p.ackMask, streamId := p.streamId
    eFlags := p.eFlags
    data := if p.contents = [] then none else some p.contents
    recvTS := p.recvTS, extraEC := p.extraEC
    extraSignaling := p.extraSignaling.map fun x => WrappedExtra.received ver x.d }

/-- **The wire**: what a sendable packet without fragments writes is read to
the last byte. -/
theorem fills_serialize (fresh : ℕ → Bytes) (hs : p.Sendable ver)
    (hfrag : p.eFlags &&& EFlags.fragmented = 0) :
    Fills (IncomingPacket.parseNew fresh ver) (p.serialize ver) () {} (p.afterWire ver) := by
  obtain ⟨hlt, hres, h16, hts, hec, hsig⟩ :=
    flagsOf_spec (p.contents.length > 0xFF || p.eFlags != 0) (p.recvTS != 0) p.extraEC.any
      (!p.extraSignaling.isEmpty)
  rw [← flags_eq] at hlt hres h16 hts hec hsig
  have hshort : p.shortStreamId.toNat < 4 := by
    unfold shortStreamId
    split
    · decide
    · rename_i h
      have := UInt8.le_iff_toNat_le.mp (UInt8.not_lt.mp h)
      exact Nat.lt_succ_of_le this
  obtain ⟨hid, hflags⟩ := first_byte p.shortStreamId p.flags hshort hlt
  obtain ⟨x, hx, hxe, hxl⟩ := decodes_length hs
  rw [← h16] at hx
  unfold IncomingPacket.parseNew serialize
  refine (Fills.tryRead (decodes_u8 _) _).bind ?_
  refine (Fills.field (decodes_u32 p.seq) _).bind ((Fills.field (decodes_u32 p.ackSeq) _).bind
    ((Fills.field (decodes_u32 p.ackMask) _).bind (Fills.edit_bind ?_)))
  simp only [hid, hflags]
  refine Fills.accept_bind hres ((fills_streamId rfl).bind ((Fills.tryRead hx _).bind
    (Fills.edit_bind ?_)))
  simp only [hxe, hxl]
  refine (Fills.onlyIf_false (by simp [hfrag])).bind ((fills_data fresh hs rfl).bind ?_)
  simp only [← bne_iff_ne, hts, hec, hsig]
  exact (fills_recvTS rfl).bind ((fills_extraEC hs rfl).bind (fills_extras p.extraSignaling hs.count hs.extras rfl))

end

/-! ## The round trip -/

theorem carries_afterWire {ver : VersionInfo} {p : Packet}
    (hfrag : p.eFlags &&& EFlags.fragmented = 0) : p.Carries (p.afterWire ver).toPacket where
  seq := rfl
  ackSeq := rfl
  ackMask := rfl
  streamId := rfl
  eFlags := rfl
  fragment := fun h => absurd hfrag h
  data := by
    show (if p.contents = [] then none else some p.contents).getD [] = p.contents
    split
    · rename_i h
      rw [h]
      rfl
    · rfl
  recvTS := rfl
  extraEC := rfl
  extras := by
    show (p.extraSignaling.map fun x => WrappedExtra.received ver x.d).map (·.d) = _
    rw [List.map_map]
    rfl

/-- **The packet round trip, exactly**: a sendable packet comes back whole,
whatever its fragment numbers, if and only if it is not fragmented. -/
theorem packet_roundTrips_iff (fresh : ℕ → Bytes) (ver : VersionInfo) (p : Packet)
    (hnew : ver.isNew = true) (hs : p.Sendable ver) :
    (∀ fi fc, RoundTrips fresh ver { p with fragmentIndex := fi, fragmentCount := fc }) ↔
      p.eFlags &&& EFlags.fragmented = 0 := by
  constructor
  · intro h
    by_contra hfrag
    -- the bytes do not depend on the fragment numbers
    obtain ⟨q₀, hq₀, hc₀⟩ := h 0 0
    obtain ⟨q₁, hq₁, hc₁⟩ := h 1 0
    have hsame : IncomingPacket.parse fresh ver
        ({}, serialize ver { p with fragmentIndex := 0, fragmentCount := 0 }) = .ok () (q₁, []) := hq₁
    rw [hq₀] at hsame
    injection hsame with _ hsame
    injection hsame with hsame
    have h₀ : q₀.fragmentIndex = 0 := (hc₀.fragment hfrag).1
    have h₁ : q₁.fragmentIndex = 1 := (hc₁.fragment hfrag).1
    rw [hsame, h₁] at h₀
    exact absurd h₀ (by decide)
  · intro hfrag fi fc
    have hs' : Sendable ver { p with fragmentIndex := fi, fragmentCount := fc } :=
      ⟨hs.data, hs.eFlags, hs.extraEC, hs.count, hs.extras⟩
    refine ⟨afterWire ver _, ?_, carries_afterWire hfrag⟩
    rw [IncomingPacket.parse, if_pos hnew]
    exact (fills_serialize fresh hs' hfrag).run

/-- An audio packet that carries a ping. -/
theorem packet_roundTrips_ping :
    (∀ fi fc, RoundTrips (fun n => List.replicate n 0) ⟨10, 110⟩
        { seq := 7, streamId := 1, data := some [1, 2, 3], extraSignaling := [{ d := .ping }]
          fragmentIndex := fi, fragmentCount := fc }) ↔
      (0 : UInt8) &&& EFlags.fragmented = 0 :=
  packet_roundTrips_iff _ ⟨10, 110⟩
    { seq := 7, streamId := 1, data := some [1, 2, 3], extraSignaling := [{ d := .ping }] }
    (by decide)
    { data := by decide
      eFlags := by decide
      extraEC := fun i b h => by cases h
      count := by decide
      extras := fun x hx => by
        rw [List.mem_singleton.mp hx]
        exact ⟨_, _, rfl, rfl⟩ }

/-- A fragment without data: the parser reads its numbers from bytes that
are not there. -/
theorem packet_roundTrips_fails :
    Sendable ⟨10, 110⟩ { seq := 7, streamId := 2, eFlags := EFlags.fragmented } ∧
      ¬ RoundTrips (fun n => List.replicate n 0) ⟨10, 110⟩
        { seq := 7, streamId := 2, eFlags := EFlags.fragmented } := by
  refine ⟨{
    data := by decide
    eFlags := by decide
    extraEC := fun i b h => by cases h
    count := by decide
    extras := fun x hx => by cases hx }, ?_⟩
  rintro ⟨q, hq, -⟩
  cases hq

end Packet

end Tgvoip
