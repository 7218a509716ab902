import Tgvoip.Packets.PacketRoundTrip

/-!
# LegacyRoundTrip — what the legacy format delivers

A packet is sent as a list of legacy packets (`legacyParts`). Each of them
is read by the same steps: the header (`run_header`), then the body by its
type (`run_partBody`), which fills the object as `deliver` says. A NOP
packet is the exception: the parser knows no such type.

`LegacyDelivery` says what the buffers owe together. It holds exactly for
the packets that `Deliverable` describes.
-/

namespace Tgvoip

open ByteReader ObjectParser Packet

namespace Packet

/-- What the legacy format has room for: an audio packet. -/
structure LegacySendable (ver : VersionInfo) (p : Packet) : Prop where
  stream : p.streamId = StreamId.audio
  data : ∀ d, p.data = some d → d.length ≤ 0x7FF
  seq : (p.seq - 1).toNat * 60 < 2 ^ 32
  extraEC : ∀ i, ((p.extraEC i).getD []).length ≤ 255
  count : p.extraSignaling.length ≤ 255
  extras : ∀ x ∈ p.extraSignaling, Tgvoip.RoundTrips ver x.d

variable {fresh : ℕ → Bytes} {ver : VersionInfo} {p : Packet} {o : IncomingPacket}

/-! ## The header -/

theorem headerFlags_spec (p : Packet) (extras : List WrappedExtra) :
    (p.headerFlags extras &&& Xpflag.hasExtra != 0) = !extras.isEmpty ∧
      (p.headerFlags extras &&& Xpflag.hasRecvTS != 0) = (p.recvTS != 0) := by
  unfold headerFlags
  cases extras.isEmpty <;> cases (p.recvTS != 0) <;> decide

theorem allowedExtras_spec (hs : p.LegacySendable ver) :
    (p.allowedExtras ver).length ≤ 255 ∧
      ∀ x ∈ p.allowedExtras ver, Tgvoip.RoundTrips ver x.d :=
  ⟨Nat.le_trans (List.length_filter_le _ _) hs.count,
    fun x hx => hs.extras x (List.mem_filter.mp hx).1⟩

/-- The object behind the header of the legacy packet `seq`. -/
def afterHeader (ver : VersionInfo) (p : Packet) (seq : UInt32) : IncomingPacket :=
  { legacy := true, legacySeq := seq, ackSeq := p.ackSeq, ackMask := p.ackMask
    recvTS := p.recvTS
    extraSignaling := (p.allowedExtras ver).map fun x => WrappedExtra.received ver x.d }

/-- **The header** is read to its end, and the body follows. -/
theorem run_header (hver : ver.isLegacy = true) (hs : p.LegacySendable ver) (seq : UInt32)
    (type : UInt8) (body : Bytes) :
    IncomingPacket.parse fresh ver
        ({}, p.writePacketHeaderLegacy ver seq type (p.allowedExtras ver) ++ body) =
      IncomingPacket.parseLegacyBody fresh ver type (p.afterHeader ver seq, body) := by
  obtain ⟨hcount, hextras⟩ := allowedExtras_spec hs
  obtain ⟨hx, hts⟩ := headerFlags_spec p (p.allowedExtras ver)
  have hheader : Decodes LegacyHeader.parse
      ([type] ++ (le32 p.ackSeq ++ (le32 seq ++ (le32 p.ackMask ++
        [p.headerFlags (p.allowedExtras ver)]))))
      { type, ackId := p.ackSeq, pseq := seq, acks := p.ackMask
        pflags := p.headerFlags (p.allowedExtras ver) } :=
    (decodes_u8 type).bind ((decodes_u32 _).bind ((decodes_u32 _).bind ((decodes_u32 _).bind
      (decodes_u8 _).last)))
  have hbytes : p.writePacketHeaderLegacy ver seq type (p.allowedExtras ver) ++ body =
      ([type] ++ (le32 p.ackSeq ++ (le32 seq ++ (le32 p.ackMask ++
        [p.headerFlags (p.allowedExtras ver)])))) ++
      ((if !(p.allowedExtras ver).isEmpty then
        serializeArray (WrappedExtra.serialize ver) (p.allowedExtras ver) else []) ++
      ((if p.recvTS != 0 then le32 p.recvTS else []) ++ body)) := by
    simp only [writePacketHeaderLegacy, List.append_assoc]
  rw [hbytes, IncomingPacket.parse, if_neg (by simp [ver.isNew_eq_false_of_isLegacy hver]),
    IncomingPacket.parseLegacy, edit_bind, IncomingPacket.parseLegacyHeader, if_pos hver,
    tryRead_bind hheader, edit_bind]
  simp only [hx, hts]
  rw [(fills_extras (p.allowedExtras ver) hcount hextras rfl).run_bind,
    (fills_recvTS (p := p) rfl).run_bind]
  rfl

/-! ## The bodies -/

/-- Timestamps of 60 ms frames stand for their seqs. -/
theorem seq_of_timestamp (h : (p.seq - 1).toNat * 60 < 2 ^ 32) :
    (p.seq - 1) * 60 / 60 + 1 = p.seq := by
  have hmul : ((p.seq - 1) * 60).toNat = (p.seq - 1).toNat * 60 := by
    rw [UInt32.toNat_mul]
    exact Nat.mod_eq_of_lt h
  have hdiv : (p.seq - 1) * 60 / 60 = p.seq - 1 := by
    apply UInt32.toNat_inj.mp
    rw [UInt32.toNat_div, hmul]
    exact Nat.mul_div_cancel _ (by decide)
  rw [hdiv, UInt32.sub_add_cancel]

/-- The entries as they are read from an array of eight. -/
def sentEntries (p : Packet) : Entries := fun i => some ((p.extraEC i).getD [])

/-- `on` edits one packet of the object, and nothing else. -/
structure EditsOne (on : (Packet → Packet) → IncomingPacket → IncomingPacket) : Prop where
  same : ∀ o, on (fun p => p) o = o
  twice : ∀ f g o, on g (on f o) = on (fun p => g (f p)) o

theorem editsOne_onThis : EditsOne IncomingPacket.onThis where
  same _ := rfl
  twice _ _ _ := rfl

/-- Filling positions one after the other. -/
theorem foldl_setEntries {on : (Packet → Packet) → IncomingPacket → IncomingPacket}
    (hon : EditsOne on) (f : Fin 8 → Bytes) (is : List (Fin 8)) (o : IncomingPacket) :
    is.foldl (fun o i => on (setEntry i (f i)) o) o =
      on (fun p => { p with extraEC := fun j => if j ∈ is then some (f j) else p.extraEC j }) o := by
  induction is generalizing o with
  | nil => simpa using (hon.same o).symm
  | cons i is ih =>
      rw [List.foldl_cons, ih, hon.twice]
      congr 1
      funext p
      simp only [setEntry, Packet.mk.injEq, true_and, and_true]
      funext j
      by_cases hj : j ∈ is
      · simp [hj]
      · by_cases hji : j = i
        · subst hji
          simp [hj]
        · simp [hj, hji]

/-- Filling all eight positions. -/
theorem foldl_setEntry (f : Fin 8 → Bytes) (o : IncomingPacket) :
    (List.finRange 8).foldl (fun o i => IncomingPacket.onThis (setEntry i (f i)) o) o =
      { o with extraEC := fun i => some (f i) } := by
  rw [foldl_setEntries editsOne_onThis]
  simp [IncomingPacket.onThis]

theorem extraECArray_bytes (hany : p.extraEC.any = true) :
    serializeArray serializeBytes p.extraECArray =
      [8] ++ ((List.finRange 8).flatMap fun i => serializeBytes ((p.extraEC i).getD [])) := by
  rw [extraECArray, if_pos hany, serializeArray, List.flatMap_map, List.length_map,
    List.length_finRange]
  rfl

/-- An array of eight entries fills all positions. -/
theorem fills_legacyEntries (hec : ∀ i, ((p.extraEC i).getD []).length ≤ 255)
    (o : IncomingPacket) :
    Fills (legacyEntries (fun i b => IncomingPacket.onThis (setEntry i b)) 8)
      ((List.finRange 8).flatMap fun i => serializeBytes ((p.extraEC i).getD [])) () o
      { o with extraEC := p.sentEntries } := by
  have hloop := Fills.forM (p := parseBytes)
    (g := fun i b => IncomingPacket.onThis (setEntry i b))
    (e := fun i => serializeBytes ((p.extraEC i).getD [])) (v := fun i => (p.extraEC i).getD [])
    (List.finRange 8) (fun i _ => decodes_parseBytes (hec i)) o
  rw [foldl_setEntry fun i => (p.extraEC i).getD []] at hloop
  have hskip : Fills (tryRead (times parseBytes 0) >>= fun _ => (pure () : Parse IncomingPacket Unit))
      [] () { o with extraEC := p.sentEntries } { o with extraEC := p.sentEntries } := fun _ => rfl
  have hboth := hloop.bind (f := fun _ => tryRead (times parseBytes 0) >>= fun _ => pure ()) hskip
  rw [List.append_nil] at hboth
  exact hboth

theorem fills_streamEC (hs : p.LegacySendable ver) (hany : p.extraEC.any = true)
    (o : IncomingPacket) :
    Fills IncomingPacket.parseStreamEC (p.partBody ver .ec) () o
      { o with streamId := p.streamId, seq := p.seq, extraEC := p.sentEntries } := by
  have hseq := seq_of_timestamp hs.seq
  have hentries := fills_legacyEntries hs.extraEC
    { o with streamId := p.streamId, seq := (p.seq - 1) * 60 / 60 + 1 }
  simp only [hseq] at hentries
  unfold IncomingPacket.parseStreamEC partBody
  rw [extraECArray_bytes hany]
  refine (Fills.field (decodes_u8 _) _).bind ((Fills.field (decodes_u32 _) _).bind
    ((Fills.tryRead (decodes_u8 8) _).bind (Fills.edit_bind ?_)))
  simp only [hseq]
  exact hentries

/-- Testing one bit of a 16-bit word. -/
theorem and_bit_ne_zero {x m : UInt16} (k : ℕ) (hm : m.toNat = 2 ^ k) :
    (x &&& m != 0) = x.toNat.testBit k := by
  have hval : (x &&& m).toNat = (x.toNat.testBit k).toNat * 2 ^ k := by
    rw [UInt16.toNat_and, hm, Nat.and_two_pow]
  cases hb : x.toNat.testBit k with
  | false =>
      have hz : x &&& m = 0 := UInt16.toNat_inj.mp (by rw [hval, hb]; simp)
      simp [hz]
  | true =>
      have hnz : x &&& m ≠ 0 := fun h => by
        rw [h, hb] at hval
        have := Nat.two_pow_pos k
        simp at hval
        omega
      simp [hnz]

/-- The length field of the data packet and its flags. -/
theorem dataLength_spec (l : ℕ) (hl : l ≤ 0x7FF) (fec : Bool) :
    ((UInt16.ofNat l ||| (if fec then StreamData.xflagExtraFEC else 0)) &&&
        StreamData.xflagFragmented != 0) = false ∧
      ((UInt16.ofNat l ||| (if fec then StreamData.xflagExtraFEC else 0)) &&&
        StreamData.xflagKeyframe != 0) = false ∧
      ((UInt16.ofNat l ||| (if fec then StreamData.xflagExtraFEC else 0)) &&&
        StreamData.xflagExtraFEC != 0) = fec ∧
      ((UInt16.ofNat l ||| (if fec then StreamData.xflagExtraFEC else 0)) &&& 0x7FF).toNat = l := by
  have hl' : (UInt16.ofNat l).toNat = l := by
    rw [UInt16.toNat_ofNat']
    omega
  have hval : (UInt16.ofNat l ||| (if fec then StreamData.xflagExtraFEC else 0)).toNat =
      (if fec then 2 ^ 13 else 0) + l := by
    cases fec with
    | true =>
        have h := or_shiftLeft_of_lt (a := l) (k := 13) 1 (by omega)
        rw [Nat.one_shiftLeft, Nat.one_mul] at h
        rw [UInt16.toNat_or, hl']
        exact h
    | false => simp [hl']
  refine ⟨?_, ?_, ?_, ?_⟩
  · rw [and_bit_ne_zero 14 rfl, hval, Nat.testBit_eq_decide_div_mod_eq]
    cases fec <;> simp <;> omega
  · rw [and_bit_ne_zero 15 rfl, hval, Nat.testBit_eq_decide_div_mod_eq]
    cases fec <;> simp <;> omega
  · rw [and_bit_ne_zero 13 rfl, hval, Nat.testBit_eq_decide_div_mod_eq]
    cases fec <;> simp <;> omega
  · rw [UInt16.toNat_and, hval]
    show _ &&& (2 ^ 11 - 1) = l
    rw [Nat.and_two_pow_sub_one_eq_mod]
    cases fec <;> simp <;> omega

theorem dataFlags_spec (d : Bytes) :
    (p.dataFlags ver d ||| 1) &&& 0x3F = StreamId.audio ∧
      ((p.dataFlags ver d ||| 1) &&& StreamData.flagLen16 != 0) =
        (decide (d.length > 255) || p.hasExtraFEC ver) ∧
      (p.dataFlags ver d &&& StreamData.flagLen16 ≠ 0 ↔
        (decide (d.length > 255) || p.hasExtraFEC ver) = true) := by
  unfold dataFlags
  cases (decide (d.length > 255) || p.hasExtraFEC ver) <;> decide

theorem decodes_dataLength (d : Bytes) (hd : d.length ≤ 0x7FF) :
    Decodes (IncomingPacket.parseLength ((p.dataFlags ver d ||| 1) &&& StreamData.flagLen16 != 0))
      (if p.dataFlags ver d &&& StreamData.flagLen16 ≠ 0 then
          le16 (UInt16.ofNat d.length |||
            (if p.hasExtraFEC ver then StreamData.xflagExtraFEC else 0))
        else [UInt8.ofNat d.length])
      (UInt16.ofNat d.length ||| (if p.hasExtraFEC ver then StreamData.xflagExtraFEC else 0)) := by
  obtain ⟨-, hflag, hflag'⟩ := @dataFlags_spec ver p d
  rw [hflag]
  cases hlong : (decide (d.length > 255) || p.hasExtraFEC ver) with
  | true =>
      rw [if_pos (hflag'.mpr hlong)]
      exact decodes_u16 _
  | false =>
      rw [if_neg fun h => by rw [hflag'.mp h] at hlong; cases hlong]
      simp only [Bool.or_eq_false_iff, decide_eq_false_iff_not] at hlong
      have hbyte : (UInt8.ofNat d.length).toUInt16 = UInt16.ofNat d.length := by
        apply UInt16.toNat_inj.mp
        rw [UInt8.toNat_toUInt16, UInt8.toNat_ofNat', UInt16.toNat_ofNat']
        omega
      have hb := (decodes_u8 (UInt8.ofNat d.length)).map UInt8.toUInt16
      have hor : UInt16.ofNat d.length ||| (0 : UInt16) = UInt16.ofNat d.length := UInt16.or_zero
      rw [hbyte] at hb
      rw [hlong.2, if_neg (by decide), hor]
      exact hb

theorem fills_frame (fresh : ℕ → Bytes) (hs : p.LegacySendable ver) {d : Bytes} (hd : p.data = some d)
    (o : IncomingPacket) :
    Fills (IncomingPacket.parseFrame fresh IncomingPacket.onThis) (p.partBody ver (.data d)) () o
      { o with
        streamId := StreamId.audio, seq := p.seq, data := some d
        extraEC := if p.hasExtraFEC ver then p.sentEntries else o.extraEC } := by
  have hseq := seq_of_timestamp hs.seq
  obtain ⟨hid, -, -⟩ := @dataFlags_spec ver p d
  obtain ⟨hfrag, hkey, hfec, hlen⟩ := dataLength_spec d.length (hs.data d hd) (p.hasExtraFEC ver)
  unfold IncomingPacket.parseFrame partBody
  refine (Fills.tryRead (decodes_u8 _) _).bind ((Fills.tryRead
    (decodes_dataLength d (hs.data d hd)) _).bind ((Fills.field (decodes_u32 _) _).bind
      (Fills.edit_bind ?_)))
  simp only [hid, hfrag, hkey, hfec, hlen, IncomingPacket.onThis, hseq]
  refine (Fills.onlyIf_false rfl).bind ((Fills.onlyIf_false rfl).bind
    ((fills_readData fresh d _ _).bind ?_))
  cases hx : p.hasExtraFEC ver with
  | false => exact Fills.onlyIf_false rfl
  | true =>
      have hany : p.extraEC.any = true := by
        simp only [hasExtraFEC, Bool.and_eq_true] at hx
        exact hx.2
      rw [if_pos rfl, extraECArray_bytes hany]
      exact Fills.onlyIf_true rfl ((Fills.tryRead (decodes_u8 8) _).bind
        (fills_legacyEntries hs.extraEC _))

/-- What the body of a legacy packet makes of the object. -/
def deliver (ver : VersionInfo) (p : Packet) : LegacyPart → IncomingPacket → IncomingPacket
  | .extra e, o => { o with extraSignaling := o.extraSignaling ++ [{ d := e }], streamId := 0 }
  | .ec, o => { o with streamId := p.streamId, seq := p.seq, extraEC := p.sentEntries }
  | .data d, o =>
      { o with
        streamId := StreamId.audio, seq := p.seq, data := some d
        extraEC := if p.hasExtraFEC ver then p.sentEntries else o.extraEC }
  | .nop, o => o

/-- The parts the serializer can have made. -/
def PartOk (ver : VersionInfo) (p : Packet) : LegacyPart → Prop
  | .extra e => ∃ x ∈ p.separatePackets ver, x.d = e
  | .ec => ver.peerVersion < 7 ∧ p.extraEC.any = true
  | .data d => p.data = some d
  | .nop => False

/-- **The bodies**: each part but the NOP is read by the branch of its type. -/
theorem run_partBody (fresh : ℕ → Bytes) (hs : p.LegacySendable ver) {part : LegacyPart} (hp : p.PartOk ver part)
    (o : IncomingPacket) :
    ∃ r, IncomingPacket.parseLegacyBody fresh ver (partType ver part) (o, p.partBody ver part) =
      .ok () (p.deliver ver part o, r) := by
  cases part with
  | extra e =>
      obtain ⟨x, hx, rfl⟩ := hp
      obtain ⟨hmem, htype⟩ := List.mem_filter.mp hx
      obtain ⟨r, hbody⟩ := (hs.extras x hmem).run_body
      have hchoose := Extra.chooseFromType_chooseType x.d ver.peerVersion (by simpa using htype)
      refine ⟨r, ?_⟩
      simp only [IncomingPacket.parseLegacyBody, partType, partBody, hchoose]
      exact (bind_ok (tryRead_ok hbody)).trans rfl
  | ec =>
      refine ⟨[], ?_⟩
      have hfill := (fills_streamEC hs hp.2 o).run
      have hv : decide (ver.peerVersion < 7) = true := by simpa using hp.1
      show onlyIf (decide (ver.peerVersion < 7)) _ _ = _
      rw [hv]
      exact hfill
  | data d => exact ⟨[], (fills_frame fresh hs hp o).run⟩
  | nop => exact hp.elim

/-- The parser knows no NOP packet. -/
theorem run_nop (o : IncomingPacket) (bs : Bytes) :
    IncomingPacket.parseLegacyBody fresh ver PktType.nop (o, bs) = .error .reject (o, bs) := rfl

/-! ## The packets of one packet -/

/-- The object read from the legacy packet `seq`. -/
def legacyReceived (ver : VersionInfo) (p : Packet) (seq : UInt32) (part : LegacyPart) :
    IncomingPacket := p.deliver ver part (p.afterHeader ver seq)

/-- A buffer is accepted, and this is what it is read as. -/
def Reads (fresh : ℕ → Bytes) (ver : VersionInfo) (buf : Bytes × Bool) (q : IncomingPacket) : Prop :=
  ∃ rest, IncomingPacket.parse fresh ver ({}, buf.1) = .ok () (q, rest)

theorem reads_rightUnique (fresh : ℕ → Bytes) (ver : VersionInfo) :
    Relator.RightUnique (Reads fresh ver) := by
  rintro buf q q' ⟨r, h⟩ ⟨r', h'⟩
  rw [h] at h'
  injection h' with _ h'
  exact congrArg Prod.fst h'

theorem serializePart_isLegacy (hver : ver.isLegacy = true) (ctx : HeaderContext) (seq : UInt32)
    (part : LegacyPart) :
    p.serializePart ctx ver seq part =
      p.writePacketHeaderLegacy ver seq (partType ver part) (p.allowedExtras ver) ++
        p.partBody ver part := by
  have hll : ver.isLegacyLegacy = false := by
    have h := VersionInfo.isLegacy_eq (VersionInfo.isNew_eq_false_of_isLegacy hver)
    simpa [hver] using h
  simp [serializePart, hll]

theorem reads_part (hver : ver.isLegacy = true) (hs : p.LegacySendable ver) (ctx : HeaderContext)
    (seq : UInt32) {part : LegacyPart} (hp : p.PartOk ver part) (rel : Bool) :
    Reads fresh ver (p.serializePart ctx ver seq part, rel) (p.legacyReceived ver seq part) := by
  obtain ⟨r, hr⟩ := run_partBody fresh hs hp (p.afterHeader ver seq)
  refine ⟨r, ?_⟩
  show IncomingPacket.parse fresh ver ({}, p.serializePart ctx ver seq part) = _
  rw [serializePart_isLegacy hver, run_header hver hs]
  exact hr

theorem not_reads_nop (hver : ver.isLegacy = true) (hs : p.LegacySendable ver)
    (ctx : HeaderContext) (seq : UInt32) (rel : Bool) (q : IncomingPacket) :
    ¬ Reads fresh ver (p.serializePart ctx ver seq .nop, rel) q := by
  rintro ⟨r, hr⟩
  rw [serializePart_isLegacy hver, run_header hver hs] at hr
  exact absurd hr (by rw [partType, run_nop]; simp)

/-- The buffers in closed form: the `i`-th one has the seq `i` further on. -/
theorem serializeParts_fst (ctx : HeaderContext) (parts : List LegacyPart) (seq : UInt32) :
    (p.serializeParts ctx ver seq parts).1 = parts.mapIdx fun i part =>
      (p.serializePart ctx ver (seq + UInt32.ofNat i) part, partReliable ver part) := by
  induction parts generalizing seq with
  | nil => rfl
  | cons part parts ih =>
      have hnext : ∀ i, seq + 1 + UInt32.ofNat i = seq + UInt32.ofNat (i + 1) := fun i => by
        rw [UInt32.ofNat_add, UInt32.add_assoc, UInt32.add_comm 1]
        rfl
      rw [serializeParts, List.mapIdx_cons, ih]
      simp only [hnext]
      rw [show UInt32.ofNat 0 = 0 from rfl, UInt32.add_zero]

theorem forall₂_mapIdx {α β γ : Type} {R : β → γ → Prop} {f : ℕ → α → β} {g : ℕ → α → γ}
    (l : List α) (h : ∀ i, ∀ a ∈ l, R (f i a) (g i a)) :
    List.Forall₂ R (l.mapIdx f) (l.mapIdx g) := by
  induction l generalizing f g with
  | nil => exact .nil
  | cons a l ih =>
      rw [List.mapIdx_cons, List.mapIdx_cons]
      exact .cons (h 0 a List.mem_cons_self)
        (ih fun i b hb => h (i + 1) b (List.mem_cons_of_mem _ hb))

/-- The packets as they are read, if none of them is a NOP. -/
def legacyPackets (ver : VersionInfo) (p : Packet) : List IncomingPacket :=
  (p.legacyParts ver).mapIdx fun i part =>
    p.legacyReceived ver (p.legacySeq + UInt32.ofNat i) part

theorem reads_legacyPackets (fresh : ℕ → Bytes) (hver : ver.isLegacy = true) (hs : p.LegacySendable ver)
    (ctx : HeaderContext) (hok : ∀ part ∈ p.legacyParts ver, p.PartOk ver part) :
    List.Forall₂ (Reads fresh ver) (p.serializeLegacy ctx ver).1 (p.legacyPackets ver) := by
  rw [serializeLegacy, serializeParts_fst]
  exact forall₂_mapIdx _ fun i part hp => reads_part hver hs ctx _ (hok part hp) _

/-- There is something to send besides the acknowledgement. -/
def HasParts (ver : VersionInfo) (p : Packet) : Prop :=
  p.separatePackets ver ≠ [] ∨ p.data ≠ none ∨ (ver.peerVersion < 7 ∧ p.extraEC.any = true)

theorem mem_legacyParts (h : p.HasParts ver) (part : LegacyPart) :
    part ∈ p.legacyParts ver ↔ p.PartOk ver part := by
  have hmem : part ∈ (p.separatePackets ver).map (fun x => LegacyPart.extra x.d) ++
      ((if ver.peerVersion < 7 && p.extraEC.any then [LegacyPart.ec] else []) ++
        (p.data.map LegacyPart.data).toList) ↔ p.PartOk ver part := by
    cases part <;> simp [PartOk]
  have hne : ((p.separatePackets ver).map (fun x => LegacyPart.extra x.d) ++
      ((if ver.peerVersion < 7 && p.extraEC.any then [LegacyPart.ec] else []) ++
        (p.data.map LegacyPart.data).toList)).isEmpty = false := by
    rcases h with h | h | h
    · simp [h]
    · simp [h]
    · simp [h]
  rw [legacyParts]
  simp only [hne, Bool.false_eq_true, if_false]
  exact hmem

theorem legacyParts_nop (h : ¬ p.HasParts ver) : p.legacyParts ver = [.nop] := by
  simp only [HasParts, not_or, not_not, not_and, Bool.not_eq_true] at h
  obtain ⟨hsep, hdata, hec⟩ := h
  have hec' : (decide (ver.peerVersion < 7) && p.extraEC.any) = false := by
    by_cases hv : ver.peerVersion < 7
    · simp [hec hv]
    · simp [hv]
  simp [legacyParts, hsep, hdata, hec']

/-! ## The delivery -/

/-- **What the legacy format owes**: every buffer is accepted, as a packet
with the next legacy seq and the acknowledgement of `p`, and together the
packets carry the contents of `p`. -/
structure LegacyDelivery (fresh : ℕ → Bytes) (ctx : HeaderContext) (ver : VersionInfo) (p : Packet)
    (qs : List IncomingPacket) : Prop where
  accepted : List.Forall₂ (Reads fresh ver) (p.serializeLegacy ctx ver).1 qs
  numbered : ∀ i q, qs[i]? = some q →
    q.legacySeq = p.legacySeq + UInt32.ofNat i ∧ q.ackSeq = p.ackSeq ∧ q.ackMask = p.ackMask
  data : ∀ d, p.data = some d → ∃ q ∈ qs, q.data = some d ∧ q.seq = p.seq
  extraEC : ∀ i, p.extraEC.has i = true →
    ∃ q ∈ qs, (q.extraEC i).getD [] = (p.extraEC i).getD [] ∧ q.seq = p.seq
  extras : ∀ x ∈ p.extraSignaling, ∃ q ∈ qs, ∃ y ∈ q.extraSignaling, y.d = x.d

/-- What the parser can be given: not a NOP packet, and redundant frames
only in a form it reads, which from version 7 on is behind the data. -/
structure Deliverable (ver : VersionInfo) (p : Packet) : Prop where
  parts : p.HasParts ver
  extraEC : p.extraEC.any = true → p.data ≠ none ∨ ver.peerVersion < 7

theorem legacyReceived_numbered (seq : UInt32) (part : LegacyPart) :
    (p.legacyReceived ver seq part).legacySeq = seq ∧
      (p.legacyReceived ver seq part).ackSeq = p.ackSeq ∧
      (p.legacyReceived ver seq part).ackMask = p.ackMask := by
  cases part <;> exact ⟨rfl, rfl, rfl⟩

/-- Each part of the packet is read from one of the buffers. -/
theorem exists_legacyReceived (h : p.HasParts ver) (part : LegacyPart) (hp : p.PartOk ver part) :
    ∃ seq, p.legacyReceived ver seq part ∈ p.legacyPackets ver := by
  obtain ⟨i, hi, rfl⟩ := List.mem_iff_getElem.mp ((mem_legacyParts h part).mpr hp)
  exact ⟨p.legacySeq + UInt32.ofNat i, List.mem_mapIdx.mpr ⟨i, hi, rfl⟩⟩

/-- The extras of the headers arrive with every part. -/
theorem mem_received_of_allowed {x : WrappedExtra} (hx : x ∈ p.allowedExtras ver) (seq : UInt32)
    (part : LegacyPart) : ∃ y ∈ (p.legacyReceived ver seq part).extraSignaling, y.d = x.d := by
  have hmem : WrappedExtra.received ver x.d ∈ (p.afterHeader ver seq).extraSignaling :=
    List.mem_map.mpr ⟨x, hx, rfl⟩
  refine ⟨WrappedExtra.received ver x.d, ?_, rfl⟩
  cases part with
  | extra e => exact List.mem_append_left _ hmem
  | ec => exact hmem
  | data d => exact hmem
  | nop => exact hmem

theorem has_imp_any {v : Entries} {i : Fin 8} (h : v.has i = true) : v.any = true :=
  List.any_eq_true.mpr ⟨i, List.mem_finRange i, h⟩

theorem legacyPackets_data (h : p.HasParts ver) {d : Bytes} (hd : p.data = some d) :
    ∃ q ∈ p.legacyPackets ver, q.data = some d ∧ q.seq = p.seq := by
  obtain ⟨seq, hmem⟩ := exists_legacyReceived h (.data d) hd
  exact ⟨_, hmem, rfl, rfl⟩

theorem legacyPackets_extraEC (h : p.Deliverable ver) {i : Fin 8} (hi : p.extraEC.has i = true) :
    ∃ q ∈ p.legacyPackets ver, (q.extraEC i).getD [] = (p.extraEC i).getD [] ∧ q.seq = p.seq := by
  have hany := has_imp_any hi
  by_cases hv : ver.peerVersion < 7
  · obtain ⟨seq, hmem⟩ := exists_legacyReceived h.parts .ec ⟨hv, hany⟩
    exact ⟨_, hmem, rfl, rfl⟩
  · obtain ⟨d, hd⟩ := Option.ne_none_iff_exists'.mp ((h.extraEC hany).resolve_right hv)
    have hfec : p.hasExtraFEC ver = true := by simp [hasExtraFEC, hany, Int.not_lt.mp hv]
    obtain ⟨seq, hmem⟩ := exists_legacyReceived h.parts (.data d) hd
    refine ⟨_, hmem, ?_, rfl⟩
    simp [legacyReceived, deliver, hfec, sentEntries]

theorem legacyPackets_extras (h : p.HasParts ver) {x : WrappedExtra} (hx : x ∈ p.extraSignaling) :
    ∃ q ∈ p.legacyPackets ver, ∃ y ∈ q.extraSignaling, y.d = x.d := by
  cases hsep : x.d.chooseType ver.peerVersion != PktType.nop with
  | true =>
      have hpart : p.PartOk ver (.extra x.d) := ⟨x, List.mem_filter.mpr ⟨hx, hsep⟩, rfl⟩
      obtain ⟨seq, hmem⟩ := exists_legacyReceived h _ hpart
      exact ⟨_, hmem, { d := x.d }, List.mem_append_right _ (List.mem_singleton_self _), rfl⟩
  | false =>
      have hallowed : x ∈ p.allowedExtras ver := List.mem_filter.mpr ⟨hx, by rw [hsep]; rfl⟩
      obtain ⟨part, hp⟩ : ∃ part, part ∈ p.legacyParts ver := by
        rcases h with h | h | h
        · obtain ⟨y, hy⟩ := List.exists_mem_of_ne_nil _ h
          exact ⟨.extra y.d, (mem_legacyParts (.inl h) _).mpr ⟨y, hy, rfl⟩⟩
        · obtain ⟨d, hd⟩ := Option.ne_none_iff_exists'.mp h
          exact ⟨.data d, (mem_legacyParts (.inr (.inl h)) _).mpr hd⟩
        · exact ⟨.ec, (mem_legacyParts (.inr (.inr h)) _).mpr h⟩
      obtain ⟨seq, hmem⟩ := exists_legacyReceived h _ ((mem_legacyParts h part).mp hp)
      exact ⟨_, hmem, mem_received_of_allowed hallowed seq part⟩

/-- Without a data packet, no packet of a version from 7 on has redundant frames. -/
theorem legacyPackets_extraEC_none (hd : p.data = none) (hv : ¬ ver.peerVersion < 7)
    (h : p.HasParts ver) {q : IncomingPacket} (hq : q ∈ p.legacyPackets ver) (i : Fin 8) :
    q.extraEC i = none := by
  obtain ⟨j, hj, rfl⟩ := List.mem_mapIdx.mp hq
  have hok := (mem_legacyParts h _).mp (List.getElem_mem hj)
  generalize (p.legacyParts ver)[j] = part at hok
  cases part with
  | extra e => rfl
  | ec => exact absurd hok.1 hv
  | data d => exact absurd (hd.symm.trans hok) (by simp)
  | nop => exact hok.elim

/-- **The legacy format, exactly**: an audio packet is delivered if and only if
it does not come down to a NOP, and has its redundant frames in a place
the parser looks at. -/
theorem legacy_delivery_iff (fresh : ℕ → Bytes) (ctx : HeaderContext) (ver : VersionInfo)
    (p : Packet) (hver : ver.isLegacy = true) (hs : p.LegacySendable ver) :
    (∃ qs, LegacyDelivery fresh ctx ver p qs) ↔ p.Deliverable ver := by
  constructor
  · rintro ⟨qs, hqs⟩
    have hparts : p.HasParts ver := by
      by_contra hno
      have hacc := hqs.accepted
      rw [serializeLegacy, legacyParts_nop hno] at hacc
      cases hacc with
      | cons hread _ => exact not_reads_nop hver hs ctx _ _ _ hread
    refine ⟨hparts, fun hany => ?_⟩
    by_contra hno
    obtain ⟨hd, hv⟩ := not_or.mp hno
    have hall := reads_legacyPackets fresh hver hs ctx
      fun part hp => (mem_legacyParts hparts part).mp hp
    have hqs' : qs = p.legacyPackets ver :=
      List.right_unique_forall₂' (reads_rightUnique fresh ver) hqs.accepted hall
    obtain ⟨i, -, hi⟩ := List.any_eq_true.mp hany
    obtain ⟨q, hq, hentry, -⟩ := hqs.extraEC i hi
    rw [hqs'] at hq
    rw [legacyPackets_extraEC_none (not_not.mp hd) hv hparts hq i] at hentry
    simp [Entries.has, ← hentry] at hi
  · intro h
    refine ⟨p.legacyPackets ver, ?_, ?_, ?_, ?_, ?_⟩
    · exact reads_legacyPackets _ hver hs ctx fun part hp => (mem_legacyParts h.parts part).mp hp
    · intro i q hq
      rw [legacyPackets, List.getElem?_mapIdx] at hq
      obtain ⟨part, -, rfl⟩ := Option.map_eq_some_iff.mp hq
      exact legacyReceived_numbered _ part
    · exact fun d hd => legacyPackets_data h.parts hd
    · exact fun i hi => legacyPackets_extraEC h hi
    · exact fun x hx => legacyPackets_extras h.parts hx

/-- Data with a redundant frame and a ping, to a peer of version 9. -/
theorem legacy_delivery_voice :
    (∃ qs, LegacyDelivery (fun n => List.replicate n 0)
        { callID := Vector.replicate 16 0, state := .established
          random := fun _ => Vector.replicate 15 0 } ⟨9, 92⟩
        { legacySeq := 5, seq := 3, streamId := 1, data := some [1, 2, 3]
          extraEC := fun _ => some [4], extraSignaling := [{ d := .ping }] } qs) ↔
      Deliverable ⟨9, 92⟩
        { legacySeq := 5, seq := 3, streamId := 1, data := some [1, 2, 3]
          extraEC := fun _ => some [4], extraSignaling := [{ d := .ping }] } :=
  legacy_delivery_iff _ _ _ _ (by decide)
    { stream := rfl
      data := fun d h => by cases h; decide
      seq := by decide
      extraEC := by decide
      count := by decide
      extras := fun x hx => by
        rw [List.mem_singleton.mp hx]
        exact ⟨_, _, rfl, rfl⟩ }

/-- The ack-only packet: its NOP is refused. -/
theorem legacy_delivery_fails :
    VersionInfo.isLegacy ⟨9, 92⟩ = true ∧
      LegacySendable ⟨9, 92⟩ { seq := 1, streamId := 1, ackSeq := 7 } ∧
      ¬ ∃ qs, LegacyDelivery (fun n => List.replicate n 0)
        { callID := Vector.replicate 16 0, state := .established
          random := fun _ => Vector.replicate 15 0 } ⟨9, 92⟩
        { seq := 1, streamId := 1, ackSeq := 7 } qs := by
  refine ⟨by decide, {
    stream := rfl
    data := fun d h => by cases h
    seq := by decide
    extraEC := by decide
    count := by decide
    extras := fun x hx => by cases hx }, ?_⟩
  rintro ⟨qs, hqs⟩
  cases hqs.accepted with
  | cons hread _ =>
    obtain ⟨r, hr⟩ := hread
    cases hr

end Packet

end Tgvoip
