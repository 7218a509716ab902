import Tgvoip.Packets.LegacyRoundTrip

/-!
# OldestHeader — the header of the oldest format, written and read

`writePacketHeaderLegacyLegacy` has two framings. Once the call is up, the
header is a `TLID_SIMPLE_AUDIO_BLOCK`, and the parser takes back all of it.
Before, it is a `TLID_DECRYPTED_AUDIO_BLOCK` with the id of the call in it,
and the code that would read the id is commented out: the parser takes the
id for the numbers, and what follows it for the rest.
-/

namespace Tgvoip

open ByteReader ObjectParser Packet

namespace IncomingPacket

/-- `parseLegacy` up to the body: the type of the packet. -/
def parseLegacyFront (ver : VersionInfo) : Parse IncomingPacket UInt8 := do
  edit fun p => { p with legacy := true }
  let h ← parseLegacyHeader ver
  edit fun p => { p with legacySeq := h.pseq, ackSeq := h.ackId, ackMask := h.acks }
  onlyIf (h.pflags &&& Xpflag.hasExtra != 0)
    (field (parseArray (WrappedExtra.parse ver)) fun xs p =>
      { p with extraSignaling := p.extraSignaling ++ xs })
  onlyIf (h.pflags &&& Xpflag.hasRecvTS != 0) (field u32 fun x p => { p with recvTS := x })
  pure h.type

theorem parseLegacy_eq (fresh : ℕ → Bytes) (ver : VersionInfo) :
    parseLegacy fresh ver = parseLegacyFront ver >>= parseLegacyBody fresh ver := by
  unfold parseLegacy parseLegacyFront
  simp only [bind_assoc, pure_bind]

end IncomingPacket

section Header

variable {σ : Type} {o : σ}

/-! ## The simple audio block -/

theorem exists_decodes_tlLength (length : ℕ) :
    ∃ len, Decodes tlLength (tlLengthBytes length) len := by
  unfold tlLengthBytes
  split
  · rename_i hshort
    have hl : UInt8.ofNat length < 254 := by
      rw [UInt8.lt_iff_toNat_lt, UInt8.toNat_ofNat']
      show length % 2 ^ 8 < 254
      omega
    refine ⟨(UInt8.ofNat length).toUInt32, ?_⟩
    intro rest
    show (if UInt8.ofNat length < 254 then _ else _ : Reader UInt32).run rest = _
    rw [if_pos hl]
    rfl
  · exact ⟨_, fun _ => rfl⟩

/-- The random bytes, of which there are seven. -/
theorem fills_skipString {randBytes : Bytes} (h : randBytes.length = 7) :
    Fills skipString (([7] : Bytes) ++ randBytes) () o o := by
  have hlen : Decodes tlLength [7] 7 := fun _ => rfl
  have hskip : Decodes (bytes ((7 : UInt32).toNat + pad4 (7 : UInt32).toNat)) randBytes randBytes := by
    have hseven : (7 : UInt32).toNat + pad4 (7 : UInt32).toNat = randBytes.length := h.symm
    rw [hseven]
    exact decodes_bytes randBytes
  exact (Fills.read hlen o).bind ((Fills.read hskip o).last fun _ => ())

/-- The numbers of a header, for any object the parser fills. -/
theorem fills_simpleAudioBlock {randomID randBytes : Bytes} (hid : randomID.length = 8)
    (hrand : randBytes.length = 7) (length : ℕ) (type flags : UInt8) (ackSeq seq ackMask : UInt32)
    (peerVersion : Int) :
    Fills (parseLegacyLegacy peerVersion)
      (le32 tlidSimpleAudioBlock ++ (randomID ++ ((([7] : Bytes) ++ randBytes) ++
        (tlLengthBytes length ++ ([type] ++ (le32 ackSeq ++ (le32 seq ++ (le32 ackMask ++
          if peerVersion ≥ 6 then [flags] else []))))))))
      { type, ackId := ackSeq, pseq := seq, acks := ackMask
        pflags := if peerVersion ≥ 6 then flags else 0 } o o := by
  obtain ⟨len, hlen⟩ := exists_decodes_tlLength length
  have hidread : Decodes (bytes 8) randomID randomID := by
    rw [← hid]
    exact decodes_bytes randomID
  have hflags : Decodes (if peerVersion ≥ 6 then u8 else pure 0)
      (if peerVersion ≥ 6 then [flags] else []) (if peerVersion ≥ 6 then flags else 0) := by
    split
    · exact decodes_u8 flags
    · exact Decodes.pure 0
  unfold parseLegacyLegacy
  apply (Fills.read (decodes_u32 tlidSimpleAudioBlock) o).bind
  rw [if_neg (by decide), if_pos rfl]
  unfold parseSimpleAudioBlock
  apply (Fills.read hidread o).bind
  apply (fills_skipString hrand).bind
  apply (Fills.read hlen o).bind
  apply (Fills.read (decodes_u8 type) o).bind
  apply (Fills.read (decodes_u32 ackSeq) o).bind
  apply (Fills.read (decodes_u32 seq) o).bind
  apply (Fills.read (decodes_u32 ackMask) o).bind
  exact (Fills.read hflags o).last _

/-! ## The decrypted audio block -/

/-- The flags of the header. -/
def blockFlags (length : ℕ) (type : UInt8) : UInt32 :=
  LegacyPflag.hasRecentRecv ||| LegacyPflag.hasSeq |||
    (if length > 0 then LegacyPflag.hasData else 0) |||
    (LegacyPflag.hasCallID ||| LegacyPflag.hasProto) ||| (type.toUInt32 <<< 24)

/-- No extras are announced: the type is in the upper bits. -/
theorem blockFlags_hasExtra (length : ℕ) (type : UInt8) :
    blockFlags length type &&& LegacyPflag.hasExtra = 0 := by
  apply BitMask.ext
  intro i hi
  have hshift : (24 : UInt32).toNat = 24 := rfl
  have hmask : BitMask.bit LegacyPflag.hasExtra i = decide (i = 1) :=
    BitMask.bit_one_shiftLeft 1 (by decide) i
  rw [BitMask.bit_and, hmask, BitMask.bit_zero]
  by_cases h : i = 1
  · subst h
    unfold blockFlags
    rw [BitMask.bit_or, BitMask.bit_shiftLeft _ _ (by decide), hshift]
    split <;> rfl
  · simp [h]

theorem atMost_tlLength : AtMost (read tlLength : Parse σ UInt32) 4 := by
  apply AtMost.read
  intro bs a rest h
  match bs with
  | [] => cases h
  | l :: bs =>
    have hrun : (if l < 254 then some (l.toUInt32, bs) else
        (do let a ← u8; let b ← u8; let c ← u8
            pure (a.toUInt32 ||| (b.toUInt32 <<< 8) ||| (c.toUInt32 <<< 16)) :
          Reader UInt32).run bs) = some (a, rest) := by
      rw [← h]
      show _ = (if l < 254 then _ else _ : Reader UInt32).run bs
      split <;> rfl
    split at hrun
    · cases hrun
      simp only [List.length_cons]
      omega
    · match bs with
      | x :: y :: z :: bs =>
        cases hrun
        simp only [List.length_cons]
        omega

/-- Behind the flags, the parser takes at most twenty bytes. -/
theorem atMost_blockNumbers (flags : UInt32) :
    AtMost (do
      let ackId ← read u32
      let pseq ← read u32
      let acks ← read u32
      onlyIf (flags &&& LegacyPflag.hasProto != 0) do
        let proto ← read u32
        refuseIf (proto != protocolName)
      onlyIf false skipString
      onlyIf (flags &&& LegacyPflag.hasData != 0) do
        let _ ← read tlLength
        pure ()
      pure { type := (flags >>> 24).toUInt8, ackId, pseq, acks, pflags := 0 } :
      Parse σ LegacyHeader) 20 := by
  have hword : AtMost (read u32 : Parse σ UInt32) 4 := by
    apply AtMost.read
    intro bs a rest h
    have htakes : bs.length = 4 + rest.length := takes_u32 bs a rest h
    omega
  have hproto : AtMost (onlyIf (flags &&& LegacyPflag.hasProto != 0) (do
      let proto ← read u32
      refuseIf (proto != protocolName)) : Parse σ Unit) 4 :=
    AtMost.onlyIf (hword.bind fun _ => AtMost.refuseIf _)
  have hlength : AtMost (onlyIf (flags &&& LegacyPflag.hasData != 0) (do
      let _ ← read tlLength
      pure ()) : Parse σ Unit) 4 :=
    AtMost.onlyIf (atMost_tlLength.bind fun _ => AtMost.pure ())
  exact hword.bind fun _ => hword.bind fun _ => hword.bind fun _ => hproto.bind fun _ =>
    (AtMost.pure ()).bind fun _ => hlength.bind fun _ => AtMost.pure _

/-- The id of the call takes the place of what is read behind the flags: what
is left is longer than the body. -/
theorem decryptedAudioBlock_shifted {randomID randBytes callID numbers body rest : Bytes}
    {h : LegacyHeader} {o' : σ} (hid : randomID.length = 8) (hrand : randBytes.length = 7)
    (hcall : callID.length = 16) (hnumbers : 16 ≤ numbers.length) (length : ℕ) (type : UInt8)
    (peerVersion : Int)
    (hrun : parseLegacyLegacy peerVersion (o, le32 tlidDecryptedAudioBlock ++ (randomID ++
      ((([7] : Bytes) ++ randBytes) ++ (le32 (blockFlags length type) ++
        (callID ++ (numbers ++ body)))))) = .ok h (o', rest)) :
    body.length < rest.length := by
  have hidread : Decodes (bytes 8) randomID randomID := by
    rw [← hid]
    exact decodes_bytes randomID
  unfold parseLegacyLegacy at hrun
  rw [(Fills.read (decodes_u32 tlidDecryptedAudioBlock) o).run_bind, if_pos rfl] at hrun
  unfold parseDecryptedAudioBlock at hrun
  rw [(Fills.read hidread o).run_bind, (fills_skipString hrand).run_bind,
    (Fills.read (decodes_u32 (blockFlags length type)) o).run_bind] at hrun
  have hextra : (blockFlags length type &&& LegacyPflag.hasExtra != 0) = false := by
    rw [blockFlags_hasExtra]
    rfl
  rw [hextra] at hrun
  have hmost := (AtMost.refuseIf _).bind (fun _ => atMost_blockNumbers (blockFlags length type))
    o o' _ rest h hrun
  simp only [List.length_append, hcall] at hmost
  omega

end Header

/-! ## The round trip -/

/-- Whether the header is written as before the call is up. -/
def HeaderContext.waiting (ctx : HeaderContext) : Bool :=
  ctx.state == .waitInit || ctx.state == .waitInitAck

namespace Packet

/-- The extras the header carries. -/
def carriedExtras (ctx : HeaderContext) (ver : VersionInfo) (extras : List WrappedExtra) :
    List WrappedExtra :=
  if !ctx.waiting && decide (ver.peerVersion ≥ 6) then extras else []

/-- The flags in front of them. -/
def extrasFlag (extras : List WrappedExtra) : UInt8 := if extras.isEmpty then 0 else Xpflag.hasExtra

def extrasBytes (ver : VersionInfo) (extras : List WrappedExtra) : Bytes :=
  if !extras.isEmpty then serializeArray (WrappedExtra.serialize ver) extras else []

/-- The header of the packet `seq`, in front of a body, is read as it was
written: the numbers up to the extras, and all of it up to the body. -/
structure HeaderRoundTrip (ctx : HeaderContext) (ver : VersionInfo) (p : Packet) (seq : UInt32)
    (type : UInt8) (extras : List WrappedExtra) (body : Bytes) : Prop where
  numbers : parseLegacyLegacy ver.peerVersion (({} : IncomingPacket),
      p.writePacketHeaderLegacyLegacy ctx ver seq type body.length extras ++ body) =
    .ok { type, ackId := p.ackSeq, pseq := seq, acks := p.ackMask
          pflags := extrasFlag (carriedExtras ctx ver extras) }
      ({}, extrasBytes ver (carriedExtras ctx ver extras) ++ body)
  front : IncomingPacket.parseLegacyFront ver
      ({}, p.writePacketHeaderLegacyLegacy ctx ver seq type body.length extras ++ body) =
    .ok type
      ({ legacy := true, legacySeq := seq, ackSeq := p.ackSeq, ackMask := p.ackMask
         extraSignaling := (carriedExtras ctx ver extras).map fun x =>
           WrappedExtra.received ver x.d }, body)

section
variable {ctx : HeaderContext} {ver : VersionInfo} {p : Packet} {seq : UInt32} {type : UInt8}
  {extras : List WrappedExtra}

/-- The eight random bytes and the seven. -/
theorem length_random (ctx : HeaderContext) (seq : UInt32) :
    ((ctx.random seq).toList.take 8).length = 8 ∧ ((ctx.random seq).toList.drop 8).length = 7 := by
  simp

/-- The numbers of a simple audio block. -/
def simpleNumbers (ctx : HeaderContext) (ver : VersionInfo) (p : Packet) (seq : UInt32)
    (type : UInt8) (length : ℕ) (extras : List WrappedExtra) : Bytes :=
  le32 tlidSimpleAudioBlock ++ ((ctx.random seq).toList.take 8 ++
    ((([7] : Bytes) ++ (ctx.random seq).toList.drop 8) ++ (tlLengthBytes (length + 13) ++
      ([type] ++ (le32 p.ackSeq ++ (le32 seq ++ (le32 p.ackMask ++
        if ver.peerVersion ≥ 6 then [extrasFlag extras] else [])))))))

theorem header_simple (hctx : ctx.waiting = false) (length : ℕ) :
    p.writePacketHeaderLegacyLegacy ctx ver seq type length extras =
      simpleNumbers ctx ver p seq type length extras ++
        extrasBytes ver (carriedExtras ctx ver extras) := by
  have hstate : (ctx.state == .waitInit || ctx.state == .waitInitAck) = false := hctx
  unfold writePacketHeaderLegacyLegacy simpleNumbers carriedExtras extrasFlag extrasBytes
  simp only [hstate, hctx, Bool.not_false, Bool.true_and, decide_eq_true_eq]
  by_cases hv : ver.peerVersion ≥ 6
  · cases extras with
    | nil => simp [hv]
    | cons x xs => simp [hv]
  · simp [hv]

/-- The numbers are taken back, whatever follows and whatever is filled. -/
theorem fills_simpleNumbers {σ : Type} (o : σ) (hctx : ctx.waiting = false) (length : ℕ) :
    Fills (parseLegacyLegacy ver.peerVersion) (simpleNumbers ctx ver p seq type length extras)
      { type, ackId := p.ackSeq, pseq := seq, acks := p.ackMask
        pflags := extrasFlag (carriedExtras ctx ver extras) } o o := by
  have hfill := fills_simpleAudioBlock (o := o) (length_random ctx seq).1 (length_random ctx seq).2
    (length + 13) type (extrasFlag extras) p.ackSeq seq p.ackMask ver.peerVersion
  have hflag : extrasFlag (carriedExtras ctx ver extras) =
      if ver.peerVersion ≥ 6 then extrasFlag extras else 0 := by
    unfold carriedExtras
    rw [hctx]
    by_cases hv : ver.peerVersion ≥ 6 <;> simp [hv, extrasFlag]
  rw [hflag]
  exact hfill

theorem parseLegacyHeader_oldest (hver : ver.isLegacyLegacy = true) (hnew : ver.isNew = false) :
    IncomingPacket.parseLegacyHeader ver = parseLegacyLegacy ver.peerVersion := by
  have hlegacy : ver.isLegacy = false := by
    rw [VersionInfo.isLegacy_eq hnew, hver]
    rfl
  unfold IncomingPacket.parseLegacyHeader
  rw [hlegacy]
  rfl

theorem extrasFlag_spec (extras : List WrappedExtra) :
    (extrasFlag extras &&& Xpflag.hasExtra != 0) = !extras.isEmpty ∧
      (extrasFlag extras &&& Xpflag.hasRecvTS != 0) = false := by
  unfold extrasFlag
  cases extras.isEmpty <;> decide

/-- Behind the numbers, the front reads the extras the flag announces. -/
theorem run_front (hver : ver.isLegacyLegacy = true) (hnew : ver.isNew = false)
    (hctx : ctx.waiting = false) (body : Bytes) :
    IncomingPacket.parseLegacyFront ver
        ({}, p.writePacketHeaderLegacyLegacy ctx ver seq type body.length extras ++ body) =
      (onlyIf (!(carriedExtras ctx ver extras).isEmpty)
          (field (parseArray (WrappedExtra.parse ver)) fun xs (p : IncomingPacket) =>
            { p with extraSignaling := p.extraSignaling ++ xs }) >>= fun _ => pure type)
        ({ legacy := true, legacySeq := seq, ackSeq := p.ackSeq, ackMask := p.ackMask },
          extrasBytes ver (carriedExtras ctx ver extras) ++ body) := by
  unfold IncomingPacket.parseLegacyFront
  rw [edit_bind, parseLegacyHeader_oldest hver hnew, header_simple hctx, List.append_assoc,
    (fills_simpleNumbers _ hctx body.length).run_bind, edit_bind]
  obtain ⟨hx, hts⟩ := extrasFlag_spec (carriedExtras ctx ver extras)
  simp only [hx, hts]
  rfl

/-- A header of a call that is up, with room for its extras. -/
theorem headerRoundTrip_simple (hver : ver.isLegacyLegacy = true) (hnew : ver.isNew = false)
    (hx : ∀ x ∈ extras, Tgvoip.RoundTrips ver x.d) (hctx : ctx.waiting = false)
    (hcount : ver.peerVersion ≥ 6 → extras.length ≤ 255) (body : Bytes) :
    HeaderRoundTrip ctx ver p seq type extras body where
  numbers := by
    rw [header_simple hctx, List.append_assoc]
    exact fills_simpleNumbers _ hctx body.length _
  front := by
    have hcarried : (carriedExtras ctx ver extras).length ≤ 255 ∧
        ∀ x ∈ carriedExtras ctx ver extras, Tgvoip.RoundTrips ver x.d := by
      unfold carriedExtras
      by_cases hv : ver.peerVersion ≥ 6
      · simpa [hctx, hv] using ⟨hcount hv, hx⟩
      · simp [hv]
    rw [run_front hver hnew hctx]
    exact (fills_extras _ hcarried.1 hcarried.2 rfl).run_bind body

/-- Before the call is up, what is left behind the numbers is too long. -/
theorem not_headerRoundTrip_waiting (hctx : ctx.waiting = true) (body : Bytes) :
    ¬ HeaderRoundTrip ctx ver p seq type extras body := by
  intro h
  have hnone : carriedExtras ctx ver extras = [] := by
    unfold carriedExtras
    rw [hctx]
    rfl
  have hstate : (ctx.state == .waitInit || ctx.state == .waitInitAck) = true := hctx
  have hbytes : p.writePacketHeaderLegacyLegacy ctx ver seq type body.length extras ++ body =
      le32 tlidDecryptedAudioBlock ++ ((ctx.random seq).toList.take 8 ++
        ((([7] : Bytes) ++ (ctx.random seq).toList.drop 8) ++
          (le32 (blockFlags body.length type) ++ (ctx.callID.toList ++
            ((le32 p.ackSeq ++ (le32 seq ++ (le32 p.ackMask ++ (le32 protocolName ++
              if body.length > 0 then tlLengthBytes body.length else [])))) ++ body))))) := by
    unfold writePacketHeaderLegacyLegacy blockFlags
    simp only [hstate, if_true, List.append_assoc]
  have hnumbers := h.numbers
  rw [hnone, hbytes] at hnumbers
  have hlong := decryptedAudioBlock_shifted (length_random ctx seq).1 (length_random ctx seq).2
    (by simp) (by simp only [List.length_append, length_le32]; omega) body.length type
    ver.peerVersion hnumbers
  exact Nat.lt_irrefl _ hlong

/-- Of more than 255 extras the count wraps, and some stay in front of the
body. -/
theorem not_headerRoundTrip_many (hver : ver.isLegacyLegacy = true) (hnew : ver.isNew = false)
    (hx : ∀ x ∈ extras, Tgvoip.RoundTrips ver x.d) (hctx : ctx.waiting = false)
    (hv : ver.peerVersion ≥ 6) (hmany : 255 < extras.length) (body : Bytes) :
    ¬ HeaderRoundTrip ctx ver p seq type extras body := by
  intro h
  have hcarried : carriedExtras ctx ver extras = extras := by simp [carriedExtras, hctx, hv]
  have hne : extras.isEmpty = false := by
    cases extras with
    | nil => simp at hmany
    | cons x xs => rfl
  set k := extras.length % 256 with hk
  have hklt : k < 256 := Nat.mod_lt _ (by decide)
  have hcounted : (extras.take k).length = k := by
    rw [List.length_take]
    omega
  -- the array that is read: as many as the count byte says
  have hbytes : extrasBytes ver extras ++ body =
      serializeArray (WrappedExtra.serialize ver) (extras.take k) ++
        ((extras.drop k).flatMap (WrappedExtra.serialize ver) ++ body) := by
    have hbyte : UInt8.ofNat k = UInt8.ofNat extras.length := by
      apply UInt8.toNat_inj.mp
      rw [UInt8.toNat_ofNat', UInt8.toNat_ofNat', hk, Nat.mod_mod]
    have hsplit := congrArg (List.flatMap (WrappedExtra.serialize ver))
      (List.take_append_drop k extras)
    rw [List.flatMap_append] at hsplit
    simp only [extrasBytes, hne, serializeArray, hcounted, hbyte, ← hsplit]
    simp
  have hread := decodes_receivedArray (v := extras.take k) (by omega)
    fun x hmem => hx x (List.mem_of_mem_take hmem)
  have hfront := h.front
  rw [run_front hver hnew hctx, hcarried, hbytes, hne] at hfront
  have hfill := Fills.onlyIf_true (c := true) rfl (Fills.field
    (g := fun xs (p : IncomingPacket) => { p with extraSignaling := p.extraSignaling ++ xs }) hread
    { legacy := true, legacySeq := seq, ackSeq := p.ackSeq, ackMask := p.ackMask })
  rw [Bool.not_false, hfill.run_bind, pure_run] at hfront
  injection hfront with _ hstate
  have hrest : (extras.drop k).flatMap (WrappedExtra.serialize ver) ++ body = body :=
    congrArg Prod.snd hstate
  have hnil := List.append_left_eq_self.mp hrest
  obtain ⟨x, xs, hdrop⟩ : ∃ x xs, extras.drop k = x :: xs := by
    apply List.exists_cons_of_length_pos
    rw [List.length_drop]
    omega
  rw [hdrop, List.flatMap_cons] at hnil
  cases hnil

end

/-- **The round trip of the oldest header**: it holds once the call is up,
of at most 255 extras where the header carries them. -/
theorem oldestHeader_roundTrip_iff (ctx : HeaderContext) (ver : VersionInfo) (p : Packet)
    (seq : UInt32) (type : UInt8) (extras : List WrappedExtra) (body : Bytes)
    (hver : ver.isLegacyLegacy = true) (hnew : ver.isNew = false)
    (hx : ∀ x ∈ extras, Tgvoip.RoundTrips ver x.d) :
    HeaderRoundTrip ctx ver p seq type extras body ↔
      (ctx.state ≠ .waitInit ∧ ctx.state ≠ .waitInitAck) ∧
        (ver.peerVersion ≥ 6 → extras.length ≤ 255) := by
  have hup : (ctx.state ≠ .waitInit ∧ ctx.state ≠ .waitInitAck) ↔ ctx.waiting = false := by
    unfold HeaderContext.waiting
    rw [Bool.or_eq_false_iff, beq_eq_false_iff_ne, beq_eq_false_iff_ne]
  rw [hup]
  constructor
  · intro h
    have hctx : ctx.waiting = false := by
      by_contra hwait
      exact not_headerRoundTrip_waiting (Bool.not_eq_false _ ▸ hwait) body h
    refine ⟨hctx, fun hv => ?_⟩
    by_contra hmany
    exact not_headerRoundTrip_many hver hnew hx hctx hv (Nat.not_le.mp hmany) body h
  · rintro ⟨hctx, hcount⟩
    exact headerRoundTrip_simple hver hnew hx hctx hcount body

/-- A ping rides in the header to a peer of version 6. -/
theorem oldestHeader_roundTrip_ping :
    HeaderRoundTrip
        { callID := Vector.replicate 16 0, state := .established
          random := fun _ => Vector.replicate 15 0 }
        ⟨6, 92⟩ { ackSeq := 7, ackMask := 1 } 3 PktType.nop [{ d := .ping }] [] ↔
      ((CallState.established ≠ .waitInit ∧ CallState.established ≠ .waitInitAck) ∧
        ((6 : Int) ≥ 6 → [({ d := .ping } : WrappedExtra)].length ≤ 255)) :=
  oldestHeader_roundTrip_iff _ _ _ _ _ _ _ (by decide) (by decide) fun x hx => by
    rw [List.mem_singleton.mp hx]
    exact ⟨_, _, rfl, rfl⟩

/-- The init packet of the oldest format: the id of the call is taken for the
numbers. -/
theorem oldestHeader_roundTrip_fails :
    VersionInfo.isLegacyLegacy ⟨6, 74⟩ = true ∧ VersionInfo.isNew ⟨6, 74⟩ = false ∧
      ¬ HeaderRoundTrip
        { callID := Vector.replicate 16 0, state := .waitInit
          random := fun _ => Vector.replicate 15 0 }
        ⟨6, 74⟩ { ackSeq := 0, ackMask := 0 } 1 PktType.init [] [1, 2, 3] := by
  refine ⟨by decide, by decide, fun h => ?_⟩
  exact not_headerRoundTrip_waiting rfl _ h

end Packet

end Tgvoip
