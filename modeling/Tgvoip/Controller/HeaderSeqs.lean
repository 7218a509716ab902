import Tgvoip.Packets.SeqTranslation
import Tgvoip.Packets.OldestHeader
import Tgvoip.Controller.LegacySeqs
import Tgvoip.Controller.StreamTable

/-!
# HeaderSeqs — no header seq is used twice

In the legacy formats one number space serves all streams: the seqs of the
Signaling stream. A call of `SendPacket` takes its first number from the
manager, the serializer counts on from there, and the caller writes back
where the count ended. `headerSeq` reads the number out of the bytes of a
buffer, so that the result is about what the peer sees.
-/

namespace Tgvoip

open ByteReader Fallible

/-! ## The seq in a header -/

/-- The fields of a header up to the seq. -/
def headerSeqField (ver : VersionInfo) (waiting : Bool) : Reader UInt32 :=
  if ver.isLegacyLegacy then do
    let _ ← u32
    let _ ← bytes 8
    let _ ← u8
    let _ ← bytes 7
    if waiting then do
      let _ ← u32
      let _ ← bytes 16
      let _ ← u32
      u32
    else do
      let _ ← tlLength
      let _ ← u8
      let _ ← u32
      u32
  else do
    let _ ← u8
    let _ ← u32
    u32

/-- The seq a buffer goes out under. -/
def headerSeq (ver : VersionInfo) (waiting : Bool) (buffer : Bytes) : Option UInt32 :=
  ((headerSeqField ver waiting).run buffer).map Prod.fst

namespace Packet

variable {ctx : HeaderContext} {ver : VersionInfo} {p : Packet} {seq : UInt32}

/-- **Each buffer carries the number it was serialized under.** -/
theorem headerSeq_serializePart (part : LegacyPart) :
    headerSeq ver ctx.waiting (p.serializePart ctx ver seq part) = some seq := by
  unfold serializePart headerSeq headerSeqField
  by_cases hver : ver.isLegacyLegacy = true
  · have hid := decodes_bytes ((ctx.random seq).toList.take 8)
    have hrand := decodes_bytes ((ctx.random seq).toList.drop 8)
    have hcall := decodes_bytes ctx.callID.toList
    rw [(length_random ctx seq).1] at hid
    rw [(length_random ctx seq).2] at hrand
    rw [Vector.length_toList] at hcall
    rw [if_pos hver, if_pos hver]
    unfold writePacketHeaderLegacyLegacy
    cases hwait : ctx.waiting with
    | true =>
        have hstate : (ctx.state == .waitInit || ctx.state == .waitInitAck) = true := hwait
        simp only [hstate, if_true, List.append_assoc]
        rw [(decodes_u32 _).run_bind, hid.run_bind, (decodes_u8 7).run_bind, hrand.run_bind,
          (decodes_u32 _).run_bind, hcall.run_bind, (decodes_u32 _).run_bind, decodes_u32 seq]
        rfl
    | false =>
        obtain ⟨len, hlen⟩ := exists_decodes_tlLength ((p.partBody ver part).length + 13)
        have hstate : (ctx.state == .waitInit || ctx.state == .waitInitAck) = false := hwait
        simp only [hstate, Bool.false_eq_true, if_false, List.append_assoc]
        rw [(decodes_u32 _).run_bind, hid.run_bind, (decodes_u8 7).run_bind, hrand.run_bind,
          hlen.run_bind, (decodes_u8 _).run_bind, (decodes_u32 _).run_bind, decodes_u32 seq]
        rfl
  · rw [if_neg hver, if_neg hver]
    unfold writePacketHeaderLegacy
    simp only [List.append_assoc]
    rw [(decodes_u8 _).run_bind, (decodes_u32 _).run_bind, decodes_u32 seq]
    rfl

/-- A packet is sent as one packet at least. -/
theorem legacyParts_ne_nil (ver : VersionInfo) (p : Packet) : p.legacyParts ver ≠ [] := by
  intro hnil
  have hlength := length_legacyParts ver p
  rw [hnil, legacyCount, List.length_nil] at hlength
  omega

/-- The parts are numbered from the first on. -/
theorem getElem?_serializeParts (parts : List LegacyPart) (k : ℕ) :
    (p.serializeParts ctx ver seq parts).1[k]? = parts[k]?.map fun part =>
      (p.serializePart ctx ver (seq + UInt32.ofNat k) part, partReliable ver part) := by
  induction parts generalizing seq k with
  | nil => rfl
  | cons part parts ih =>
      cases k with
      | zero =>
          have hzero : seq + UInt32.ofNat 0 = seq := UInt32.add_zero seq
          rw [List.getElem?_cons_zero, Option.map_some, hzero]
          rfl
      | succ k =>
          have hrest := @ih (seq + 1) k
          rw [add_one_add_ofNat] at hrest
          exact hrest

theorem length_serializeParts (parts : List LegacyPart) :
    (p.serializeParts ctx ver seq parts).1.length = parts.length := by
  induction parts generalizing seq with
  | nil => rfl
  | cons part parts ih => exact congrArg (· + 1) ih

/-- The next number is behind the last one. -/
theorem serializeParts_next (parts : List LegacyPart) :
    (p.serializeParts ctx ver seq parts).2 = seq + UInt32.ofNat parts.length := by
  induction parts generalizing seq with
  | nil => exact (UInt32.add_zero seq).symm
  | cons part parts ih =>
      show (p.serializeParts ctx ver (seq + 1) parts).2 = _
      rw [ih, List.length_cons, add_one_add_ofNat]

end Packet

/-! ## One call of SendPacket -/

/-- A buffer as `SendPacket` gets it from the serializer, with what the
congestion control is to know it by. -/
structure LegacyBuffer where
  bytes : Bytes
  reliable : Bool
  pktInfo : CongestionControlPacket
  /-- Under what the header was written. -/
  ver : VersionInfo
  waiting : Bool

/-- The number in the header of the buffer. -/
def LegacyBuffer.seq (b : LegacyBuffer) : Option UInt32 := headerSeq b.ver b.waiting b.bytes

namespace Controller

variable {env : Platform} {c c' : Controller} {now : Time} {p : Packet} {endpoint : Endpoint}
  {stream signaling : OutgoingStream}

/-- The buffers of one call, in order. -/
def legacyBuffers (env : Platform) (c : Controller) (p : Packet) (endpoint : Endpoint)
    (stream signaling : OutgoingStream) : List LegacyBuffer :=
  (c.serializedLegacy env p endpoint stream signaling).1.zipIdx.map fun t =>
    { bytes := t.1.1, reliable := t.1.2
      pktInfo := ⟨(c.legacyPacket p endpoint stream signaling).1.legacySeq + UInt32.ofNat t.2,
        StreamId.signaling⟩
      ver := c.ver, waiting := (c.headerContext env).waiting }

/-- The body of the loop over them. -/
def sendLegacyBuffer (env : Platform) (now : Time) (packet : Packet) (endpoint : Endpoint)
    (retryInterval timeout : Time) (tries : UInt8) (c : Controller) (b : LegacyBuffer) :
    Except Fault Controller :=
  let c := c.noteSealing endpoint
  let res := c.preparePacket env b.bytes endpoint b.pktInfo packet
  if b.reliable || tries ≠ 0 then
    pure (c.sendPacketReliably res retryInterval timeout (if tries ≠ 0 then tries else 0xFF))
  else c.sendOrEnqueuePacket now res true

/-- **The loop runs over the buffers of the call.** -/
theorem sendLegacyPacket_eq {retryInterval timeout : Time} {tries : UInt8}
    (hsig : (c.setManager p.streamId.toNat (p.prepare stream.packetManager).2).outgoingStreams[
      StreamId.signaling.toNat]? = some signaling) :
    c.sendLegacyPacket env now p endpoint stream retryInterval timeout tries =
      (c.legacyBuffers env p endpoint stream signaling).foldlM
        (sendLegacyBuffer env now (c.legacyPacket p endpoint stream signaling).1 endpoint
          retryInterval timeout tries)
        (c.preparedLegacy p endpoint stream signaling
          (c.serializedLegacy env p endpoint stream signaling).2) := by
  unfold sendLegacyPacket legacyBuffers
  rw [List.foldlM_map]
  show (Controller.outgoingStream _ _ >>= _) = _
  rw [outgoingStream_eq_ok.mpr hsig]
  rfl

theorem getElem?_legacyBuffers (k : ℕ) :
    (c.legacyBuffers env p endpoint stream signaling)[k]? =
      ((c.legacyPacket p endpoint stream signaling).1.legacyParts c.ver)[k]?.map fun part =>
        let packet := (c.legacyPacket p endpoint stream signaling).1
        { bytes := packet.serializePart (c.headerContext env) c.ver
            (packet.legacySeq + UInt32.ofNat k) part
          reliable := Packet.partReliable c.ver part
          pktInfo := ⟨packet.legacySeq + UInt32.ofNat k, StreamId.signaling⟩
          ver := c.ver, waiting := (c.headerContext env).waiting } := by
  unfold legacyBuffers serializedLegacy Packet.serializeLegacy
  rw [List.getElem?_map, List.getElem?_zipIdx, Packet.getElem?_serializeParts, Option.map_map,
    Option.map_map]
  congr 1
  funext part
  simp

theorem length_legacyBuffers :
    (c.legacyBuffers env p endpoint stream signaling).length =
      ((c.legacyPacket p endpoint stream signaling).1.legacyParts c.ver).length := by
  unfold legacyBuffers serializedLegacy Packet.serializeLegacy
  rw [List.length_map, List.length_zipIdx, Packet.length_serializeParts]

/-- The buffers of a call. -/
def sentBuffers (env : Platform) (c : Controller) (pkt : OutgoingPacket) :
    Except Fault (List LegacyBuffer) := do
  let endpoint ← c.endpointForPacket pkt.endpoint
  let stream ← c.outgoingStream pkt.packet.streamId.toNat
  let signaling ← (c.setManager pkt.packet.streamId.toNat
    (pkt.packet.prepare stream.packetManager).2).outgoingStream StreamId.signaling.toNat
  pure (c.legacyBuffers env pkt.packet endpoint stream signaling)

/-- The number the next legacy packet gets. -/
def nextLegacySeq (c : Controller) : Option UInt32 :=
  c.outgoingStreams[StreamId.signaling.toNat]?.map (·.packetManager.seq)

/-! ### Handing a buffer over -/

theorem transmit_nextLegacySeq {pkt : PendingOutgoingPacket} {e : Endpoint}
    (h : c.transmit now pkt e = .ok c') : c'.nextLegacySeq = c.nextLegacySeq := by
  obtain ⟨s, pm, hs, hseq, -, rfl⟩ := transmit_ok h
  show (c.setManager _ pm).outgoingStreams[_]?.map _ = _
  rw [getElem?_setManager hs]
  split
  · rename_i hsig
    rw [nextLegacySeq, ← hsig, hs, Option.map_some, Option.map_some, hseq]
  · rfl

theorem sendOrEnqueuePacket_nextLegacySeq {pkt : PendingOutgoingPacket} {enqueue : Bool}
    (h : c.sendOrEnqueuePacket now pkt enqueue = .ok c') : c'.nextLegacySeq = c.nextLegacySeq := by
  obtain ⟨e, -, hsend⟩ := sendOrEnqueuePacket_ok h
  have hconnect : ∀ key, (c.connectIfNeeded key e).nextLegacySeq = c.nextLegacySeq := by
    intro key
    unfold nextLegacySeq
    rw [connectIfNeeded_toTransport]
  obtain ⟨-, -, hsend⟩ | ⟨-, rfl | rfl⟩ := hsend
  · exact (transmit_nextLegacySeq hsend).trans (hconnect _)
  · exact hconnect _
  · exact hconnect _

theorem sendLegacyBuffer_nextLegacySeq {packet : Packet} {retryInterval timeout : Time}
    {tries : UInt8} {b : LegacyBuffer}
    (h : sendLegacyBuffer env now packet endpoint retryInterval timeout tries c b = .ok c') :
    c'.nextLegacySeq = c.nextLegacySeq := by
  unfold sendLegacyBuffer at h
  dsimp only at h
  split at h
  · cases pure_eq_ok.mp h
    unfold sendPacketReliably
    dsimp only
    split <;> rfl
  · exact (sendOrEnqueuePacket_nextLegacySeq h).trans rfl

/-! ### The numbers of a call -/

/-- A packet that has no number of the Signaling stream yet. -/
structure Unnumbered (p : Packet) : Prop where
  legacySeq : p.legacySeq = 0
  stream : p.streamId = StreamId.signaling ∧ p.seq = 0 ∨ p.streamId = StreamId.audio

/-- The Signaling and the Audio stream, where `outgoingStreams` has them. -/
def HasCallStreams (c : Controller) : Prop := c.ids.take 2 = callIds.take 2

theorem HasCallStreams.transportId (hc : c.HasCallStreams) {i : ℕ} (hi : i < 2) {s : OutgoingStream}
    (hs : c.outgoingStreams[i]? = some s) : s.packetManager.transportId.toNat = i := by
  have hids : c.ids[i]? = some (s.id, s.packetManager.transportId) := by
    rw [ids, List.getElem?_map, hs, Option.map_some]
  rw [← List.getElem?_take_of_lt hi, hc, List.getElem?_take_of_lt hi] at hids
  exact (callIds_getElem? hids).2

/-- **The first number of a call** is the next one of the Signaling stream. -/
theorem firstLegacySeq_eq (hc : c.HasCallStreams) (hp : Unnumbered p)
    (hs : c.outgoingStreams[p.streamId.toNat]? = some stream)
    (hsig : (c.setManager p.streamId.toNat (p.prepare stream.packetManager).2).outgoingStreams[
      StreamId.signaling.toNat]? = some signaling) :
    c.nextLegacySeq = some (firstLegacySeq p stream signaling) := by
  rw [getElem?_setManager hs] at hsig
  unfold firstLegacySeq nextLegacySeq
  rw [if_neg (not_not.mpr hp.legacySeq)]
  rcases hp.stream with ⟨hid, hseq⟩ | hid
  · rw [hid] at hs hsig
    rw [if_pos rfl] at hsig
    cases hsig
    have hsame : (p.prepare stream.packetManager).2.transportId = stream.packetManager.transportId := by
      unfold Packet.prepare
      split <;> rfl
    rw [hs, if_neg (by simp [hsame]), streamSeq, if_pos hseq, Option.map_some]
  · rw [hid] at hs hsig
    rw [if_neg (by decide)] at hsig
    have haudio := hc.transportId (by decide) hs
    have hsignaling := hc.transportId (by decide) hsig
    have hother : stream.packetManager.transportId ≠ signaling.packetManager.transportId := by
      intro h
      rw [h, hsignaling] at haudio
      cases haudio
    rw [hsig, if_pos hother, Option.map_some]

/-- A packet is at least one buffer. -/
theorem legacyBuffers_ne_nil (pkt : OutgoingPacket) (endpoint : Endpoint)
    (stream signaling : OutgoingStream) :
    c.legacyBuffers env pkt.packet endpoint stream signaling ≠ [] := by
  intro hnil
  have hpos := Packet.legacyParts_ne_nil c.ver
    (c.legacyPacket pkt.packet endpoint stream signaling).1
  have hlength : (c.legacyBuffers env pkt.packet endpoint stream signaling).length = _ :=
    length_legacyBuffers
  rw [hnil] at hlength
  rw [← List.length_pos_iff, ← hlength] at hpos
  exact Nat.lt_irrefl _ hpos

/-- `prepare` leaves the number behind the last buffer. -/
theorem preparedLegacy_nextLegacySeq {p : Packet} (localSeq : UInt32)
    (hsig : (c.setManager p.streamId.toNat (p.prepare stream.packetManager).2).outgoingStreams[
      StreamId.signaling.toNat]? = some signaling) :
    (c.preparedLegacy p endpoint stream signaling localSeq).nextLegacySeq = some localSeq := by
  show ((c.setManager _ _).setManager _ _).outgoingStreams[_]?.map _ = _
  rw [getElem?_setManager hsig, if_pos rfl]
  rfl

/-- The number behind the call, and the streams. -/
theorem sendPacket_numbers {pkt : OutgoingPacket} {retryInterval timeout : Time} {tries : UInt8}
    {n : UInt32} {buffers : List LegacyBuffer} (hc : c.HasCallStreams) (hn : c.nextLegacySeq = some n)
    (hver : c.ver.isNew = false) (hp : Unnumbered pkt.packet)
    (hbuffers : c.sentBuffers env pkt = .ok buffers)
    (h : c.sendPacket env now pkt retryInterval timeout tries = .ok c') :
    (∀ k b, buffers[k]? = some b →
        b.seq = some (n + UInt32.ofNat k) ∧ b.pktInfo = ⟨n + UInt32.ofNat k, StreamId.signaling⟩) ∧
      buffers ≠ [] ∧ c'.nextLegacySeq = some (n + UInt32.ofNat buffers.length) ∧
      c'.HasCallStreams := by
  have hids : c'.ids = c.ids := ids_of_faces (sendPacket_frame h).faces
  unfold sentBuffers at hbuffers
  unfold sendPacket at h
  obtain ⟨endpoint, he, h⟩ := bind_eq_ok.mp h
  obtain ⟨stream, hs, h⟩ := bind_eq_ok.mp h
  obtain ⟨endpoint', he', hbuffers⟩ := bind_eq_ok.mp hbuffers
  obtain ⟨stream', hs', hbuffers⟩ := bind_eq_ok.mp hbuffers
  obtain ⟨signaling, hsig, hbuffers⟩ := bind_eq_ok.mp hbuffers
  rw [he] at he'
  rw [hs] at hs'
  cases he'
  cases hs'
  cases pure_eq_ok.mp hbuffers
  rw [outgoingStream_eq_ok] at hs hsig
  rw [if_neg (by simp [hver]), sendLegacyPacket_eq hsig] at h
  have hfirst := firstLegacySeq_eq hc hp hs hsig
  rw [hn, Option.some_inj] at hfirst
  have hseq : (c.legacyPacket pkt.packet endpoint stream signaling).1.legacySeq = n := by
    rw [legacyPacket_legacySeq, hfirst]
  refine ⟨?_, legacyBuffers_ne_nil pkt endpoint stream signaling, ?_, ?_⟩
  · intro k b hb
    rw [getElem?_legacyBuffers] at hb
    obtain ⟨part, -, rfl⟩ := Option.map_eq_some_iff.mp hb
    rw [← hseq]
    exact ⟨Packet.headerSeq_serializePart part, rfl⟩
  · have hkept := foldlM_invariant
      (I := fun c₁ => c₁.nextLegacySeq =
        some (c.serializedLegacy env pkt.packet endpoint stream signaling).2)
      (fun c₁ b _ c₂ h₁ h₂ => (sendLegacyBuffer_nextLegacySeq h₂).trans h₁)
      (preparedLegacy_nextLegacySeq _ hsig) h
    rw [hkept, length_legacyBuffers, ← hseq]
    exact congrArg some (Packet.serializeParts_next _)
  · unfold HasCallStreams
    rw [hids]
    exact hc

/-! ## Runs -/

/-- Calls of `SendPacket` in a legacy format, and the buffers of each. Between
two calls, all may change but the identity of the two streams and the next
number. -/
inductive LegacySends (env : Platform) (c : Controller) :
    List (List LegacyBuffer) → Controller → Prop where
  | start : LegacySends env c [] c
  | between {calls : List (List LegacyBuffer)} {c₁ c₂ : Controller} :
      LegacySends env c calls c₁ → c₂.nextLegacySeq = c₁.nextLegacySeq →
      c₂.ids.take 2 = c₁.ids.take 2 → LegacySends env c calls c₂
  | call {calls : List (List LegacyBuffer)} {c₁ c₂ : Controller} {now : Time}
      {pkt : OutgoingPacket} {retryInterval timeout : Time} {tries : UInt8}
      {buffers : List LegacyBuffer} :
      LegacySends env c calls c₁ → c₁.ver.isNew = false → Unnumbered pkt.packet →
      c₁.sentBuffers env pkt = .ok buffers →
      c₁.sendPacket env now pkt retryInterval timeout tries = .ok c₂ →
      LegacySends env c (calls ++ [buffers]) c₂

/-- The buffers are numbered from `n` on, and known by these numbers. -/
def NumberedFrom (n : UInt32) (buffers : List LegacyBuffer) : Prop :=
  ∀ k b, buffers[k]? = some b →
    b.seq = some (n + UInt32.ofNat k) ∧ b.pktInfo = ⟨n + UInt32.ofNat k, StreamId.signaling⟩

theorem NumberedFrom.append {n : UInt32} {bs cs : List LegacyBuffer} (hbs : NumberedFrom n bs)
    (hcs : NumberedFrom (n + UInt32.ofNat bs.length) cs) : NumberedFrom n (bs ++ cs) := by
  intro k b hb
  rcases Nat.lt_or_ge k bs.length with hk | hk
  · rw [List.getElem?_append_left hk] at hb
    exact hbs k b hb
  · rw [List.getElem?_append_right hk] at hb
    have hnumber := hcs _ b hb
    rwa [UInt32.add_assoc, ← UInt32.ofNat_add, Nat.add_sub_cancel' hk] at hnumber

/-- What a run keeps: its buffers are numbered from the start of the run to the
next number. -/
structure NumberedRun (n : UInt32) (calls : List (List LegacyBuffer)) (c' : Controller) : Prop where
  numbered : NumberedFrom n calls.flatten
  emits : ∀ buffers ∈ calls, buffers ≠ []
  next : c'.nextLegacySeq = some (n + UInt32.ofNat calls.flatten.length)
  streams : c'.HasCallStreams

theorem LegacySends.numberedRun {n : UInt32} {calls : List (List LegacyBuffer)}
    (hc : c.HasCallStreams) (hn : c.nextLegacySeq = some n) (hrun : LegacySends env c calls c') :
    NumberedRun n calls c' := by
  induction hrun with
  | start =>
      have hzero : n + UInt32.ofNat 0 = n := UInt32.add_zero n
      exact {
        numbered := fun k b h => by simp at h
        emits := fun _ h => absurd h List.not_mem_nil
        next := hn.trans (congrArg some hzero.symm)
        streams := hc }
  | between _ hnext hids ih =>
      exact ⟨ih.numbered, ih.emits, hnext.trans ih.next, hids.trans ih.streams⟩
  | call _ hver hp hbuffers hsend ih =>
      obtain ⟨hnumbered, hne, hnext, hstreams⟩ :=
        sendPacket_numbers ih.streams ih.next hver hp hbuffers hsend
      refine ⟨?_, ?_, ?_, hstreams⟩
      · rw [List.flatten_append, List.flatten_singleton]
        exact ih.numbered.append hnumbered
      · intro buffers hmem
        rcases List.mem_append.mp hmem with hmem | hmem
        · exact ih.emits _ hmem
        · exact List.mem_singleton.mp hmem ▸ hne
      · rw [hnext, List.flatten_append, List.flatten_singleton, List.length_append,
          UInt32.ofNat_add, UInt32.add_assoc]

/-- Later numbers are greater, as long as fewer than half of all are in use. -/
theorem seqgt_later (n : UInt32) {j k : ℕ} (hjk : j < k) (hk : k - j < 2 ^ 31) :
    seqgt (n + UInt32.ofNat k) (n + UInt32.ofNat j) = true := by
  have hdistance : (n + UInt32.ofNat k - (n + UInt32.ofNat j)).toNat = k - j := by
    have hsum : n + UInt32.ofNat k = UInt32.ofNat (k - j) + (n + UInt32.ofNat j) := by
      rw [UInt32.add_comm (UInt32.ofNat (k - j)), UInt32.add_assoc, ← UInt32.ofNat_add,
        Nat.add_sub_cancel' hjk.le]
    rw [hsum, UInt32.add_sub_cancel, UInt32.toNat_ofNat']
    omega
  rw [PacketManager.seqgt_iff_distance, hdistance]
  omega

/-- **Header seqs are never used twice**: over any sequence of calls, the
buffers go out under consecutive numbers, each greater than those before it,
known to the congestion controller by the number in the header; and the next
number is the one behind the last. -/
theorem legacy_header_seqs_consecutive (env : Platform) (c c' : Controller) (n : UInt32)
    (calls : List (List LegacyBuffer)) (hc : c.HasCallStreams) (hn : c.nextLegacySeq = some n)
    (hrun : LegacySends env c calls c') (hfew : calls.flatten.length < 2 ^ 31) :
    NumberedFrom n calls.flatten ∧
      calls.flatten.Pairwise (fun a b => ∃ s t, a.seq = some s ∧ b.seq = some t ∧
        seqgt t s = true ∧ (n.toNat + calls.flatten.length ≤ 2 ^ 32 → s < t)) ∧
      (∀ buffers ∈ calls, buffers ≠ []) ∧
      ∀ last, calls.flatten.getLast? = some last →
        ∃ s, last.seq = some s ∧ c'.nextLegacySeq = some (s + 1) := by
  have hnumbers := hrun.numberedRun hc hn
  refine ⟨hnumbers.numbered, ?_, hnumbers.emits, ?_⟩
  · rw [List.pairwise_iff_getElem]
    intro j k hj hk hjk
    obtain ⟨hseqj, -⟩ := hnumbers.numbered j _ (List.getElem?_eq_getElem hj)
    obtain ⟨hseqk, -⟩ := hnumbers.numbered k _ (List.getElem?_eq_getElem hk)
    refine ⟨_, _, hseqj, hseqk, seqgt_later n hjk (by omega), ?_⟩
    intro hroom
    rw [UInt32.lt_iff_toNat_lt, UInt32.toNat_add, UInt32.toNat_add, UInt32.toNat_ofNat',
      UInt32.toNat_ofNat']
    omega
  · intro last hlast
    have hpos : 0 < calls.flatten.length := by
      rw [List.length_pos_iff]
      intro hnil
      rw [hnil] at hlast
      cases hlast
    rw [List.getLast?_eq_getElem?] at hlast
    obtain ⟨hseq, -⟩ := hnumbers.numbered _ last hlast
    refine ⟨_, hseq, ?_⟩
    have hone : (1 : UInt32) = UInt32.ofNat 1 := rfl
    rw [hnumbers.next, UInt32.add_assoc, hone, ← UInt32.ofNat_add, Nat.sub_add_cancel hpos]

/-- A voice packet to a peer of version 9, with an extra that goes out as a packet
of its own. -/
theorem legacy_header_seqs_voice :
    ∃ calls c', LegacySends samplePlatform
        { sampleCall {} with
          ver := { peerVersion := 9, connectionMaxLayer := 92 }
          currentExtras := [{ data := { d := .ping } }] } calls c' ∧
      NumberedFrom 1 calls.flatten ∧
      calls.flatten.Pairwise (fun a b => ∃ s t, a.seq = some s ∧ b.seq = some t ∧
        seqgt t s = true ∧ ((1 : UInt32).toNat + calls.flatten.length ≤ 2 ^ 32 → s < t)) ∧
      (∀ buffers ∈ calls, buffers ≠ []) ∧
      ∀ last, calls.flatten.getLast? = some last →
        ∃ s, last.seq = some s ∧ c'.nextLegacySeq = some (s + 1) := by
  let c : Controller :=
    { sampleCall {} with
      ver := { peerVersion := 9, connectionMaxLayer := 92 }
      currentExtras := [{ data := { d := .ping } }] }
  let pkt : OutgoingPacket :=
    { packet := { streamId := StreamId.audio, data := some [0] }, endpoint := 1 }
  obtain ⟨buffers, hbuffers, hlength⟩ :
      ∃ buffers, c.sentBuffers samplePlatform pkt = .ok buffers ∧ buffers.length = 2 := ⟨_, rfl, rfl⟩
  obtain ⟨c', hsend⟩ : ∃ c', c.sendPacket samplePlatform 1 pkt 1 5 0 = .ok c' := ⟨_, rfl⟩
  have hrun : LegacySends samplePlatform c [buffers] c' :=
    .call .start rfl ⟨rfl, .inr rfl⟩ hbuffers hsend
  have hfew : [buffers].flatten.length < 2 ^ 31 := by
    rw [List.flatten_singleton, hlength]
    decide
  exact ⟨[buffers], c', hrun,
    legacy_header_seqs_consecutive samplePlatform c c' 1 [buffers] rfl rfl hrun hfew⟩

end Controller

end Tgvoip
