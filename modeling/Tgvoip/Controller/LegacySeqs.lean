import Tgvoip.Packets.LegacyRoundTrip
import Tgvoip.Controller.PacketFrame

/-!
# LegacySeqs — which packet an extra remembers

In the legacy formats `Packet::prepare` notes, before the packet is
serialized, under which seq each of its extras will go out. An extra with
a packet type of its own gets the number of that packet, counted along
with `tmpLegacySeq`. An extra that rides in the headers gets the seq of
the packet's stream, which is the number of one of the emitted packets
only where the two number spaces happen to meet.
-/

namespace Tgvoip

open ByteReader Fallible

/-- Counting on behind the first number. -/
theorem add_one_add_ofNat (n : UInt32) (k : ℕ) :
    n + 1 + UInt32.ofNat k = n + UInt32.ofNat (k + 1) := by
  rw [UInt32.ofNat_add, UInt32.add_assoc, UInt32.add_comm 1]
  rfl

/-! ## Which of the emitted packets contain an extra -/

/-- Whether the headers have room for extras. -/
def headersCarryExtras (ver : VersionInfo) (state : CallState) : Bool :=
  if ver.isLegacyLegacy then !(state == .waitInit || state == .waitInitAck) && ver.peerVersion ≥ 6
  else true

namespace Packet

variable {ctx : HeaderContext} {ver : VersionInfo} {p : Packet} {x : WrappedExtra}

/-- The extras in the header of each emitted packet. -/
def headerExtras (ctx : HeaderContext) (ver : VersionInfo) (p : Packet) : List WrappedExtra :=
  if headersCarryExtras ver ctx.state then p.allowedExtras ver else []

/-- An emitted packet contains the extra: as its body, or in its header. -/
def Contains (ctx : HeaderContext) (ver : VersionInfo) (p : Packet) (part : LegacyPart)
    (x : WrappedExtra) : Prop :=
  part = .extra x.d ∨ x ∈ p.headerExtras ctx ver

/-- The seq is the one in the header of an emitted packet that contains the
extra. -/
def CarriedAs (ctx : HeaderContext) (ver : VersionInfo) (p : Packet) (x : WrappedExtra)
    (seq : UInt32) : Prop :=
  ∃ k part, (p.legacyParts ver)[k]? = some part ∧ seq = p.legacySeq + UInt32.ofNat k ∧
    p.Contains ctx ver part x

/-! ## The packets a packet is sent as -/

/-- The packets, if there are any. -/
def ownParts (ver : VersionInfo) (p : Packet) : List LegacyPart :=
  (p.separatePackets ver).map (fun x => .extra x.d) ++
    ((if ver.peerVersion < 7 && p.extraEC.any then [.ec] else []) ++
      (p.data.map LegacyPart.data).toList)

theorem legacyParts_eq (ver : VersionInfo) (p : Packet) :
    p.legacyParts ver = if (p.ownParts ver).isEmpty then [.nop] else p.ownParts ver :=
  rfl

/-- How many packets a packet with these extras is sent as. -/
def legacyCount (ver : VersionInfo) (p : Packet) (extras : List WrappedExtra) : ℕ :=
  max 1 (extras.countP (fun x => x.d.chooseType ver.peerVersion != PktType.nop) +
    ((if ver.peerVersion < 7 && p.extraEC.any then 1 else 0) + if p.data.isSome then 1 else 0))

theorem length_ownParts (ver : VersionInfo) (p : Packet) :
    max 1 (p.ownParts ver).length = p.legacyCount ver p.extraSignaling := by
  have hdata : ((p.data.map LegacyPart.data).toList).length = if p.data.isSome then 1 else 0 := by
    cases p.data <;> rfl
  have hec : (if ver.peerVersion < 7 && p.extraEC.any then [LegacyPart.ec] else []).length =
      if ver.peerVersion < 7 && p.extraEC.any then 1 else 0 := by
    split <;> rfl
  unfold ownParts legacyCount separatePackets
  rw [List.length_append, List.length_append, List.length_map, hdata, hec,
    List.countP_eq_length_filter]

theorem length_legacyParts (ver : VersionInfo) (p : Packet) :
    (p.legacyParts ver).length = p.legacyCount ver p.extraSignaling := by
  rw [← length_ownParts, legacyParts_eq]
  cases p.ownParts ver with
  | nil => rfl
  | cons part parts => exact (max_eq_right (Nat.succ_pos _)).symm

/-- The packets of the extras come first, in the order of the extras. -/
theorem legacyParts_separate {k : ℕ} (h : (p.separatePackets ver)[k]? = some x) :
    (p.legacyParts ver)[k]? = some (.extra x.d) := by
  have hk := (List.getElem?_eq_some_iff.mp h).1
  have hown : (p.ownParts ver)[k]? = some (.extra x.d) := by
    unfold ownParts
    rw [List.getElem?_append_left (by simpa using hk), List.getElem?_map, h]
    rfl
  rw [legacyParts_eq, if_neg]
  · exact hown
  · intro hempty
    rw [List.isEmpty_iff.mp hempty] at hown
    cases hown

/-- Only extras with a type of their own are packets. -/
theorem chooseType_of_mem_legacyParts {e : Extra} (h : .extra e ∈ p.legacyParts ver) :
    e.chooseType ver.peerVersion ≠ PktType.nop := by
  have hown : .extra e ∈ p.ownParts ver := by
    rw [legacyParts_eq] at h
    split at h
    · cases List.mem_singleton.mp h
    · exact h
  have hseparate : .extra e ∈ (p.separatePackets ver).map fun x => LegacyPart.extra x.d := by
    simpa [ownParts] using hown
  obtain ⟨x, hx, he⟩ := List.mem_map.mp hseparate
  cases he
  simpa using (List.mem_filter.mp hx).2

/-! ## When the remembered seq is right -/

theorem carriedAs_separate {k : ℕ} (h : (p.separatePackets ver)[k]? = some x) :
    p.CarriedAs ctx ver x (p.legacySeq + UInt32.ofNat k) :=
  ⟨k, _, legacyParts_separate h, rfl, .inl rfl⟩

/-- An extra in the headers goes out under each number of the packet. -/
theorem carriedAs_header_iff {seq : UInt32} (hx : x ∈ p.extraSignaling)
    (htype : x.d.chooseType ver.peerVersion = PktType.nop) :
    p.CarriedAs ctx ver x seq ↔ headersCarryExtras ver ctx.state = true ∧
      (seq - p.legacySeq).toNat < p.legacyCount ver p.extraSignaling := by
  rw [← length_legacyParts]
  constructor
  · rintro ⟨k, part, hpart, rfl, rfl | hmem⟩
    · exact absurd htype (chooseType_of_mem_legacyParts (List.mem_of_getElem? hpart))
    · have hk := (List.getElem?_eq_some_iff.mp hpart).1
      refine ⟨?_, ?_⟩
      · unfold headerExtras at hmem
        split at hmem
        · assumption
        · cases hmem
      · rw [UInt32.add_comm, UInt32.add_sub_cancel, UInt32.toNat_ofNat']
        exact (Nat.mod_le _ _).trans_lt hk
  · rintro ⟨hcarry, hlt⟩
    refine ⟨_, _, List.getElem?_eq_getElem hlt, ?_, .inr ?_⟩
    · rw [UInt32.ofNat_toNat, UInt32.add_comm, UInt32.sub_add_cancel]
    · rw [headerExtras, if_pos hcarry]
      exact List.mem_filter.mpr ⟨hx, by simp [htype]⟩

end Packet

/-! ## What the extras remember -/

namespace UnacknowledgedExtraData

/-- What `prepare` owes to an entry of `currentExtras`: one that goes along has
remembered a seq, which is as `P` says; another is left as it is. -/
def Remembers (endpointId : Int64) (P : WrappedExtra → UInt32 → Prop)
    (before after : UnacknowledgedExtraData) : Prop :=
  if before.rides endpointId then ∃ seq, after = before.remember seq ∧ P before.data seq
  else after = before

variable {endpointId : Int64} {P : WrappedExtra → UInt32 → Prop} {x : UnacknowledgedExtraData}

theorem remember_inj {seq seq' : UInt32} (h : x.remember seq = x.remember seq') : seq = seq' := by
  have hseqs : x.seqs.add seq = x.seqs.add seq' := congrArg seqs h
  have hslot := congrFun (congrArg HistoricBuffer.data hseqs) x.seqs.offset
  simpa [HistoricBuffer.add] using hslot

theorem remembers_remember (hrides : x.rides endpointId = true) (seq : UInt32) :
    Remembers endpointId P x (x.remember seq) ↔ P x.data seq := by
  unfold Remembers
  rw [if_pos hrides]
  constructor
  · rintro ⟨seq', heq, hP⟩
    exact remember_inj heq ▸ hP
  · intro hP
    exact ⟨seq, rfl, hP⟩

theorem remembers_self (hrides : x.rides endpointId = false) : Remembers endpointId P x x := by
  unfold Remembers
  rw [if_neg (by simp [hrides])]

end UnacknowledgedExtraData

open UnacknowledgedExtraData in
/-- The loop of `prepare`: the extras in headers remember `seq`, the others the
numbers from `legacySeq` on. -/
theorem forall₂_rememberLegacySeqs {endpointId : Int64} {seq : UInt32} {peerVersion : Int}
    {P : WrappedExtra → UInt32 → Prop} (legacySeq : UInt32) (xs : List UnacknowledgedExtraData) :
    List.Forall₂ (Remembers endpointId P) xs
        (rememberLegacySeqs endpointId seq peerVersion legacySeq xs) ↔
      (∀ x ∈ ridingExtras xs endpointId, x.d.chooseType peerVersion = PktType.nop → P x seq) ∧
      ∀ k x, ((ridingExtras xs endpointId).filter
          fun x => x.d.chooseType peerVersion != PktType.nop)[k]? = some x →
        P x (legacySeq + UInt32.ofNat k) := by
  induction xs generalizing legacySeq with
  | nil => simp [rememberLegacySeqs, ridingExtras]
  | cons x xs ih =>
      rw [rememberLegacySeqs]
      by_cases hrides : x.rides endpointId = true
      · have hriding : ridingExtras (x :: xs) endpointId = x.data :: ridingExtras xs endpointId := by
          simp [ridingExtras, hrides]
        rw [if_pos hrides, hriding]
        by_cases htype : x.data.d.chooseType peerVersion = PktType.nop
        · rw [if_pos htype, List.forall₂_cons, ih, remembers_remember hrides,
            List.filter_cons_of_neg (by simp [htype]), List.forall_mem_cons]
          simp only [htype, true_imp_iff, and_assoc]
        · rw [if_neg htype, List.forall₂_cons, ih, remembers_remember hrides,
            List.filter_cons_of_pos (by simpa using htype), List.forall_mem_cons]
          have hzero : legacySeq + UInt32.ofNat 0 = legacySeq := UInt32.add_zero _
          have hnext := add_one_add_ofNat legacySeq
          constructor
          · rintro ⟨hfirst, hheader, hrest⟩
            refine ⟨⟨fun h => absurd h htype, hheader⟩, ?_⟩
            intro k y hy
            cases k with
            | zero =>
                cases hy
                exact hzero.symm ▸ hfirst
            | succ k => exact hnext k ▸ hrest k y hy
          · rintro ⟨⟨-, hheader⟩, hall⟩
            refine ⟨hzero ▸ hall 0 x.data rfl, hheader, ?_⟩
            intro k y hy
            exact hnext k ▸ hall (k + 1) y hy
      · have hrides : x.rides endpointId = false := by simpa using hrides
        have hriding : ridingExtras (x :: xs) endpointId = ridingExtras xs endpointId := by
          simp [ridingExtras, hrides]
        rw [if_neg (by simp [hrides]), List.forall₂_cons, ih, hriding]
        simp only [remembers_self hrides, true_and]

namespace Controller

variable {env : Platform} {c c' : Controller} {now : Time} {p : Packet} {endpoint : Endpoint}
  {stream signaling : OutgoingStream}

/-! ## The seqs of a packet -/

/-- The seq of the packet on its stream: the one it came with, or the next. -/
def streamSeq (p : Packet) (stream : OutgoingStream) : UInt32 :=
  if p.seq = 0 then stream.packetManager.seq else p.seq

/-- The number of the first packet it is sent as: the one it came with, or the
next one of the Signaling stream, or its seq if that is its stream. -/
def firstLegacySeq (p : Packet) (stream signaling : OutgoingStream) : UInt32 :=
  if p.legacySeq ≠ 0 then p.legacySeq
  else if stream.packetManager.transportId ≠ signaling.packetManager.transportId then
    signaling.packetManager.seq
  else streamSeq p stream

theorem legacyPacket_seq :
    (c.legacyPacket p endpoint stream signaling).1.seq = streamSeq p stream := by
  have hprepare : (p.prepare stream.packetManager).1.seq = streamSeq p stream := by
    unfold Packet.prepare streamSeq
    split <;> rfl
  unfold legacyPacket prepareLegacySeq
  dsimp only
  split
  · split <;> exact hprepare
  · exact hprepare

theorem legacyPacket_legacySeq :
    (c.legacyPacket p endpoint stream signaling).1.legacySeq =
      firstLegacySeq p stream signaling := by
  have hprepare : (p.prepare stream.packetManager).1.seq = streamSeq p stream := by
    unfold Packet.prepare streamSeq
    split <;> rfl
  have hlegacy : (p.prepare stream.packetManager).1.legacySeq = p.legacySeq := by
    unfold Packet.prepare
    split <;> rfl
  have htransport : (p.prepare stream.packetManager).2.transportId =
      stream.packetManager.transportId := by
    unfold Packet.prepare
    split <;> rfl
  unfold legacyPacket prepareLegacySeq firstLegacySeq
  dsimp only
  rw [hlegacy, htransport]
  by_cases hzero : p.legacySeq = 0
  · rw [if_pos hzero, if_neg (not_not.mpr hzero)]
    split
    · rfl
    · exact hprepare
  · rw [if_neg hzero, if_pos hzero]
    exact hlegacy

theorem legacyPacket_legacyCount (extras : List WrappedExtra) :
    (c.legacyPacket p endpoint stream signaling).1.legacyCount c.ver extras =
      p.legacyCount c.ver extras := by
  have hprepare : (p.prepare stream.packetManager).1.data = p.data ∧
      (p.prepare stream.packetManager).1.extraEC = p.extraEC := by
    unfold Packet.prepare
    split <;> exact ⟨rfl, rfl⟩
  have hnumber : ∀ (q : Packet) (pm legacyPm : PacketManager),
      (prepareLegacySeq q pm legacyPm).1.data = q.data ∧
        (prepareLegacySeq q pm legacyPm).1.extraEC = q.extraEC := by
    intro q pm legacyPm
    unfold prepareLegacySeq
    split
    · split <;> exact ⟨rfl, rfl⟩
    · exact ⟨rfl, rfl⟩
  have hcontent : (c.legacyPacket p endpoint stream signaling).1.data = p.data ∧
      (c.legacyPacket p endpoint stream signaling).1.extraEC = p.extraEC :=
    ⟨(hnumber ..).1.trans hprepare.1, (hnumber ..).2.trans hprepare.2⟩
  unfold Packet.legacyCount
  rw [hcontent.1, hcontent.2]

/-! ## SendPacket -/

/-- What the headers of the legacy packets are filled with. -/
def headerContext (env : Platform) (c : Controller) : HeaderContext where
  callID := c.callID
  state := c.state
  random := env.random

/-- The packets it is sent as, and the next number. -/
def serializedLegacy (env : Platform) (c : Controller) (p : Packet) (endpoint : Endpoint)
    (stream signaling : OutgoingStream) : List (Bytes × Bool) × UInt32 :=
  (c.legacyPacket p endpoint stream signaling).1.serializeLegacy (c.headerContext env) c.ver

/-- **The seqs remembered for the extras are those of the packets that carry
them**, once `prepare` and `serializeLegacy` have run. -/
def SeqsOfCarriers (env : Platform) (c : Controller) (p : Packet) (endpoint : Endpoint)
    (stream signaling : OutgoingStream) : Prop :=
  List.Forall₂ (UnacknowledgedExtraData.Remembers endpoint.id
      ((c.legacyPacket p endpoint stream signaling).1.CarriedAs (c.headerContext env) c.ver))
    c.currentExtras
    (c.preparedLegacy p endpoint stream signaling
      (c.serializedLegacy env p endpoint stream signaling).2).currentExtras

/-- No extra rides in the headers; or they carry extras, and the seq on the
packet's stream is one of the numbers the packet goes out under. -/
def HeadersInReach (c : Controller) (p : Packet) (endpoint : Endpoint)
    (stream signaling : OutgoingStream) : Prop :=
  (∃ x ∈ ridingExtras c.currentExtras endpoint.id,
      x.d.chooseType c.ver.peerVersion = PktType.nop) →
    headersCarryExtras c.ver c.state = true ∧
      (streamSeq p stream - firstLegacySeq p stream signaling).toNat <
        p.legacyCount c.ver (ridingExtras c.currentExtras endpoint.id)

theorem legacy_seqs_remembered_iff (env : Platform) (c : Controller) (p : Packet)
    (endpoint : Endpoint) (stream signaling : OutgoingStream) :
    c.SeqsOfCarriers env p endpoint stream signaling ↔
      c.HeadersInReach p endpoint stream signaling := by
  have hcarried : ∀ x ∈ ridingExtras c.currentExtras endpoint.id,
      x.d.chooseType c.ver.peerVersion = PktType.nop →
      ((c.legacyPacket p endpoint stream signaling).1.CarriedAs (c.headerContext env) c.ver x
          (streamSeq p stream) ↔
        headersCarryExtras c.ver c.state = true ∧
          (streamSeq p stream - firstLegacySeq p stream signaling).toNat <
            p.legacyCount c.ver (ridingExtras c.currentExtras endpoint.id)) := by
    intro x hx htype
    have hmem : x ∈ (c.legacyPacket p endpoint stream signaling).1.extraSignaling := hx
    rw [Packet.carriedAs_header_iff hmem htype, legacyPacket_legacySeq, legacyPacket_legacyCount]
    rfl
  have hloop : c.SeqsOfCarriers env p endpoint stream signaling ↔ _ :=
    forall₂_rememberLegacySeqs (c.legacyPacket p endpoint stream signaling).1.legacySeq
      c.currentExtras
  rw [hloop, legacyPacket_seq]
  constructor
  · rintro ⟨hheader, -⟩ ⟨x, hx, htype⟩
    exact (hcarried x hx htype).mp (hheader x hx htype)
  · intro hreach
    refine ⟨fun x hx htype => (hcarried x hx htype).mpr (hreach ⟨x, hx, htype⟩), ?_⟩
    -- the numbers counted along are those of the packets of the extras
    intro k x hk
    exact Packet.carriedAs_separate hk

/-- A peer of version 9, and an extra for the headers, on a packet of the Audio
stream: as behind one packet of the Signaling stream. -/
theorem legacy_seqs_remembered_fails :
    ¬ ∀ (env : Platform) (c : Controller) (p : Packet) (endpoint : Endpoint)
      (stream signaling : OutgoingStream), c.ver.isNew = false →
      c.endpoints.at? endpoint.id = some endpoint →
      c.outgoingStreams[p.streamId.toNat]? = some stream →
      (c.setManager p.streamId.toNat (p.prepare stream.packetManager).2).outgoingStreams[
        StreamId.signaling.toNat]? = some signaling →
      c.SeqsOfCarriers env p endpoint stream signaling := by
  intro h
  let flags : WrappedExtra := { d := .streamFlags { streamId := 1, flags := 1 } }
  let audio := OutgoingStream.new StreamId.audio StreamType.audio 0
  let signaling : OutgoingStream :=
    { id := StreamId.signaling, type := StreamType.signaling
      packetManager := { PacketManager.new StreamId.signaling 0 with seq := 2 } }
  let endpoint : Endpoint := { id := 1, type := .udpRelay }
  let c : Controller := { sampleCall {} with
    ver := { peerVersion := 9, connectionMaxLayer := 92 }, state := .established
    outgoingStreams := [signaling, audio], currentExtras := [{ data := flags }] }
  let p : Packet := { streamId := StreamId.audio, data := some [0] }
  have hall := h samplePlatform c p endpoint audio signaling rfl rfl rfl rfl
  obtain ⟨hfirst, -⟩ := List.forall₂_cons.mp hall
  have hcarried := (UnacknowledgedExtraData.remembers_remember rfl 1).mp hfirst
  have hlt := ((Packet.carriedAs_header_iff (List.mem_singleton.mpr rfl) rfl).mp hcarried).2
  exact absurd hlt (by decide)

end Controller

end Tgvoip
