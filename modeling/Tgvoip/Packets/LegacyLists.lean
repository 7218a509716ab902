import Tgvoip.Packets.OldestHeader

/-!
# LegacyLists — the redundant frames of a legacy packet

`parseLegacy` of `Legacy.cpp` reads counted lists of redundant frames in two
places. It keeps the first eight entries and skips the others, but counts
those down from `8 - count` instead of `count - 8`, in eight bits. The two
agree for 136 entries only (`legacyEntries_iff`); for every other count
above eight the reader leaves the list at the wrong byte.
-/

namespace Tgvoip

open ByteReader ObjectParser Packet

/-- Up to 255 entries, each with its length in one byte. -/
structure RedundancyList where
  entries : List Bytes
  count_le : entries.length ≤ 255
  length_le : ∀ b ∈ entries, b.length ≤ 255

namespace RedundancyList

variable (l : RedundancyList)

def count : UInt8 := UInt8.ofNat l.entries.length

def bytes : Bytes := [l.count] ++ l.entries.flatMap serializeBytes

/-- The first eight entries stand at their positions, the other positions stay. -/
def store (v : Entries) : Entries := fun i => (l.entries[i.val]?).or (v i)

/-- The length of the list is none that the reader miscounts. -/
def InStep : Prop := l.entries.length ≤ 8 ∨ l.entries.length = 136

theorem count_toNat : l.count.toNat = l.entries.length := by
  have := l.count_le
  rw [count, UInt8.toNat_ofNat']
  omega

/-- **How many entries are skipped**, in eight bits. -/
theorem skipped_iff :
    (if l.count > 8 then (8 - l.count).toNat else 0) = (l.entries.drop 8).length ↔ l.InStep := by
  have hle := l.count_le
  have hgt : l.count > 8 ↔ 8 < l.entries.length := by
    rw [gt_iff_lt, UInt8.lt_iff_toNat_lt, l.count_toNat]
    exact Iff.rfl
  have hsub : (8 - l.count).toNat = (256 - l.entries.length + 8) % 256 := by
    rw [UInt8.toNat_sub, l.count_toNat]
    rfl
  unfold InStep
  rw [List.length_drop, hsub]
  by_cases h : 8 < l.entries.length
  · rw [if_pos (hgt.mpr h)]
    omega
  · rw [if_neg (mt hgt.mp h)]
    omega

end RedundancyList

/-! ## Editing one of the packets -/

theorem editsOne_onLast : EditsOne IncomingPacket.onLast where
  same o := by
    have hid : o.otherPackets.modify (o.otherPackets.length - 1) (fun p => p) = o.otherPackets :=
      List.modify_id ..
    rw [IncomingPacket.onLast, hid]
  twice f g o := by
    simp only [IncomingPacket.onLast, List.length_modify, List.modify_modify_eq]
    rfl

section
variable {on : (Packet → Packet) → IncomingPacket → IncomingPacket} {o : IncomingPacket}

/-- The first eight entries are what the positions in use are filled with. -/
theorem map_take_finRange (es : List Bytes) :
    ((List.finRange 8).take es.length).map (fun i => es.getD i.val []) = es.take 8 := by
  apply List.ext_getElem
  · simp only [List.length_map, List.length_take, List.length_finRange]
    omega
  · intro i h₁ h₂
    simp only [List.length_take] at h₂
    simp [List.getElem?_eq_getElem (by omega : i < es.length)]

theorem foldl_store (hon : EditsOne on) (l : RedundancyList) (o : IncomingPacket) :
    ((List.finRange 8).take l.entries.length).foldl
        (fun o i => on (setEntry i (l.entries.getD i.val [])) o) o =
      on (fun p => { p with extraEC := l.store p.extraEC }) o := by
  rw [foldl_setEntries hon fun i => l.entries.getD i.val []]
  congr 1
  funext p
  simp only [Packet.mk.injEq, true_and, and_true]
  funext j
  have hmem : j ∈ (List.finRange 8).take l.entries.length ↔ j.val < l.entries.length := by
    rw [List.mem_take_iff_getElem]
    constructor
    · rintro ⟨i, hi, rfl⟩
      simp only [List.getElem_finRange, Fin.val_cast]
      omega
    · intro hj
      exact ⟨j.val, by simp [hj], by simp⟩
  by_cases hj : j.val < l.entries.length
  · simp [RedundancyList.store, hmem, hj]
  · simp [RedundancyList.store, hmem, hj]

/-- **One list**: it is stored and left behind exactly if it is in step. -/
theorem legacyEntries_iff (hon : EditsOne on) (l : RedundancyList) (o : IncomingPacket)
    (rest : Bytes) :
    legacyEntries (fun i b => on (setEntry i b)) l.count
        (o, l.entries.flatMap serializeBytes ++ rest) =
      .ok () (on (fun p => { p with extraEC := l.store p.extraEC }) o, rest) ↔ l.InStep := by
  have hloop := Fills.forM (p := parseBytes) (g := fun i b => on (setEntry i b))
    (e := fun i => serializeBytes (l.entries.getD i.val [])) (v := fun i => l.entries.getD i.val [])
    ((List.finRange 8).take l.entries.length) (fun i _ => decodes_parseBytes (by
      rw [List.getD_eq_getElem?_getD]
      cases h : l.entries[i.val]? with
      | none => exact Nat.zero_le _
      | some b => exact l.length_le b (List.mem_of_getElem? h))) o
  have hbytes : ((List.finRange 8).take l.entries.length).flatMap
      (fun i => serializeBytes (l.entries.getD i.val [])) =
        (l.entries.take 8).flatMap serializeBytes := by
    rw [← map_take_finRange, List.flatMap_map]
  rw [foldl_store hon, hbytes] at hloop
  have hsplit : l.entries.flatMap serializeBytes ++ rest =
      (l.entries.take 8).flatMap serializeBytes ++
        ((l.entries.drop 8).flatMap serializeBytes ++ rest) := by
    rw [← List.append_assoc, ← List.flatMap_append, List.take_append_drop]
  have hread := run_times_behind takes_parseBytes (fun data => by omega)
    (fun b (hb : b ∈ l.entries.drop 8) =>
      decodes_parseBytes (l.length_le b (List.mem_of_mem_drop hb)))
    (if l.count > 8 then (8 - l.count).toNat else 0) rest
  rw [← l.skipped_iff, ← hread, legacyEntries, l.count_toNat, hsplit, hloop.run_bind]
  exact tryRead_skip_iff

end

/-! ## The frames -/

/-- A frame of `PKT_STREAM_DATA` as it is on the wire; the list counts only if the length field
announces one. -/
structure LegacyFrame where
  flags : UInt8
  len : UInt16
  seq : UInt32
  fragmentIndex : UInt8
  fragmentCount : UInt8
  data : Bytes
  list : RedundancyList
  len_lt : flags &&& StreamData.flagLen16 = 0 → len < 256
  data_length : data.length = (len &&& 0x7FF).toNat

namespace LegacyFrame

variable (f : LegacyFrame)

def isWide : Bool := f.flags &&& StreamData.flagLen16 != 0

def isFragmented : Bool := f.len &&& StreamData.xflagFragmented != 0

def isKeyframe : Bool := f.len &&& StreamData.xflagKeyframe != 0

def hasList : Bool := f.len &&& StreamData.xflagExtraFEC != 0

def bytes : Bytes :=
  [f.flags] ++ ((if f.isWide then le16 f.len else [f.len.toUInt8]) ++ (le32 f.seq ++
    ((if f.isFragmented then [f.fragmentIndex] ++ [f.fragmentCount] else []) ++
      (f.data ++ if f.hasList then f.list.bytes else []))))

/-- The fields in front of the list. -/
def storeFront (p : Packet) : Packet :=
  let p := { p with seq := f.seq / 60 + 1, streamId := f.flags &&& 0x3F }
  let p := if f.isFragmented then
    { p with
      eFlags := p.eFlags ||| EFlags.fragmented, fragmentIndex := f.fragmentIndex
      fragmentCount := f.fragmentCount } else p
  let p := if f.isKeyframe then { p with eFlags := p.eFlags ||| EFlags.keyframe } else p
  { p with data := some f.data }

def store (p : Packet) : Packet :=
  let p := f.storeFront p
  if f.hasList then { p with extraEC := f.list.store p.extraEC } else p

/-- The list, if there is one, is in step. -/
def InStep : Prop := f.hasList = true → f.list.InStep

theorem decodes_len :
    Decodes (IncomingPacket.parseLength f.isWide)
      (if f.isWide then le16 f.len else [f.len.toUInt8]) f.len := by
  cases hwide : f.isWide with
  | true => exact decodes_u16 f.len
  | false =>
      have hlt : f.len < 256 := f.len_lt (by simpa [isWide] using hwide)
      have hnat : f.len.toNat < 256 := hlt
      have hlen : f.len.toUInt8.toUInt16 = f.len := by
        apply UInt16.toNat_inj.mp
        rw [UInt8.toNat_toUInt16, UInt16.toNat_toUInt8]
        exact Nat.mod_eq_of_lt hnat
      have hread := (decodes_u8 f.len.toUInt8).map UInt8.toUInt16
      rw [hlen] at hread
      exact hread

variable {on : (Packet → Packet) → IncomingPacket → IncomingPacket}

/-- The fragment fields, if they are announced. -/
theorem fills_fragment (on : (Packet → Packet) → IncomingPacket → IncomingPacket)
    (o : IncomingPacket) :
    Fills (onlyIf f.isFragmented do
        edit (on fun p => { p with eFlags := p.eFlags ||| EFlags.fragmented })
        field u8 fun x => on fun p => { p with fragmentIndex := x }
        field u8 fun x => on fun p => { p with fragmentCount := x })
      (if f.isFragmented then [f.fragmentIndex] ++ [f.fragmentCount] else []) () o
      (if f.isFragmented then
        on (fun p => { p with fragmentCount := f.fragmentCount })
          (on (fun p => { p with fragmentIndex := f.fragmentIndex })
            (on (fun p => { p with eFlags := p.eFlags ||| EFlags.fragmented }) o)) else o) := by
  cases f.isFragmented with
  | true =>
      exact Fills.onlyIf_true rfl (Fills.edit_bind
        ((Fills.field (decodes_u8 _) _).bind (Fills.field (decodes_u8 _) _)))
  | false => exact Fills.onlyIf_false rfl

/-- Up to the list, a frame is always read right. -/
theorem run_front (fresh : ℕ → Bytes) (hon : EditsOne on) (o : IncomingPacket) (rest : Bytes) :
    IncomingPacket.parseFrame fresh on (o, f.bytes ++ rest) =
      onlyIf f.hasList (do
        let count ← tryRead u8
        legacyEntries (fun i b => on (setEntry i b)) count)
        (on f.storeFront o, (if f.hasList then f.list.bytes else []) ++ rest) := by
  have hdata : ∀ o, Fills (readData fresh (f.len &&& 0x7FF).toNat
      fun d => on fun p => { p with data := some d }) f.data () o
      (on (fun p => { p with data := some f.data })
        (on (fun p => { p with data := some (fresh f.data.length) }) o)) := by
    rw [← f.data_length]
    exact fills_readData fresh f.data _
  unfold IncomingPacket.parseFrame bytes
  simp only [List.append_assoc]
  rw [tryRead_bind (decodes_u8 _)]
  show (tryRead (IncomingPacket.parseLength f.isWide) >>= _) _ = _
  rw [tryRead_bind f.decodes_len, (Fills.field (decodes_u32 _) _).run_bind, edit_bind]
  show (onlyIf f.isFragmented _ >>= _) _ = _
  rw [(f.fills_fragment on _).run_bind]
  show (onlyIf f.isKeyframe _ >>= _) _ = _
  rw [onlyIf_edit_bind, (hdata _).run_bind]
  show onlyIf f.hasList _ (_, _) = _
  congr 2
  unfold storeFront
  cases f.isFragmented <;> cases f.isKeyframe <;>
    simp only [hon.twice, if_true, if_false, Bool.false_eq_true]

/-- **One frame** is read from its first byte to its last exactly if its list is in step. -/
theorem parseFrame_iff (fresh : ℕ → Bytes) (hon : EditsOne on) (o : IncomingPacket) (rest : Bytes) :
    IncomingPacket.parseFrame fresh on (o, f.bytes ++ rest) = .ok () (on f.store o, rest) ↔
      f.InStep := by
  rw [f.run_front fresh hon]
  unfold InStep store
  cases hlist : f.hasList with
  | true =>
      have hstore := hon.twice f.storeFront
        (fun p => { p with extraEC := f.list.store p.extraEC }) o
      simp only [if_true, RedundancyList.bytes, List.append_assoc, true_imp_iff, ← hstore]
      show (tryRead u8 >>= _) _ = _ ↔ _
      rw [tryRead_bind (decodes_u8 f.list.count)]
      exact legacyEntries_iff hon f.list (on f.storeFront o) rest
  | false => simp [onlyIf]

end LegacyFrame

/-- An object with one more packet that came along. -/
def IncomingPacket.addPacket (o : IncomingPacket) : IncomingPacket :=
  { o with otherPackets := o.otherPackets ++ [{ legacy := true }] }

/-- What the frames make of the object: all but the last go to packets of their own. -/
def storeFrames : List LegacyFrame → IncomingPacket → IncomingPacket
  | [], o => o
  | [f], o => IncomingPacket.onThis f.store o
  | f :: g :: fs, o => storeFrames (g :: fs) (IncomingPacket.onLast f.store o.addPacket)

/-- Each frame is read from its first byte to its last. -/
def ReadsFrames (fresh : ℕ → Bytes) : List LegacyFrame → IncomingPacket → Bytes → Prop
  | [], _, _ => True
  | [f], o, rest =>
      IncomingPacket.parseFrame fresh IncomingPacket.onThis (o, f.bytes ++ rest) =
        .ok () (IncomingPacket.onThis f.store o, rest)
  | f :: g :: fs, o, rest =>
      let behind := (g :: fs).flatMap LegacyFrame.bytes ++ rest
      IncomingPacket.parseFrame fresh IncomingPacket.onLast (o.addPacket, f.bytes ++ behind) =
        .ok () (IncomingPacket.onLast f.store o.addPacket, behind) ∧
      ReadsFrames fresh (g :: fs) (IncomingPacket.onLast f.store o.addPacket) rest

theorem readsFrames_iff (fresh : ℕ → Bytes) (fs : List LegacyFrame) (o : IncomingPacket)
    (rest : Bytes) : ReadsFrames fresh fs o rest ↔ ∀ f ∈ fs, f.InStep := by
  induction fs, o using storeFrames.induct with
  | case1 o => simp [ReadsFrames]
  | case2 f o =>
      rw [ReadsFrames, f.parseFrame_iff fresh editsOne_onThis, List.forall_mem_singleton]
  | case3 f g fs o ih =>
      rw [ReadsFrames, ih, f.parseFrame_iff fresh editsOne_onLast, List.forall_mem_cons (l := g :: fs)]

/-- The loop over the frames, if each is read right. -/
theorem ReadsFrames.run {fresh : ℕ → Bytes} {fs : List LegacyFrame} {o : IncomingPacket}
    {rest : Bytes} (h : ReadsFrames fresh fs o rest) :
    IncomingPacket.parseFrames fresh fs.length (o, fs.flatMap LegacyFrame.bytes ++ rest) =
      .ok () (storeFrames fs o, rest) := by
  induction fs, o using storeFrames.induct with
  | case1 o => rfl
  | case2 f o =>
      rw [List.flatMap_singleton]
      exact h
  | case3 f g fs o ih =>
      obtain ⟨hfirst, hrest⟩ := h
      rw [List.flatMap_cons, List.append_assoc]
      exact (bind_ok hfirst).trans (ih hrest)

/-! ## The packets with lists -/

/-- The packets that carry redundant frames, behind their header. -/
inductive ListedPacket where
  | ec (streamId : UInt8) (seq : UInt32) (list : RedundancyList)
  | data (f : LegacyFrame)
  | dataX2 (f g : LegacyFrame)
  | dataX3 (f g h : LegacyFrame)

namespace ListedPacket

def type : ListedPacket → UInt8
  | ec .. => PktType.streamEC
  | data _ => PktType.streamData
  | dataX2 .. => PktType.streamDataX2
  | dataX3 .. => PktType.streamDataX3

def frames : ListedPacket → List LegacyFrame
  | ec .. => []
  | data f => [f]
  | dataX2 f g => [f, g]
  | dataX3 f g h => [f, g, h]

def bytes : ListedPacket → Bytes
  | ec streamId seq list => [streamId] ++ (le32 seq ++ list.bytes)
  | p => p.frames.flatMap LegacyFrame.bytes

/-- The lists of a packet. -/
def lists : ListedPacket → List RedundancyList
  | ec _ _ list => [list]
  | p => (p.frames.filter LegacyFrame.hasList).map LegacyFrame.list

def store : ListedPacket → IncomingPacket → IncomingPacket
  | ec streamId seq list, o =>
      { o with streamId, seq := seq / 60 + 1, extraEC := list.store o.extraEC }
  | p, o => storeFrames p.frames o

variable {fresh : ℕ → Bytes} {ver : VersionInfo} {p : ListedPacket}

/-- **The lists stay in step**: behind the header, which leaves `o` and the bytes of the packet,
the packet is read whole, each frame from its first byte to its last. -/
structure StaysInStep (fresh : ℕ → Bytes) (ver : VersionInfo) (p : ListedPacket)
    (start : IncomingPacket × Bytes) (o : IncomingPacket) (rest : Bytes) : Prop where
  whole : IncomingPacket.parseLegacy fresh ver start = .ok () (p.store o, rest)
  frames : ReadsFrames fresh p.frames o rest

theorem parseStreamEC_iff (streamId : UInt8) (seq : UInt32) (list : RedundancyList)
    (o : IncomingPacket) (rest : Bytes) :
    IncomingPacket.parseStreamEC (o, (ec streamId seq list).bytes ++ rest) =
      .ok () ((ec streamId seq list).store o, rest) ↔ list.InStep := by
  rw [← legacyEntries_iff editsOne_onThis list { o with streamId, seq := seq / 60 + 1 } rest]
  simp only [IncomingPacket.parseStreamEC, bytes, RedundancyList.bytes, List.append_assoc]
  rw [(Fills.field (decodes_u8 _) _).run_bind, (Fills.field (decodes_u32 _) _).run_bind,
    tryRead_bind (decodes_u8 list.count), edit_bind]
  rfl

/-- The lists are those of the frames. -/
theorem forall_lists (hp : p.type ≠ PktType.streamEC) :
    (∀ l ∈ p.lists, l.InStep) ↔ ∀ f ∈ p.frames, f.InStep := by
  cases p with
  | ec s n l => exact absurd rfl hp
  | _ =>
      simp only [lists, List.forall_mem_map, List.mem_filter, and_imp]
      rfl

theorem body_frames (hp : p.type ≠ PktType.streamEC) :
    IncomingPacket.parseLegacyBody fresh ver p.type =
      IncomingPacket.parseFrames fresh p.frames.length := by
  cases p with
  | ec s n l => exact absurd rfl hp
  | _ => rfl

/-- **When redundancy lists stay in step**: exactly if each list has at most eight entries, or
136 of them. -/
theorem staysInStep_iff (fresh : ℕ → Bytes) (ver : VersionInfo) (p : ListedPacket)
    (hver : p.type = PktType.streamEC → ver.peerVersion < 7) (start : IncomingPacket × Bytes)
    (o : IncomingPacket) (rest : Bytes)
    (hfront : IncomingPacket.parseLegacyFront ver start = .ok p.type (o, p.bytes ++ rest)) :
    p.StaysInStep fresh ver start o rest ↔ ∀ l ∈ p.lists, l.InStep := by
  have hbody : IncomingPacket.parseLegacy fresh ver start =
      IncomingPacket.parseLegacyBody fresh ver p.type (o, p.bytes ++ rest) := by
    rw [IncomingPacket.parseLegacy_eq]
    exact bind_ok hfront
  by_cases hp : p.type = PktType.streamEC
  · cases p with
    | ec streamId seq list =>
        have hec : IncomingPacket.parseLegacy fresh ver start =
            IncomingPacket.parseStreamEC (o, (ec streamId seq list).bytes ++ rest) := by
          have hv : decide (ver.peerVersion < 7) = true := decide_eq_true (hver rfl)
          rw [hbody]
          show onlyIf (decide (ver.peerVersion < 7)) _ _ = _
          rw [hv]
          rfl
        have hiff := parseStreamEC_iff streamId seq list o rest
        rw [← hec] at hiff
        rw [lists, List.forall_mem_singleton, ← hiff]
        exact ⟨fun h => h.whole, fun h => ⟨h, trivial⟩⟩
    | _ => cases hp
  · rw [forall_lists hp, ← readsFrames_iff fresh _ o rest]
    refine ⟨fun h => h.frames, fun h => ⟨?_, h⟩⟩
    have hall : p.bytes = p.frames.flatMap LegacyFrame.bytes ∧ p.store o = storeFrames p.frames o := by
      cases p with
      | ec streamId seq list => exact absurd rfl hp
      | _ => exact ⟨rfl, rfl⟩
    rw [hbody, body_frames hp, hall.1, hall.2]
    exact h.run

/-- A list of empty entries. -/
def emptyEntries (n : ℕ) (h : n ≤ 255) : RedundancyList where
  entries := List.replicate n []
  count_le := by simpa using h
  length_le b hb := by rw [List.eq_of_mem_replicate hb]; decide

/-- A header of the legacy format without extras. -/
def sampleHeader (type : UInt8) : Bytes := [type] ++ List.replicate 13 0

/-- Two entries are read. -/
theorem staysInStep_iff_two :
    (ec 1 60 (emptyEntries 2 (by decide))).StaysInStep (fun n => List.replicate n 0) ⟨0, 92⟩
        ({}, sampleHeader PktType.streamEC ++ (ec 1 60 (emptyEntries 2 (by decide))).bytes)
        { legacy := true } [] ↔
      ∀ l ∈ (ec 1 60 (emptyEntries 2 (by decide))).lists, l.InStep :=
  staysInStep_iff _ _ _ (by decide) _ _ _ rfl

/-- Nine entries are refused: the reader looks for 255 more behind the eighth. -/
theorem staysInStep_fails :
    ¬ ∀ (fresh : ℕ → Bytes) (ver : VersionInfo) (p : ListedPacket) (start : IncomingPacket × Bytes)
      (o : IncomingPacket) (rest : Bytes), (p.type = PktType.streamEC → ver.peerVersion < 7) →
      IncomingPacket.parseLegacyFront ver start = .ok p.type (o, p.bytes ++ rest) →
      p.StaysInStep fresh ver start o rest := by
  intro h
  have hstays := h (fun n => List.replicate n 0) ⟨0, 92⟩ (ec 1 60 (emptyEntries 9 (by decide)))
    ({}, sampleHeader PktType.streamEC ++ (ec 1 60 (emptyEntries 9 (by decide))).bytes)
    { legacy := true } [] (by decide) rfl
  cases hstays.whole

end ListedPacket

end Tgvoip
