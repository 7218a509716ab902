import Tgvoip.Video.PacketReassembler

/-!
# FrameRecovery — parity packets and the frames they complete

Runs of the reassembler with `AddFEC`. A parity packet that arrives while
the reassembler waits takes the frame at the front of the window away,
whatever `TryDecodeFEC` makes of it, unless that throws: the flag may be left
from before a late fragment completed the frame, and the decoder may fail.
`Completes` is when it does not.
-/

namespace Tgvoip

open ByteReader (Bytes)

namespace FramePacket

/-- Fragment `i` of the frame is missing, and no other. -/
structure MissesOnly (v : VideoFrame) (i : ℕ) (p : FramePacket) : Prop where
  index : i < v.fragments.length
  missing : p.parts.getD i [] = []
  others : ∀ j < v.fragments.length, j ≠ i → p.parts.getD j [] ≠ []

variable {v : VideoFrame} {came : ℕ → Prop} {p : FramePacket} {i : ℕ}

/-- The part that is filled in is the fragment that is missing. -/
theorem PartOf.fill_eq_addFragment (h : p.PartOf v came) (hmiss : p.MissesOnly v i) (pkt : Bytes) :
    p.fill pkt = p.addFragment pkt i.toUInt32 := by
  have hfew := h.counted.few
  have hcount : p.partCount.toNat = v.fragments.length := by
    rw [h.partCount, VideoFrame.toNat_count]
  have hend : p.parts.length < v.fragments.length → p.parts.length = i := by
    intro hlt
    by_contra hne
    exact hmiss.others p.parts.length hlt hne (List.getD_eq_default _ _ (Nat.le_refl _))
  have hparts : (p.fill pkt).parts = (p.addFragment pkt i.toUInt32).parts := by
    simp only [FramePacket.fill, FramePacket.addFragment, VideoFrame.toNat_index hmiss.index, hcount]
    by_cases hlt : p.parts.length < v.fragments.length
    · rw [if_pos hlt, if_pos (hend hlt)]
    · have hin : i < p.parts.length := Nat.lt_of_lt_of_le hmiss.index (Nat.not_lt.mp hlt)
      rw [if_neg hlt, if_neg (Nat.ne_of_gt hin), if_pos hin]
      have hfind : p.parts.findIdx (·.isEmpty) = i := by
        rw [List.findIdx_eq hin]
        constructor
        · have hmissing := hmiss.missing
          rw [List.getD_eq_getElem?_getD, List.getElem?_eq_getElem hin] at hmissing
          exact List.isEmpty_iff.mpr hmissing
        · intro j hj
          have hother := hmiss.others j (Nat.lt_trans hj hmiss.index) (Nat.ne_of_lt hj)
          rw [List.getD_eq_getElem?_getD, List.getElem?_eq_getElem (Nat.lt_trans hj hin)] at hother
          exact Bool.eq_false_iff.mpr fun he => hother (List.isEmpty_iff.mp he)
      rw [hfind]
  show ({ p.fill pkt with parts := (p.fill pkt).parts } : FramePacket) = _
  rw [hparts]
  rfl

/-- With the missing fragment the packet is the whole frame. -/
theorem PartOf.fill (h : p.PartOf v came) (hmiss : p.MissesOnly v i) :
    (p.fill (v.fragments.getD i [])).call.content = v.content ∧
      p.partCount - p.receivedPartCount = 1 := by
  have hpart : (p.fill (v.fragments.getD i [])).PartOf v fun _ => True := by
    rw [h.fill_eq_addFragment hmiss]
    exact h.addFragment hmiss.index hmiss.missing (fun _ _ => trivial) trivial
  have hfull : (p.fill (v.fragments.getD i [])).Full v := by
    intro j hj
    rw [h.fill_eq_addFragment hmiss, getD_addFragment, VideoFrame.toNat_index hmiss.index]
    split_ifs with heq
    · exact VideoFrame.fragment_ne_nil hmiss.index
    · exact hmiss.others j hj heq
  have hcomplete := hpart.complete_of_full hfull
  refine ⟨(hpart.complete hcomplete).1, ?_⟩
  have hcount : p.receivedPartCount + 1 = p.partCount := beq_iff_eq.mp hcomplete
  grind

end FramePacket

namespace ReassemblerRun

variable {ι : Type*} (frames : ι → VideoFrame)

/-- The fragments of a list of frames. -/
def fragmentsOf (covered : List ι) : List Bytes := covered.flatMap fun k => (frames k).fragments

/-- **A parity packet completes the front frame**: one fragment is missing of
all that the packet was computed over, it is one of the front frame, and not
the longest of them. -/
structure Completes (r : PacketReassembler) (fec : FecPacket) (front : FramePacket) (k : ι) (i : ℕ) :
    Prop where
  timestamp : front.timestamp = (frames k).pts
  misses : front.MissesOnly (frames k) i
  scheme : fec.fecScheme = PacketReassembler.fecSchemeXor
  recovers : ∃ (covered : List ι) (j : ℕ), fec.data = ParityFEC.encode (fragmentsOf frames covered) ∧
    (∀ pkt ∈ fragmentsOf frames covered, pkt.length < 65536) ∧
    (r.recoveryParts fec).Perm ((fragmentsOf frames covered).set j []) ∧
    (fragmentsOf frames covered)[j]? = some ((frames k).fragments.getD i []) ∧
    ∃ l, l ≠ j ∧ ∃ pkt, (fragmentsOf frames covered)[l]? = some pkt ∧
      ((frames k).fragments.getD i []).length ≤ pkt.length

/-- What `AddFEC` is to be called with, where it takes a frame away. It takes none away where it
throws. -/
def Sound (r : ReassemblerRun ι) : ReassemblerEvent ι → Prop
  | .addFragment .. => True
  | .addFEC data fseq frameCount fecScheme =>
    r.reassembler.waitingForFEC = true → ∀ front ∈ r.reassembler.packets.head?,
      (r.reassembler.fecPacket data fseq frameCount fecScheme).covers front = true →
        r.reassembler.BlankFEC (r.reassembler.fecPacket data fseq frameCount fecScheme) ∨
          ∃ k i, Completes frames r.reassembler
            (r.reassembler.fecPacket data fseq frameCount fecScheme) front k i

/-- What happens to the window: the frames in front leave, each with one call
or none, and the others stay with their parts. -/
structure Leaves (r r' : PacketReassembler) (leaving : List (FramePacket × Option FrameCall))
    (stay : List FramePacket) : Prop where
  packets : r.packets = leaving.map Prod.fst ++ stay
  calls : r'.calls = r.calls ++ leaving.filterMap Prod.snd
  left : ∀ x ∈ leaving, ∀ q ∈ r'.packets, q.timestamp ≠ x.1.timestamp
  stays : ∀ p ∈ stay, ∃ q ∈ r'.packets, q.timestamp = p.timestamp ∧
    ∀ j, p.parts.getD j [] ≠ [] → q.parts.getD j [] = p.parts.getD j []

/-- **What a step from `r` to `r'` owes the frames.** -/
structure Owed (r : ReassemblerRun ι) (e : ReassemblerEvent ι) (r' : PacketReassembler) : Prop where
  leaves : ∃ leaving stay, Leaves r.reassembler r' leaving stay ∧
    -- a frame all of whose fragments were added is passed on, with no fragment left to come
    (∀ x ∈ leaving, ∀ k, x.1.timestamp = (frames k).pts → x.1.Full (frames k) →
      (∃ c, x.2 = some c ∧ c.content = (frames k).content) ∧
        ∀ i < (frames k).fragments.length, (k, i) ∈ r.passed) ∧
    -- `AddFEC` takes only a frame away that it completes
    (∀ data fseq frameCount fecScheme, e = .addFEC data fseq frameCount fecScheme →
      ∀ x ∈ leaving, ∃ k i c, x.1.timestamp = (frames k).pts ∧ x.1.MissesOnly (frames k) i ∧
        x.2 = some c ∧ c.content = (frames k).content)
  added : ∀ k i fseq, e = .addFragment k i fseq → ∀ q ∈ r'.packets,
    q.timestamp = (frames k).pts → q.parts.getD i [] = (frames k).fragments.getD i []
  never : ∀ k, (∀ i < (frames k).fragments.length, (k, i) ∈ r.passed) →
    (∀ p ∈ r.reassembler.packets, p.timestamp ≠ (frames k).pts) →
      ∀ q ∈ r'.packets, q.timestamp ≠ (frames k).pts
  asserted : r'.asserted = r.reassembler.asserted

def StepOk (r : ReassemblerRun ι) (e : ReassemblerEvent ι) : Prop :=
  Owed frames r e (r.step frames e).reassembler

variable {frames} {r : ReassemblerRun ι} {k : ι} {i : ℕ} {fseq : UInt8} {fec : FecPacket}
  {front : FramePacket}

/-! ## Parity packets -/

theorem Completes.decode {s : PacketReassembler} (h : Completes frames s fec front k i) :
    ParityFEC.decode (s.recoveryParts fec) fec.data = some ((frames k).fragments.getD i []) := by
  obtain ⟨covered, j, hdata, hshort, hperm, hj, l, hne, pkt, hl, hle⟩ := h.recovers
  obtain ⟨hjlt, hjget⟩ := List.getElem?_eq_some_iff.mp hj
  obtain ⟨hllt, hlget⟩ := List.getElem?_eq_some_iff.mp hl
  have hpackets : ∀ p ∈ fragmentsOf frames covered, p ≠ [] ∧ p.length < 65536 := by
    intro p hp
    obtain ⟨k', -, hp'⟩ := List.mem_flatMap.mp hp
    exact ⟨(frames k').nonempty p hp', hshort p hp⟩
  have hsize := ParityFEC.maxSize_set hjlt hllt hne (by rw [hjget, hlget]; exact hle)
  rw [ParityFEC.decode_perm hperm, hdata, ParityFEC.decode_encode hpackets hjlt hsize, hjget]

theorem Completes.tryDecodeFEC {s : PacketReassembler} {rest : List FramePacket}
    (h : Completes frames s fec front k i) (hpackets : s.packets = front :: rest) :
    s.tryDecodeFEC fec = .ok ({ s with
      packets := front.fill ((frames k).fragments.getD i []) :: rest }.callback
        (front.fill ((frames k).fragments.getD i []))) := by
  have hsome : ((frames k).fragments.getD i []).isEmpty = false :=
    Bool.eq_false_iff.mpr fun he =>
      VideoFrame.fragment_ne_nil h.misses.index (List.isEmpty_iff.mp he)
  unfold PacketReassembler.tryDecodeFEC
  rw [if_pos h.scheme]
  simp only [h.decode, hsome, hpackets]
  rfl

variable {e : ReassemblerEvent ι} {s s' : PacketReassembler}

/-- Only the window, the calls and the assertions are looked at. -/
theorem Owed.congr (h : Owed frames r e s) (hpackets : s'.packets = s.packets)
    (hcalls : s'.calls = s.calls) (hasserted : s'.asserted = s.asserted) : Owed frames r e s' where
  leaves := by
    obtain ⟨leaving, stay, hleaves, hwhole, hfec⟩ := h.leaves
    refine ⟨leaving, stay, ⟨hleaves.packets, hcalls.trans hleaves.calls, ?_, ?_⟩, hwhole, hfec⟩
    · rw [hpackets]
      exact hleaves.left
    · rw [hpackets]
      exact hleaves.stays
  added := by
    rw [hpackets]
    exact h.added
  never := by
    rw [hpackets]
    exact h.never
  asserted := hasserted.trans h.asserted

theorem Window.eq_of_timestamp {passed : List (ι × ℕ)} {packets : List FramePacket}
    {p q : FramePacket} (h : Window frames passed packets) (hp : p ∈ packets) (hq : q ∈ packets)
    (heq : p.timestamp = q.timestamp) : p = q := by
  have hdistinct := List.pairwise_map.mp h.distinct
  refine List.Pairwise.forall_of_forall_of_flip
    (R := fun p q : FramePacket => p.timestamp = q.timestamp → p = q) (fun _ _ _ => rfl) ?_ ?_ hp hq heq
  · exact hdistinct.imp fun hne heq => absurd heq hne
  · exact hdistinct.imp fun hne heq => absurd heq.symm hne

/-- The fragment's frame is not one whose fragments have all been passed. -/
theorem Fresh.pts_ne (hfresh : Fresh frames r (.addFragment k i fseq))
    (hpts : Function.Injective fun k => (frames k).pts) {k' : ι}
    (hall : ∀ j < (frames k').fragments.length, (k', j) ∈ r.passed) :
    (frames k).pts ≠ (frames k').pts := by
  intro heq
  have hk : k = k' := hpts heq
  exact hfresh.2 (hk ▸ hall i (hk ▸ hfresh.1))

/-! ### AddFEC -/

/-- Where nothing leaves, only what stays is owed. -/
theorem leaves_none {e : ReassemblerEvent ι} {r' : PacketReassembler}
    (hcalls : r'.calls = r.reassembler.calls)
    (hstays : ∀ p ∈ r.reassembler.packets, ∃ q ∈ r'.packets, q.timestamp = p.timestamp ∧
      ∀ j, p.parts.getD j [] ≠ [] → q.parts.getD j [] = p.parts.getD j []) :
    ∃ leaving stay, Leaves r.reassembler r' leaving stay ∧
      (∀ x ∈ leaving, ∀ k, x.1.timestamp = (frames k).pts → x.1.Full (frames k) →
        (∃ c, x.2 = some c ∧ c.content = (frames k).content) ∧
          ∀ i < (frames k).fragments.length, (k, i) ∈ r.passed) ∧
      (∀ data fseq frameCount fecScheme, e = .addFEC data fseq frameCount fecScheme →
        ∀ x ∈ leaving, ∃ k i c, x.1.timestamp = (frames k).pts ∧ x.1.MissesOnly (frames k) i ∧
          x.2 = some c ∧ c.content = (frames k).content) := by
  refine ⟨[], r.reassembler.packets, ⟨rfl, ?_, ?_, hstays⟩, ?_, ?_⟩
  · rw [hcalls]
    exact (List.append_nil _).symm
  · simp
  · simp
  · simp

/-- A call that leaves the window as it is. -/
theorem owed_kept (data : Bytes) (fseq : UInt8) (frameCount fecScheme : UInt32) :
    Owed frames r (.addFEC data fseq frameCount fecScheme) r.reassembler := by
  refine ⟨leaves_none rfl fun p hp => ⟨p, hp, rfl, fun _ _ => rfl⟩, ?_, fun _ _ h => h, rfl⟩
  intro k i fseq he
  cases he

theorem owed_takeFront (data : Bytes) (fseq : UInt8) (frameCount fecScheme : UInt32)
    (hpts : Function.Injective fun k => (frames k).pts)
    (hwindow : Window frames r.passed r.reassembler.packets)
    (hsound : r.reassembler.waitingForFEC = true → ∀ front ∈ r.reassembler.packets.head?,
      fec.covers front = true →
        r.reassembler.BlankFEC fec ∨ ∃ k i, Completes frames r.reassembler fec front k i) :
    Owed frames r (.addFEC data fseq frameCount fecScheme) (r.reassembler.takeFront fec).left ∧
      Window frames r.passed (r.reassembler.takeFront fec).left.packets := by
  have htakes := r.reassembler.takeFront_takes fec
  generalize r.reassembler.takeFront fec = o at htakes ⊢
  cases htakes with
  | kept | thrown => exact ⟨owed_kept data fseq frameCount fecScheme, hwindow⟩
  | @taken front rest t hpackets hwaiting hcovers hblank hdecoded =>
    have hfront : front ∈ r.reassembler.packets.head? := by
      rw [hpackets]
      rfl
    obtain ⟨k, i, hcompletes⟩ := (hsound hwaiting front hfront hcovers).resolve_left hblank
    rw [hpackets] at hwindow
    have hpart := hwindow.partOf hpts List.mem_cons_self hcompletes.timestamp
    obtain ⟨hcontent, hone⟩ := hpart.fill hcompletes.misses
    cases (hcompletes.tryDecodeFEC hpackets).symm.trans hdecoded
    have happend : Window frames r.passed ([front] ++ rest) := hwindow
    refine ⟨⟨⟨[(front, some (front.fill ((frames k).fragments.getD i [])).call)], rest,
      ⟨hpackets, rfl, ?_, ?_⟩, ?_, ?_⟩, ?_, ?_, ?_⟩, ?_⟩
    · intro x hx q hq
      rw [List.mem_singleton.mp hx]
      exact happend.apart List.mem_cons_self hq
    · exact fun p hp => ⟨p, hp, rfl, fun _ _ => rfl⟩
    · intro x hx k' heq hfull
      rw [List.mem_singleton.mp hx] at heq hfull
      rw [hpts (heq.symm.trans hcompletes.timestamp : (frames k').pts = (frames k).pts)] at hfull
      exact absurd hcompletes.misses.missing (hfull i hcompletes.misses.index)
    · intro _ _ _ _ _ x hx
      rw [List.mem_singleton.mp hx]
      exact ⟨k, i, _, hcompletes.timestamp, hcompletes.misses, rfl, hcontent⟩
    · intro k i fseq he
      cases he
    · intro k' _ hnone q hq
      exact hnone q (by rw [hpackets]; exact List.mem_cons_of_mem _ hq)
    · show (r.reassembler.asserted && _) = _
      rw [hpart.counted.fits.reassembleAssert_fill hone, Bool.and_true]
    · exact happend.leave

/-! ### AddFragment -/

/-- The new packet is the last one, and stays. -/
theorem exists_stay {packets leaving : List FramePacket} {new : FramePacket}
    (h : packets ++ [new] = leaving ++ s.packets) (hrest : s.packets ≠ []) :
    ∃ stay, packets = leaving ++ stay ∧ s.packets = stay ++ [new] := by
  have hlast := List.dropLast_append_getLast hrest
  rw [← hlast, ← List.append_assoc] at h
  obtain ⟨hfront, hnew⟩ := List.append_inj' h rfl
  refine ⟨s.packets.dropLast, hfront, ?_⟩
  rw [hnew, hlast]

/-- A fragment that does not belong to the packet of its frame would leave that without it. -/
theorem owed_rejected (hpts : Function.Injective fun k => (frames k).pts)
    (hwindow : Window frames r.passed r.reassembler.packets)
    (hfresh : Fresh frames r (.addFragment k i fseq))
    (hknows : r.reassembler.knows ((frames k).fragment i fseq) = false) :
    Owed frames r (.addFragment k i fseq) r.reassembler ∧
      Window frames ((k, i) :: r.passed) r.reassembler.packets := by
  have hnone : ∀ p ∈ r.reassembler.packets, p.timestamp ≠ (frames k).pts := by
    cases hfind : r.reassembler.packets.find? (·.timestamp == (frames k).pts) with
    | none => exact fun p hp => by simpa using List.find?_eq_none.mp hfind p hp
    | some p =>
      have heq : p.timestamp = (frames k).pts := by simpa using List.find?_some hfind
      have hpart := hwindow.partOf hpts (List.mem_of_find?_eq_some hfind) heq
      have hlt : i.toUInt32 < p.partCount := by
        rw [hpart.partCount, UInt32.lt_iff_toNat_lt, VideoFrame.toNat_index hfresh.1,
          VideoFrame.toNat_count]
        exact hfresh.1
      have hknown : r.reassembler.knows ((frames k).fragment i fseq) =
          ((frames k).fragments.length.toUInt32 == p.partCount && i.toUInt32 < p.partCount) := by
        show ((r.reassembler.packets.find? (·.timestamp == (frames k).pts)).any fun p => _) = _
        rw [hfind]
        rfl
      rw [hknown, decide_eq_true hlt, hpart.partCount] at hknows
      simp at hknows
  refine ⟨⟨leaves_none rfl fun p hp => ⟨p, hp, rfl, fun _ _ => rfl⟩, ?_, fun _ _ h => h, rfl⟩,
    hwindow.pass (k, i)⟩
  intro k' i' fseq' he q hq heq
  cases he
  exact absurd heq (hnone q hq)

/-- A fragment of a packet in the window. -/
theorem owed_known (hpts : Function.Injective fun k => (frames k).pts)
    (hwindow : Window frames r.passed r.reassembler.packets)
    (hfresh : Fresh frames r (.addFragment k i fseq))
    {before after : List FramePacket} {p : FramePacket}
    (hpackets : r.reassembler.packets = before ++ p :: after)
    (heq : p.timestamp = (frames k).pts) :
    Owed frames r (.addFragment k i fseq) { r.reassembler with
        packets := before ++ p.addFragment ((frames k).fragments.getD i []) i.toUInt32 :: after
        asserted := r.reassembler.asserted && p.fragmentAssert i.toUInt32 } ∧
      Window frames ((k, i) :: r.passed)
        (before ++ p.addFragment ((frames k).fragments.getD i []) i.toUInt32 :: after) := by
  rw [hpackets] at hwindow
  have hpart := hwindow.partOf hpts (List.mem_append_right _ List.mem_cons_self) heq
  have hnil := hpart.getD_eq_nil hfresh.2
  have hknown := hwindow.known hpts hfresh.1 hfresh.2 heq
  refine ⟨⟨leaves_none rfl ?_, ?_, ?_, ?_⟩, hknown⟩
  · intro q hq
    rw [hpackets] at hq
    rcases List.mem_append.mp hq with hq | hq
    · exact ⟨q, List.mem_append_left _ hq, rfl, fun _ _ => rfl⟩
    rcases List.mem_cons.mp hq with rfl | hq
    · refine ⟨_, List.mem_append_right _ List.mem_cons_self, rfl, fun j hj => ?_⟩
      rw [FramePacket.getD_addFragment]
      refine if_neg fun hji => hj ?_
      have hindex : i.toUInt32.toNat = i := VideoFrame.toNat_index hfresh.1
      rw [hji, hindex, hnil]
    · exact ⟨q, List.mem_append_right _ (List.mem_cons_of_mem _ hq), rfl, fun _ _ => rfl⟩
  · intro k' i' fseq' he q hq hqts
    cases he
    have hq : q = p.addFragment ((frames k).fragments.getD i []) i.toUInt32 :=
      hknown.eq_of_timestamp hq (List.mem_append_right _ List.mem_cons_self) (hqts.trans heq.symm)
    rw [hq, FramePacket.getD_addFragment]
    exact if_pos (VideoFrame.toNat_index hfresh.1).symm
  · intro k' hall hnone q hq
    rcases List.mem_append.mp hq with hq | hq
    · exact hnone q (by rw [hpackets]; exact List.mem_append_left _ hq)
    rcases List.mem_cons.mp hq with rfl | hq
    · exact hnone p (by rw [hpackets]; exact List.mem_append_right _ List.mem_cons_self)
    · exact hnone q (by rw [hpackets]; exact List.mem_append_right _ (List.mem_cons_of_mem _ hq))
  · show (r.reassembler.asserted && p.fragmentAssert i.toUInt32) = _
    rw [hpart.fragmentAssert hfresh.1 hfresh.2, Bool.and_true]

/-- The first fragment of a packet; others may leave. -/
theorem owed_new (hpts : Function.Injective fun k => (frames k).pts)
    (hwindow : Window frames r.passed r.reassembler.packets)
    (hfresh : Fresh frames r (.addFragment k i fseq))
    (hnone : ∀ p ∈ r.reassembler.packets, p.timestamp ≠ (frames k).pts) :
    Owed frames r (.addFragment k i fseq)
        (r.reassembler.openFrame ((frames k).fragment i fseq)).left ∧
      Window frames ((k, i) :: r.passed)
        (r.reassembler.openFrame ((frames k).fragment i fseq)).left.packets := by
  obtain ⟨leaving, r', last, hleft, hevicted⟩ :=
    r.reassembler.openFrame_spec ((frames k).fragment i fseq)
  rw [hleft]
  have hfull := hwindow.push r.reassembler fseq hfresh.1 hnone
  have hsplit : r.reassembler.packets ++ [(r.reassembler.newPacket ((frames k).fragment i
      fseq)).addFragment ((frames k).fragments.getD i []) i.toUInt32] =
      leaving.map Prod.fst ++ r'.packets := hevicted.packets
  have hrest := hevicted.rest (by simp [PacketReassembler.opened])
  obtain ⟨stay, hstay, hpackets⟩ := exists_stay hsplit hrest
  -- each packet of the new window is an old one or the new one
  have hmem : ∀ q ∈ r'.packets, q ∈ r.reassembler.packets ∨
      q.timestamp = (frames k).pts := by
    intro q hq
    rw [hpackets] at hq
    rcases List.mem_append.mp hq with hq | hq
    · exact .inl (by rw [hstay]; exact List.mem_append_right _ hq)
    · exact .inr (by rw [List.mem_singleton.mp hq]; rfl)
  have hleave : Window frames ((k, i) :: r.passed) (leaving.map Prod.fst ++ r'.packets) := by
    rw [← hsplit]
    exact hfull
  refine ⟨⟨⟨leaving, stay, ⟨hstay, ?_, ?_, ?_⟩, ?_, ?_⟩, ?_, ?_, ?_⟩, hleave.leave⟩
  · exact hevicted.calls
  · exact fun x hx q hq => hleave.apart (List.mem_map_of_mem hx) hq
  · intro q hq
    refine ⟨q, ?_, rfl, fun _ _ => rfl⟩
    show q ∈ r'.packets
    rw [hpackets]
    exact List.mem_append_left _ hq
  · intro x hx k' heq hwhole
    have hin : x.1 ∈ r.reassembler.packets := by
      rw [hstay]
      exact List.mem_append_left _ (List.mem_map_of_mem hx)
    have hpart := hwindow.partOf hpts hin heq
    have hcomplete := hpart.complete_of_full hwhole
    obtain ⟨hcontent, hall⟩ := hpart.complete hcomplete
    exact ⟨⟨_, hevicted.complete x hx hcomplete, hcontent⟩, hall⟩
  · intro _ _ _ _ he
    cases he
  · intro k' i' fseq' he q hq hqts
    cases he
    have hq' : q ∈ r.reassembler.packets ++ [(r.reassembler.newPacket
        ((frames k).fragment i fseq)).addFragment ((frames k).fragments.getD i []) i.toUInt32] := by
      have hin : q ∈ leaving.map Prod.fst ++ r'.packets := List.mem_append_right _ hq
      rwa [← hsplit] at hin
    rw [hfull.eq_of_timestamp hq' (List.mem_append_right _ List.mem_cons_self) hqts,
      FramePacket.getD_addFragment]
    exact if_pos (VideoFrame.toNat_index hfresh.1).symm
  · intro k' hall hnone' q hq
    rcases hmem q hq with hq | hq
    · exact hnone' q hq
    · rw [hq]
      exact hfresh.pts_ne hpts hall
  · exact hevicted.asserted hfull.fits

theorem owed_addFragment (hpts : Function.Injective fun k => (frames k).pts)
    (hwindow : Window frames r.passed r.reassembler.packets)
    (hfresh : Fresh frames r (.addFragment k i fseq)) {o : PacketReassembler.Outcome}
    (hhandled : r.reassembler.Handled ((frames k).fragment i fseq) o) :
    Owed frames r (.addFragment k i fseq) o.left ∧
      Window frames ((k, i) :: r.passed) o.left.packets := by
  cases hhandled with
  | ignored hknows hopens => exact owed_rejected hpts hwindow hfresh hknows
  | known hknows hopens hpackets heq hindex => exact owed_known hpts hwindow hfresh hpackets heq
  | opened hknows hopens hnone hindex hcount => exact owed_new hpts hwindow hfresh hnone

/-! ## Runs -/

theorem stepOk_window (hpts : Function.Injective fun k => (frames k).pts)
    (hwindow : Window frames r.passed r.reassembler.packets) (hfresh : Fresh frames r e)
    (hsound : Sound frames r e) :
    StepOk frames r e ∧
      Window frames (r.step frames e).passed (r.step frames e).reassembler.packets := by
  cases e with
  | addFragment k i fseq =>
    exact owed_addFragment hpts hwindow hfresh (r.reassembler.addFragment_handled _)
  | addFEC data fseq frameCount fecScheme =>
    obtain ⟨howed, hwindow'⟩ :=
      owed_takeFront data fseq frameCount fecScheme hpts hwindow hsound
    obtain ⟨fecs, -, hleft⟩ := r.reassembler.addFEC_left data fseq frameCount fecScheme
    show Owed frames r _ (r.reassembler.addFEC data fseq frameCount fecScheme).left ∧
      Window frames r.passed (r.reassembler.addFEC data fseq frameCount fecScheme).left.packets
    rw [hleft]
    exact ⟨howed.congr rfl rfl rfl, hwindow'⟩

/-- **No complete frame is dropped**, as long as `AddFEC` takes no frame away
that it does not complete. -/
theorem complete_frames_passed (frames : ι → VideoFrame)
    (hpts : Function.Injective fun k => (frames k).pts) (events : List (ReassemblerEvent ι))
    (hrun : Runs.Along (step frames) (fun r e => Fresh frames r e ∧ Sound frames r e) {} events) :
    Runs.Along (step frames) (StepOk frames) {} events := by
  have hstart : Window frames ({} : ReassemblerRun ι).passed
      ({} : ReassemblerRun ι).reassembler.packets := ⟨by simp, List.nodup_nil⟩
  exact hrun.strengthen (I := fun r => Window frames r.passed r.reassembler.packets)
    (fun r e hwindow hok => (stepOk_window hpts hwindow hok.1 hok.2).2)
    (fun r e hwindow hok => (stepOk_window hpts hwindow hok.1 hok.2).1) hstart

/-! ### A fragment that is recovered -/

/-- The parity packet over frames 1 to 3. -/
def parityOfThree : Bytes :=
  ParityFEC.encode (fragmentsOf pairFrame
    ((List.finRange 8).filter fun k => 1 ≤ k.val ∧ k.val ≤ 3))

/-- The late fragment is lost. -/
def lossyRun : List (ReassemblerEvent (Fin 8)) := lateRun.dropLast

/-- The parity packet finds all other fragments of frames 1 to 3. -/
theorem completes_lossyRun :
    Completes pairFrame (Runs.exec (step pairFrame) {} lossyRun).reassembler
      ((Runs.exec (step pairFrame) {} lossyRun).reassembler.fecPacket parityOfThree 3 3 1)
      { seq := 1, timestamp := 1, partCount := 2, receivedPartCount := 1, isKeyframe := false,
        rotation := 0, parts := [[1, 1]] } 1 1 where
  timestamp := rfl
  misses := ⟨by decide, by decide, by decide⟩
  scheme := rfl
  recovers := ⟨[1, 2, 3], 1, rfl, by decide, by decide, by decide, 0, by decide, [1, 1], by decide,
    by decide⟩

theorem complete_frames_passed_lossy :
    (Function.Injective (fun k => (pairFrame k).pts) ∧
      Runs.Along (step pairFrame) (fun r e => Fresh pairFrame r e ∧ Sound pairFrame r e) {}
        (lossyRun ++ [.addFEC parityOfThree 3 3 1])) ∧
    Runs.Along (step pairFrame) (StepOk pairFrame) {}
      (lossyRun ++ [.addFEC parityOfThree 3 3 1]) := by
  have hlossy : Runs.Along (step pairFrame) (fun r e => Fresh pairFrame r e ∧ Sound pairFrame r e)
      {} lossyRun := by
    have hfragments : Runs.Along (step pairFrame) (fun r e => Fresh pairFrame r e ∧ OnlyFragments e)
        {} lossyRun := by decide
    refine hfragments.mono fun r e h => ⟨h.1, ?_⟩
    cases e with
    | addFragment => trivial
    | addFEC => cases h.2
  have hrun := Runs.along_append.mpr ⟨hlossy, show Runs.Along (step pairFrame) _ _
    [ReassemblerEvent.addFEC parityOfThree 3 3 1] from ⟨⟨trivial, fun _ front hfront _ => by
      have hhead : (Runs.exec (step pairFrame) {} lossyRun).reassembler.packets.head? = some _ := rfl
      cases hhead.symm.trans hfront
      exact .inr ⟨1, 1, completes_lossyRun⟩⟩, trivial⟩⟩
  exact ⟨⟨injective_pairFrame, hrun⟩, complete_frames_passed pairFrame injective_pairFrame _ hrun⟩

/-! ### A flag that is left -/

/-- Fragments of frames numbered one after the other, out of order by three
frames at most. -/
def InOrder {n : ℕ} (r : ReassemblerRun (Fin n)) : ReassemblerEvent (Fin n) → Prop
  | .addFragment k _ fseq => fseq = k.val.toUInt8 ∧ ∀ x ∈ r.passed, x.1.val ≤ k.val + 3
  | .addFEC .. => False

instance {n : ℕ} (r : ReassemblerRun (Fin n)) : ∀ e, Decidable (InOrder r e)
  | .addFragment k _ fseq =>
    inferInstanceAs (Decidable (fseq = k.val.toUInt8 ∧ ∀ x ∈ r.passed, x.1.val ≤ k.val + 3))
  | .addFEC .. => .isFalse id

/-- Such fragments, and parity packets over the frames they name. -/
def Sequential {n : ℕ} (frames : Fin n → VideoFrame) (r : ReassemblerRun (Fin n)) :
    ReassemblerEvent (Fin n) → Prop
  | .addFragment k i fseq => InOrder r (.addFragment k i fseq)
  | .addFEC data fseq frameCount fecScheme =>
    fecScheme = PacketReassembler.fecSchemeXor ∧ ∃ last : Fin n, fseq = last.val.toUInt8 ∧
      frameCount.toNat ≤ last.val + 1 ∧
      data = ParityFEC.encode (fragmentsOf frames ((List.finRange n).filter fun k =>
        k.val ≤ last.val ∧ last.val < k.val + frameCount.toNat))

/-- The lost fragment comes late, and after it the parity packet. -/
def staleRun : List (ReassemblerEvent (Fin 8)) := lateRun ++ [.addFEC parityOfThree 3 3 1]

theorem staleRun_sequential :
    Runs.Along (step pairFrame) (fun r e => Fresh pairFrame r e ∧ Sequential pairFrame r e) {}
      staleRun := by
  have hfragments : Runs.Along (step pairFrame)
      (fun r e => Fresh pairFrame r e ∧ Sequential pairFrame r e) {}
      (lossyRun ++ [.addFragment 1 1 1]) := by
    have horder : Runs.Along (step pairFrame) (fun r e => Fresh pairFrame r e ∧ InOrder r e) {}
        (lossyRun ++ [.addFragment 1 1 1]) := by decide
    refine horder.mono fun r e h => ⟨h.1, ?_⟩
    cases e with
    | addFragment => exact h.2
    | addFEC => cases h.2
  have hsplit : staleRun = (lossyRun ++ [.addFragment 1 1 1]) ++ [.addFEC parityOfThree 3 3 1] := rfl
  rw [hsplit, Runs.along_append]
  exact ⟨hfragments, ⟨trivial, rfl, 3, rfl, by decide, by decide⟩, trivial⟩

/-- Frame 1 is complete, and taken away without a call. -/
theorem complete_frames_passed_fails :
    ¬ ∀ (n : ℕ) (frames : Fin n → VideoFrame), Function.Injective (fun k => (frames k).pts) →
      ∀ events, Runs.Along (step frames) (fun r e => Fresh frames r e ∧ Sequential frames r e) {}
        events → Runs.Along (step frames) (StepOk frames) {} events := by
  intro hall
  have hrun := hall 8 pairFrame injective_pairFrame staleRun staleRun_sequential
  have hsplit : staleRun = lossyRun ++ [.addFragment 1 1 1, .addFEC parityOfThree 3 3 1] := rfl
  rw [hsplit, Runs.along_append] at hrun
  obtain ⟨-, hok, -⟩ := hrun.2
  obtain ⟨leaving, stay, hleaves, hwhole, -⟩ := hok.leaves
  have hgone : ∀ q ∈ (step pairFrame (step pairFrame (Runs.exec (step pairFrame) {} lossyRun)
      (.addFragment 1 1 1)) (.addFEC parityOfThree 3 3 1)).reassembler.packets,
      q.timestamp ≠ 1 := by decide
  have hcalls : (step pairFrame (step pairFrame (Runs.exec (step pairFrame) {} lossyRun)
      (.addFragment 1 1 1)) (.addFEC parityOfThree 3 3 1)).reassembler.calls =
      (step pairFrame (Runs.exec (step pairFrame) {} lossyRun)
        (.addFragment 1 1 1)).reassembler.calls := by decide
  have hpackets : (step pairFrame (Runs.exec (step pairFrame) {} lossyRun)
      (.addFragment 1 1 1)).reassembler.packets = _ :: _ := rfl
  cases leaving with
  | nil =>
    obtain ⟨q, hq, hts, -⟩ := hleaves.stays _ (by
      rw [← show _ = stay from hleaves.packets, hpackets]
      exact List.mem_cons_self)
    exact hgone q hq hts
  | cons x leaving =>
    have hfront := (hpackets.symm.trans hleaves.packets)
    obtain ⟨hx, -⟩ := List.cons.inj hfront
    obtain ⟨⟨c, hc, -⟩, -⟩ := hwhole x List.mem_cons_self 1 (by rw [← hx]; rfl)
      (by rw [← hx]; decide)
    have hmore := hleaves.calls
    rw [hcalls, List.filterMap_cons_some hc] at hmore
    simp at hmore

end ReassemblerRun

end Tgvoip
