import Mathlib.Data.List.Nodup
import Tgvoip.Video.FrameRecovery

/-!
# ReassemblerCalls — the reassembler under arbitrary calls

Fragments and parity packets come from the network: any index and count, any
pts, data that may be empty, and everything more than once. The sizes of the
lists stay bounded (`Bounded`) as long as the loop of `AddFragment` does not
come to a parity packet that throws (`Tame`): then it stops with more than
three frames in the window and no flag set. The window is made of the frames
that were added and did not leave in any case (`Tracked`). The assertions hold
as long as a packet gets a fragment once, and no parity packet is decoded for
a front frame that does not miss exactly one (`Careful`).

A packet `Holds` fragments: it is the counter, the number of the parts and
the parts themselves that have to agree with the fragments it was given.
-/

namespace Tgvoip

open ByteReader (Bytes)

/-! ## A packet and the fragments it was given -/

namespace FramePacket

/-- The packet was given the fragments `is`, each once. -/
structure Holds (p : FramePacket) (is : List ℕ) : Prop where
  once : is.Nodup
  inside : ∀ i ∈ is, i < p.parts.length
  few : p.parts.length ≤ p.partCount.toNat
  received : p.receivedPartCount.toNat = is.length
  part : ∀ i, p.parts.getD i [] ≠ [] → i ∈ is

variable {p : FramePacket} {is : List ℕ} {pkt : Bytes} {i : UInt32}

theorem Holds.length_le (h : p.Holds is) : is.length ≤ p.parts.length := by
  have hsub : is ⊆ List.range p.parts.length := fun i hi => List.mem_range.mpr (h.inside i hi)
  simpa using h.once.length_le_of_subset hsub

theorem Holds.fits (h : p.Holds is) : p.Fits where
  counted := by
    rw [h.received]
    exact h.length_le
  few := h.few

/-- Not one fragment is missing, and one is counted as if it were. -/
theorem not_reassembleAssert_fill (h : p.partCount - p.receivedPartCount ≠ 1) (recovered : Bytes) :
    (p.fill recovered).reassembleAssert = false := by
  have hne : p.partCount ≠ p.receivedPartCount + 1 := by grind
  simp only [FramePacket.reassembleAssert, Bool.and_eq_false_iff, beq_eq_false_iff_ne]
  exact .inl hne

theorem Holds.addFragment (h : p.Holds is) (hi : i < p.partCount) (hnew : i.toNat ∉ is)
    (pkt : Bytes) : (p.addFragment pkt i).Holds (i.toNat :: is) := by
  have hlength := length_addFragment p pkt i
  have hlt : i.toNat < p.partCount.toNat := hi
  have hinside : ∀ j ∈ i.toNat :: is, j < (p.addFragment pkt i).parts.length := by
    intro j hj
    rw [hlength]
    rcases List.mem_cons.mp hj with rfl | hj
    · omega
    · have := h.inside j hj
      omega
  have hfew : (p.addFragment pkt i).parts.length ≤ p.partCount.toNat := by
    have := h.few
    omega
  have honce : (i.toNat :: is).Nodup := List.nodup_cons.mpr ⟨hnew, h.once⟩
  refine ⟨honce, hinside, hfew, ?_, ?_⟩
  · have hall : (i.toNat :: is).length ≤ p.partCount.toNat := by
      have hsub : i.toNat :: is ⊆ List.range p.partCount.toNat := fun j hj =>
        List.mem_range.mpr (Nat.lt_of_lt_of_le (hinside j hj) hfew)
      simpa using honce.length_le_of_subset hsub
    have hsize := p.partCount.toNat_lt
    rw [List.length_cons] at hall ⊢
    show (p.receivedPartCount + 1).toNat = _
    rw [UInt32.toNat_add, h.received]
    exact Nat.mod_eq_of_lt (by show is.length + 1 < _; omega)
  · intro j hj
    rw [getD_addFragment] at hj
    split_ifs at hj with heq
    · exact heq ▸ List.mem_cons_self
    · exact List.mem_cons_of_mem _ (h.part j hj)

theorem Holds.fragmentAssert (h : p.Holds is) (hnew : i.toNat ∉ is) :
    p.fragmentAssert i = true := by
  have hnil : p.parts.getD i.toNat [] = [] := by
    by_contra hne
    exact hnew (h.part _ hne)
  unfold FramePacket.fragmentAssert
  rw [hnil]
  exact ite_self true

theorem not_fragmentAssert (h : p.parts.getD i.toNat [] ≠ []) : p.fragmentAssert i = false := by
  have hlt : i.toNat < p.parts.length := by
    by_contra hge
    exact h (List.getD_eq_default _ _ (Nat.not_lt.mp hge))
  unfold FramePacket.fragmentAssert
  rw [if_pos hlt]
  exact Bool.eq_false_iff.mpr fun he => h (List.isEmpty_iff.mp he)

end FramePacket

/-! ## What leaves the window -/

namespace PacketReassembler

variable {r : PacketReassembler}

/-- What the loop leaves behind, for the sizes. A window of five comes in only while the
reassembler waits. -/
structure Trimmed (r : PacketReassembler) (window : List FramePacket) (o : Outcome) : Prop where
  few : (∃ r', o = .ok r') → window.length ≤ 4 ∨ (window.length ≤ 5 ∧ r.waitingForFEC = true) →
    o.left.packets.length ≤ 3 ∨ (o.left.packets.length = 4 ∧ o.left.waitingForFEC = true)
  stuck : (∃ r', o = .error r') → 4 ≤ o.left.packets.length ∧ o.left.waitingForFEC = false
  old : r.oldPackets.length ≤ numOldPackets → o.left.oldPackets.length ≤ numOldPackets

theorem evict_trimmed (r : PacketReassembler) (window : List FramePacket) :
    Trimmed r window (evict r window) := by
  refine evict_induction (motive := Trimmed) ?_ ?_ ?_ ?_ r window
  · intro r window hfew
    exact ⟨fun _ _ => .inl hfew, (by rintro ⟨_, h⟩; cases h), id⟩
  · intro r window hmany hwaiting
    refine ⟨fun _ h => .inr ⟨?_, rfl⟩, (by rintro ⟨_, h⟩; cases h), id⟩
    show window.length = 4
    rw [hwaiting] at h
    simpa [Nat.le_antisymm_iff, hmany] using h
  · intro r old rest hmany hstuck
    refine ⟨(by rintro ⟨_, h⟩; cases h), fun _ => ⟨?_, hstuck.waiting⟩, id⟩
    show 4 ≤ (old :: rest).length
    rw [List.length_cons]
    omega
  · intro r old rest call s hmany hround ih
    refine ⟨fun hok h => ih.few hok (.inl ?_), ih.stuck, fun hold => ih.old ?_⟩
    · rw [List.length_cons] at h
      omega
    · rcases hround.oldPackets with hsame | hretired
      · rw [hsame]
        exact hold
      · rw [hretired]
        exact length_keepLast _ _

theorem trim_trimmed (r : PacketReassembler) (f : Fragment) :
    Trimmed { r with maxTimestamp := max r.maxTimestamp f.pts } (r.opened f) (r.trim f) :=
  evict_trimmed _ _

end PacketReassembler

/-! ## Runs -/

inductive ReassemblerCall where
  | addFragment (f : Fragment)
  | addFEC (data : Bytes) (fseq : UInt8) (frameCount fecScheme : UInt32)

/-- A reassembler, with the history of its window. -/
structure ReassemblerCalls where
  reassembler : PacketReassembler := {}
  /-- The seq and pts of each frame that was added. -/
  added : List (UInt32 × UInt32) := []
  /-- How many frames have left the window. -/
  evicted : ℕ := 0
  /-- The pts and index of each fragment that packets of the window were given. -/
  given : List (UInt32 × ℕ) := []

namespace ReassemblerCalls

/-- The frame of a fragment that opens one. -/
def frameOf (r : PacketReassembler) (f : Fragment) : List (UInt32 × UInt32) :=
  if r.opens f then [(r.frameSeq f.fseq, f.pts)] else []

/-- A frame that is opened has no fragments from before. -/
def give (r : PacketReassembler) (given : List (UInt32 × ℕ)) (f : Fragment) : List (UInt32 × ℕ) :=
  if r.knows f then (f.pts, f.fragmentIndex.toNat) :: given
  else if r.opens f then (f.pts, f.fragmentIndex.toNat) :: given.filter (·.1 ≠ f.pts)
  else given

/-- A call opened the `frames` and left the reassembler as `r'`. -/
def note (r : ReassemblerCalls) (frames : List (UInt32 × UInt32)) (r' : PacketReassembler)
    (given : List (UInt32 × ℕ)) : ReassemblerCalls where
  reassembler := r'
  added := r.added ++ frames
  evicted := r.evicted + (r.reassembler.packets.length + frames.length - r'.packets.length)
  given := given

def step (r : ReassemblerCalls) : ReassemblerCall → ReassemblerCalls
  | .addFragment f =>
    r.note (frameOf r.reassembler f) (r.reassembler.addFragment f).left
      (give r.reassembler r.given f)
  | .addFEC data fseq frameCount fecScheme =>
    r.note [] (r.reassembler.addFEC data fseq frameCount fecScheme).left r.given

/-- The window as the frames that were added and did not leave, and the lists beside it. -/
structure Tracked (r : ReassemblerCalls) : Prop where
  waiting : r.reassembler.waitingForFEC = true → r.reassembler.packets ≠ []
  old : r.reassembler.oldPackets.length ≤ 3
  fec : r.reassembler.fecPackets.length ≤ 10
  frames : r.reassembler.packets.map (fun p => (p.seq, p.timestamp)) = r.added.drop r.evicted
  count : r.added.length = r.evicted + r.reassembler.packets.length
  distinct : (r.reassembler.packets.map (·.timestamp)).Nodup

/-- **The sizes**: at most four frames are in the window, and four only with the flag. -/
structure Bounded (r : ReassemblerCalls) : Prop extends Tracked r where
  few : r.reassembler.packets.length ≤ 4
  full : r.reassembler.packets.length = 4 → r.reassembler.waitingForFEC = true

variable {r : ReassemblerCalls} {e : ReassemblerCall}

theorem bounded_init : Bounded {} where
  few := Nat.zero_le 4
  full h := absurd h (by decide)
  waiting h := absurd h (by decide)
  old := Nat.zero_le 3
  fec := Nat.zero_le 10
  frames := rfl
  count := rfl
  distinct := List.nodup_nil

/-- **Frames are appended to the window and leave from the front.** -/
theorem Tracked.note (h : Tracked r) {r' : PacketReassembler} {window leaving : List FramePacket}
    {frames : List (UInt32 × UInt32)} (given : List (UInt32 × ℕ))
    (hwindow : window.map (fun p => (p.seq, p.timestamp)) =
      r.reassembler.packets.map (fun p => (p.seq, p.timestamp)) ++ frames)
    (hdistinct : (window.map (·.timestamp)).Nodup) (hleave : window = leaving ++ r'.packets)
    (hwaiting : r'.waitingForFEC = true → r'.packets ≠ []) (hold : r'.oldPackets.length ≤ 3)
    (hfec : r'.fecPackets.length ≤ 10) : Tracked (r.note frames r' given) := by
  have hlength : r.reassembler.packets.length + frames.length =
      leaving.length + r'.packets.length := by
    have hlength := congrArg List.length hwindow
    rw [List.length_map, List.length_append, List.length_map] at hlength
    rw [← hlength, hleave, List.length_append]
  have hgone : r.reassembler.packets.length + frames.length - r'.packets.length =
      leaving.length := by omega
  constructor
  case waiting => exact hwaiting
  case old => exact hold
  case fec => exact hfec
  case frames =>
    have hall : (r.added ++ frames).drop r.evicted = window.map fun p => (p.seq, p.timestamp) := by
      rw [List.drop_append_of_le_length (by rw [h.count]; exact Nat.le_add_right _ _), hwindow,
        h.frames]
    show r'.packets.map _ = (r.added ++ frames).drop (r.evicted + _)
    rw [hgone, ← List.drop_drop, hall, hleave, List.map_append, ← List.length_map, List.drop_left]
  case count =>
    show (r.added ++ frames).length = r.evicted + _ + r'.packets.length
    rw [List.length_append, h.count, hgone]
    omega
  case distinct =>
    rw [hleave, List.map_append, List.nodup_append] at hdistinct
    exact hdistinct.2.1

/-- A call that keeps the window. -/
theorem Tracked.note_nil (h : Tracked r) {r' : PacketReassembler} (given : List (UInt32 × ℕ))
    (hwindow : r'.packets.map (fun p => (p.seq, p.timestamp)) =
      r.reassembler.packets.map fun p => (p.seq, p.timestamp))
    (hwaiting : r'.waitingForFEC = r.reassembler.waitingForFEC) (hold : r'.oldPackets.length ≤ 3)
    (hfec : r'.fecPackets.length ≤ 10) : Tracked (r.note [] r' given) := by
  have hlength : r'.packets.length = r.reassembler.packets.length := by
    simpa using congrArg List.length hwindow
  have hpts : r'.packets.map (·.timestamp) = r.reassembler.packets.map (·.timestamp) := by
    simpa [List.map_map, Function.comp_def] using congrArg (List.map Prod.snd) hwindow
  refine h.note given (hwindow.trans (List.append_nil _).symm) ?_ (List.nil_append _).symm ?_
    hold hfec
  · rw [hpts]
    exact h.distinct
  · rw [hwaiting, ← List.length_pos_iff, hlength, List.length_pos_iff]
    exact h.waiting

theorem Tracked.addFragment (h : Tracked r) (f : Fragment) :
    Tracked (r.step (.addFragment f)) := by
  have hhandled := r.reassembler.addFragment_handled f
  show Tracked (r.note _ (r.reassembler.addFragment f).left _)
  generalize r.reassembler.addFragment f = o at hhandled
  cases hhandled with
  | ignored hknows hopens =>
    rw [frameOf, hopens]
    exact h.note_nil _ rfl rfl h.old h.fec
  | @known before after p hknows hopens hpackets hpts hindex =>
    rw [frameOf, hopens]
    refine h.note_nil _ ?_ rfl h.old h.fec
    show (before ++ p.addFragment f.pkt f.fragmentIndex :: after).map _ = _
    rw [hpackets, List.map_append, List.map_append]
    rfl
  | opened hknows hopens hpts hindex hcount =>
    obtain ⟨last, hleft⟩ := r.reassembler.openFrame_left f
    obtain ⟨leaving, hevicted⟩ := r.reassembler.trim_spec f
    have htrimmed := r.reassembler.trim_trimmed f
    rw [hleft, frameOf, hopens]
    refine h.note _ (List.map_append ..) ?_ hevicted.packets ?_ ?_ ?_
    · rw [PacketReassembler.opened, List.map_append, List.nodup_append]
      refine ⟨h.distinct, List.pairwise_singleton _ _, ?_⟩
      intro t ht t' ht'
      obtain ⟨p, hp, rfl⟩ := List.mem_map.mp ht
      rw [List.mem_singleton.mp ht']
      exact hpts p hp
    · exact fun _ => hevicted.rest (by simp [PacketReassembler.opened])
    · exact htrimmed.old h.old
    · show (r.reassembler.trim f).left.fecPackets.length ≤ 10
      rw [hevicted.fecPackets]
      exact h.fec

theorem Tracked.addFEC (h : Tracked r) (data : Bytes) (fseq : UInt8)
    (frameCount fecScheme : UInt32) :
    Tracked (r.step (.addFEC data fseq frameCount fecScheme)) := by
  obtain ⟨fecs, hfecs, hleft⟩ := r.reassembler.addFEC_left data fseq frameCount fecScheme
  have hfec : fecs.length ≤ 10 := by
    rcases hfecs with rfl | hfew
    · exact h.fec
    · exact hfew
  have htakes := r.reassembler.takeFront_takes
    (r.reassembler.fecPacket data fseq frameCount fecScheme)
  show Tracked (r.note [] (r.reassembler.addFEC data fseq frameCount fecScheme).left r.given)
  rw [hleft]
  generalize r.reassembler.takeFront _ = o at htakes ⊢
  cases htakes with
  | kept | thrown => exact h.note_nil _ rfl rfl h.old hfec
  | @taken front rest t hpackets hwaiting hcovers hblank hdecoded =>
    refine h.note _ (List.append_nil _).symm h.distinct (hpackets.trans rfl : _ = [front] ++ rest)
      ?_ ?_ hfec
    · intro hnot
      cases hnot
    · show t.oldPackets.length ≤ 3
      rw [(PacketReassembler.tryDecodeFEC_frame hdecoded).1]
      exact h.old

theorem Tracked.step (h : Tracked r) (e : ReassemblerCall) : Tracked (r.step e) := by
  cases e with
  | addFragment f => exact h.addFragment f
  | addFEC data fseq frameCount fecScheme => exact h.addFEC data fseq frameCount fecScheme

/-- In every run the window is tracked, also where a call throws. -/
theorem window_tracked (calls : List ReassemblerCall) : Tracked (Runs.exec step {} calls) :=
  Runs.exec_invariant (fun _ e h => h.step e) bounded_init.toTracked

/-- What `AddFEC` reads of the window is there, and no assertion fails. The
other places that read the front frame ask for more than three frames first. -/
def Unharmed (r : ReassemblerCalls) (e : ReassemblerCall) : Prop :=
  (r.step e).reassembler.asserted = true ∧
    match e with
    | .addFragment _ => True
    | .addFEC .. => r.reassembler.waitingForFEC = true → r.reassembler.packets ≠ []

instance (r : ReassemblerCalls) : ∀ e, Decidable (Unharmed r e)
  | .addFragment _ => inferInstanceAs (Decidable (_ ∧ True))
  | .addFEC .. => inferInstanceAs (Decidable (_ ∧ (_ → _)))

/-! ## The sizes -/

/-- **When the sizes are kept**: the loop of `AddFragment` does not come to a parity packet that
throws. -/
def Tame (r : ReassemblerCalls) : ReassemblerCall → Prop
  | .addFragment f => ¬ r.reassembler.Throws f
  | .addFEC .. => True

instance (r : ReassemblerCalls) : ∀ e, Decidable (Tame r e)
  | .addFragment f => inferInstanceAs (Decidable (¬ r.reassembler.Throws f))
  | .addFEC .. => .isTrue trivial

/-- A window that stays as it is. -/
theorem Bounded.sizes (h : Bounded r) (packets : List FramePacket)
    (hlength : packets.length = r.reassembler.packets.length) :
    packets.length ≤ 3 ∨ (packets.length = 4 ∧ r.reassembler.waitingForFEC = true) := by
  have hfew := h.few
  rw [hlength]
  by_cases hfour : r.reassembler.packets.length = 4
  · exact .inr ⟨hfour, h.full hfour⟩
  · exact .inl (by omega)

theorem Bounded.sizes_addFragment (h : Bounded r) {f : Fragment}
    (htame : ¬ r.reassembler.Throws f) :
    (r.reassembler.addFragment f).left.packets.length ≤ 3 ∨
      ((r.reassembler.addFragment f).left.packets.length = 4 ∧
        (r.reassembler.addFragment f).left.waitingForFEC = true) := by
  have hhandled := r.reassembler.addFragment_handled f
  generalize r.reassembler.addFragment f = o at hhandled ⊢
  cases hhandled with
  | ignored hknows hopens => exact h.sizes _ rfl
  | @known before after p hknows hopens hpackets hpts hindex =>
    refine h.sizes (before ++ p.addFragment f.pkt f.fragmentIndex :: after) ?_
    rw [hpackets, List.length_append, List.length_append]
    rfl
  | opened hknows hopens hpts hindex hcount =>
    have hnot : ¬ ∃ s, r.reassembler.trim f = .error s :=
      fun herror => htame ⟨hopens, (r.reassembler.trim_eq_error_iff f).mp herror⟩
    have hok : ∃ s, r.reassembler.trim f = .ok s := by
      rcases r.reassembler.openFrame_cases f with ⟨s, hok, -⟩ | ⟨s, herror, -⟩
      · exact ⟨s, hok⟩
      · exact absurd ⟨s, herror⟩ hnot
    obtain ⟨last, hleft⟩ := r.reassembler.openFrame_left f
    rw [hleft]
    refine (r.reassembler.trim_trimmed f).few hok ?_
    show (r.reassembler.packets ++ [_]).length ≤ 4 ∨ ((r.reassembler.packets ++ [_]).length ≤ 5 ∧ _)
    rw [List.length_append, List.length_singleton]
    rcases h.sizes _ rfl with hfew | ⟨hfour, hwaiting⟩
    · exact .inl (by omega)
    · exact .inr ⟨by omega, hwaiting⟩

theorem Bounded.sizes_addFEC (h : Bounded r) (fec : FecPacket) :
    (r.reassembler.takeFront fec).left.packets.length ≤ 3 ∨
      ((r.reassembler.takeFront fec).left.packets.length = 4 ∧
        (r.reassembler.takeFront fec).left.waitingForFEC = true) := by
  have htakes := r.reassembler.takeFront_takes fec
  generalize r.reassembler.takeFront fec = o at htakes ⊢
  cases htakes with
  | kept | thrown => exact h.sizes _ rfl
  | @taken front rest t hpackets =>
    left
    have hfew := h.few
    rw [hpackets, List.length_cons] at hfew
    exact Nat.le_of_succ_le_succ hfew

/-- **A call that does not throw** keeps the sizes. -/
theorem Bounded.step (h : Bounded r) (htame : Tame r e) : Bounded (r.step e) := by
  have hsizes : (r.step e).reassembler.packets.length ≤ 3 ∨
      ((r.step e).reassembler.packets.length = 4 ∧
        (r.step e).reassembler.waitingForFEC = true) := by
    cases e with
    | addFragment f => exact h.sizes_addFragment htame
    | addFEC data fseq frameCount fecScheme =>
      obtain ⟨fecs, -, hleft⟩ := r.reassembler.addFEC_left data fseq frameCount fecScheme
      show (r.reassembler.addFEC data fseq frameCount fecScheme).left.packets.length ≤ 3 ∨
        ((r.reassembler.addFEC data fseq frameCount fecScheme).left.packets.length = 4 ∧
          (r.reassembler.addFEC data fseq frameCount fecScheme).left.waitingForFEC = true)
      rw [hleft]
      exact h.sizes_addFEC _
  refine ⟨h.toTracked.step e, by omega, fun hfour => ?_⟩
  exact (hsizes.resolve_left (by omega)).2

/-- **A call that throws** leaves more than three frames, and no flag. -/
theorem not_bounded_step (hthrows : ¬ Tame r e) : ¬ Bounded (r.step e) := by
  intro hbounded
  cases e with
  | addFEC => exact hthrows trivial
  | addFragment f =>
    obtain ⟨hopens, hblocked⟩ := not_not.mp hthrows
    have herror := (r.reassembler.trim_eq_error_iff f).mpr hblocked
    obtain ⟨hmany, hwaiting⟩ := (r.reassembler.trim_trimmed f).stuck herror
    have hhandled := r.reassembler.addFragment_handled f
    have hfew : (r.reassembler.addFragment f).left.packets.length ≤ 4 := hbounded.few
    have hfull : (r.reassembler.addFragment f).left.packets.length = 4 →
      (r.reassembler.addFragment f).left.waitingForFEC = true := hbounded.full
    generalize r.reassembler.addFragment f = o at hhandled hfew hfull
    cases hhandled with
    | ignored hknows hnot | known hknows hnot => exact Bool.noConfusion (hopens.symm.trans hnot)
    | opened =>
      obtain ⟨last, hleft⟩ := r.reassembler.openFrame_left f
      rw [hleft] at hfew hfull
      exact Bool.noConfusion (hwaiting.symm.trans (hfull (Nat.le_antisymm hfew hmany)))

/-- **When the state stays bounded**: after every call, in a run of calls with any arguments,
exactly as long as `AddFragment` does not throw. -/
theorem reassembler_bounded_iff (calls : List ReassemblerCall) :
    Runs.Along step (fun r e => Bounded (r.step e)) {} calls ↔ Runs.Along step Tame {} calls :=
  Runs.along_congr (A := fun _ _ => True) (I := Bounded)
    (fun _ _ h _ => ⟨fun hbounded => by_contra fun hthrows => not_bounded_step hthrows hbounded,
      fun htame => h.step htame⟩)
    (fun _ _ h _ htame => h.step htame) bounded_init (Runs.along_of_forall fun _ _ _ => trivial)

/-- The fragment `i` of the two of a frame. -/
def halfOf (frame : UInt8) (i : UInt32) : ReassemblerCall :=
  .addFragment
    { pkt := [frame, i.toUInt8], fragmentIndex := i, fragmentCount := 2, pts := frame.toUInt32
      fseq := frame, keyframe := false, rotation := 0 }

/-- Frame 1 misses a fragment, and the parity packet gives it no length. -/
def blankCalls : List ReassemblerCall :=
  [halfOf 1 0, halfOf 2 0, halfOf 3 0, .addFEC [0, 0, 2, 0] 1 1 PacketReassembler.fecSchemeXor,
    halfOf 4 0, halfOf 5 0]

/-- `AddFragment` throws for frame 4, and for frame 5. -/
theorem reassembler_bounded_fails :
    ¬ ∀ calls, Runs.Along step Unharmed {} calls →
      Runs.Along step (fun r e => Bounded (r.step e)) {} calls := by
  intro h
  have hrun := h blankCalls (by decide)
  have hfew : (Runs.exec step {} blankCalls).reassembler.packets.length ≤ 4 :=
    hrun.2.2.2.2.2.1.few
  exact absurd hfew (by decide)

/-! ## The assertions -/

/-- The fragments that the packet of a frame was given. -/
def indices (given : List (UInt32 × ℕ)) (pts : UInt32) : List ℕ :=
  (given.filter (·.1 = pts)).map (·.2)

section Indices

variable {given : List (UInt32 × ℕ)} {pts pts' : UInt32} {i : ℕ}

theorem mem_indices : i ∈ indices given pts ↔ (pts, i) ∈ given := by
  simp [indices]

theorem indices_cons_self : indices ((pts, i) :: given) pts = i :: indices given pts := by
  simp [indices]

theorem indices_cons_of_ne (h : pts' ≠ pts) :
    indices ((pts, i) :: given) pts' = indices given pts' := by
  simp [indices, h.symm]

theorem indices_filter_self : indices (given.filter (·.1 ≠ pts)) pts = [] := by
  simp [indices, List.filter_filter]

theorem indices_filter_of_ne (h : pts' ≠ pts) :
    indices (given.filter (·.1 ≠ pts)) pts' = indices given pts' := by
  unfold indices
  rw [List.filter_filter]
  congr 1
  refine List.filter_congr fun x _ => ?_
  by_cases hx : x.1 = pts'
  · simp [hx, h]
  · simp [hx]

end Indices

/-- The flag was set while the front frame missed a fragment, and has not been
reset since: the front frame does not miss one now. -/
structure StaleFront (r : PacketReassembler) (fec : FecPacket) : Prop where
  waiting : r.waitingForFEC = true
  front : ∃ front ∈ r.packets.head?, fec.covers front = true ∧
    front.partCount - front.receivedPartCount ≠ 1
  scheme : fec.fecScheme = PacketReassembler.fecSchemeXor
  recovers : ParityFEC.Recovers (r.recoveryParts fec) fec.data

/-- **What the assertions rely on**: a packet gets a fragment once, and no
parity packet is decoded for a frame that does not miss exactly one. -/
def Careful (r : ReassemblerCalls) : ReassemblerCall → Prop
  | .addFragment f =>
    r.reassembler.knows f = true → (f.pts, f.fragmentIndex.toNat) ∉ r.given
  | .addFEC data fseq frameCount fecScheme =>
    ¬ StaleFront r.reassembler (r.reassembler.fecPacket data fseq frameCount fecScheme)

/-- The fragment is not empty. -/
def HasData : ReassemblerCall → Prop
  | .addFragment f => f.pkt ≠ []
  | .addFEC .. => True

/-- A packet of the window after the fragment: as before, or with the fragment. -/
theorem packet_addFragment (h : Tracked r) (f : Fragment) {q : FramePacket}
    (hq : q ∈ (r.reassembler.addFragment f).left.packets) :
    (q ∈ r.reassembler.packets ∧
        indices (give r.reassembler r.given f) q.timestamp = indices r.given q.timestamp) ∨
      ∃ p is, q = p.addFragment f.pkt f.fragmentIndex ∧ f.fragmentIndex < p.partCount ∧
        indices (give r.reassembler r.given f) q.timestamp = f.fragmentIndex.toNat :: is ∧
        ((r.reassembler.knows f = true ∧ p ∈ r.reassembler.packets ∧
            is = indices r.given p.timestamp ∧ p.timestamp = f.pts) ∨
          (p = r.reassembler.newPacket f ∧ is = [])) := by
  have hhandled := r.reassembler.addFragment_handled f
  generalize r.reassembler.addFragment f = o at hhandled hq
  cases hhandled with
  | ignored hknows hopens =>
    left
    rw [give, hknows, hopens]
    exact ⟨hq, rfl⟩
  | @known before after p hknows hopens hpackets hpts hindex =>
    rw [give, if_pos hknows]
    have hdistinct := h.distinct
    rw [hpackets, List.map_append, List.map_cons, List.nodup_append, List.nodup_cons] at hdistinct
    rcases List.mem_append.mp hq with hin | hin
    · have hne : q.timestamp ≠ f.pts := by
        rw [← hpts]
        exact hdistinct.2.2 _ (List.mem_map_of_mem hin) _ List.mem_cons_self
      exact .inl ⟨hpackets ▸ List.mem_append_left _ hin, indices_cons_of_ne hne⟩
    rcases List.mem_cons.mp hin with rfl | hin
    · refine .inr ⟨p, indices r.given p.timestamp, rfl, hindex, ?_, .inl ⟨hknows, ?_, rfl, hpts⟩⟩
      · show indices _ p.timestamp = _
        rw [hpts, indices_cons_self]
      · rw [hpackets]
        exact List.mem_append_right _ List.mem_cons_self
    · have hne : q.timestamp ≠ f.pts := by
        rw [← hpts]
        exact fun heq => hdistinct.2.1.1 (heq ▸ List.mem_map_of_mem hin)
      exact .inl ⟨hpackets ▸ List.mem_append_right _ (List.mem_cons_of_mem _ hin),
        indices_cons_of_ne hne⟩
  | opened hknows hopens hpts hindex hcount =>
    obtain ⟨leaving, r', last, hleft, hevicted⟩ := r.reassembler.openFrame_spec f
    rw [hleft] at hq
    have hin : q ∈ r.reassembler.packets ++
        [(r.reassembler.newPacket f).addFragment f.pkt f.fragmentIndex] := by
      rw [← PacketReassembler.opened, hevicted.packets]
      exact List.mem_append_right _ hq
    have hgive : give r.reassembler r.given f =
        (f.pts, f.fragmentIndex.toNat) :: r.given.filter (·.1 ≠ f.pts) := by
      rw [give, if_neg (by simp [hknows]), if_pos hopens]
    rw [hgive]
    rcases List.mem_append.mp hin with hin | hin
    · have hne := hpts q hin
      exact .inl ⟨hin, by rw [indices_cons_of_ne hne, indices_filter_of_ne hne]⟩
    · rw [List.mem_singleton.mp hin]
      refine .inr ⟨_, [], rfl, hindex, ?_, .inr ⟨rfl, rfl⟩⟩
      show indices _ f.pts = _
      rw [indices_cons_self, indices_filter_self]

/-- What the assertions rest on. -/
structure Sound (r : ReassemblerCalls) : Prop where
  tracked : Tracked r
  asserted : r.reassembler.asserted = true
  holds : ∀ p ∈ r.reassembler.packets, p.Holds (indices r.given p.timestamp)

theorem sound_init : Sound {} where
  tracked := bounded_init.toTracked
  asserted := rfl
  holds _ h := absurd h List.not_mem_nil

theorem holds_newPacket (s : PacketReassembler) (f : Fragment) : (s.newPacket f).Holds [] where
  once := List.nodup_nil
  inside _ h := absurd h List.not_mem_nil
  few := Nat.zero_le _
  received := rfl
  part _ h := absurd rfl h

theorem holds_opened (s : PacketReassembler) (f : Fragment) (h : f.fragmentIndex < f.fragmentCount) :
    ((s.newPacket f).addFragment f.pkt f.fragmentIndex).Holds [f.fragmentIndex.toNat] :=
  (holds_newPacket s f).addFragment h List.not_mem_nil f.pkt

theorem Sound.asserted_addFragment (h : Sound r) {f : Fragment}
    (hcareful : Careful r (.addFragment f)) :
    (r.reassembler.addFragment f).left.asserted = true := by
  have hhandled := r.reassembler.addFragment_handled f
  generalize r.reassembler.addFragment f = o at hhandled
  cases hhandled with
  | ignored hknows hopens => exact h.asserted
  | @known before after p hknows hopens hpackets hpts hindex =>
    have hp : p ∈ r.reassembler.packets := by
      rw [hpackets]
      exact List.mem_append_right _ List.mem_cons_self
    have hnew : f.fragmentIndex.toNat ∉ indices r.given p.timestamp := by
      rw [mem_indices, hpts]
      exact hcareful hknows
    show (r.reassembler.asserted && p.fragmentAssert f.fragmentIndex) = true
    rw [h.asserted, (h.holds p hp).fragmentAssert hnew, Bool.and_true]
  | opened hknows hopens hpts hindex hcount =>
    obtain ⟨leaving, r', last, hleft, hevicted⟩ := r.reassembler.openFrame_spec f
    rw [hleft]
    refine (hevicted.asserted fun p hp => ?_).trans h.asserted
    rcases List.mem_append.mp hp with hp | hp
    · exact (h.holds p hp).fits
    · rw [List.mem_singleton.mp hp]
      exact (holds_opened r.reassembler f hindex).fits

theorem Sound.addFragment (h : Sound r) {f : Fragment} (hcareful : Careful r (.addFragment f)) :
    Sound (r.step (.addFragment f)) where
  tracked := h.tracked.addFragment f
  asserted := h.asserted_addFragment hcareful
  holds := by
    intro q hq
    show q.Holds (indices (give r.reassembler r.given f) q.timestamp)
    rcases packet_addFragment h.tracked f hq with
      ⟨hin, hsame⟩ | ⟨p, is, rfl, hindex, hmore, ⟨hknows, hp, rfl, hpts⟩ | ⟨rfl, rfl⟩⟩
    · rw [hsame]
      exact h.holds q hin
    · rw [hmore]
      refine (h.holds p hp).addFragment hindex ?_ f.pkt
      rw [mem_indices, hpts]
      exact hcareful hknows
    · rw [hmore]
      exact holds_opened r.reassembler f hindex

/-! ### Parity packets -/

/-- **A parity packet** that takes the front frame away. -/
theorem Sound.asserted_takeFront (h : Sound r) (fec : FecPacket)
    (hcareful : ¬ StaleFront r.reassembler fec) :
    (r.reassembler.takeFront fec).left.asserted = true := by
  have htakes := r.reassembler.takeFront_takes fec
  generalize r.reassembler.takeFront fec = o at htakes
  cases htakes with
  | kept | thrown => exact h.asserted
  | @taken front rest t hpackets hwaiting hcovers hblank hdecoded =>
    show t.asserted = true
    rcases PacketReassembler.tryDecodeFEC_cases r.reassembler fec with
      ⟨hnot, -⟩ | ⟨-, hsame | ⟨pkt, rest', recovered, hpackets', hscheme, hdecode, hsome, hfilled⟩⟩
    · exact absurd hnot hblank
    · cases hsame.symm.trans hdecoded
      exact h.asserted
    · cases hpackets.symm.trans hpackets'
      cases hfilled.symm.trans hdecoded
      have hone : front.partCount - front.receivedPartCount = 1 := by
        by_contra hne
        exact hcareful ⟨hwaiting, ⟨front, by rw [hpackets]; rfl, hcovers, hne⟩, hscheme,
          ParityFEC.decode_ne_nil_iff.mp ⟨recovered, hdecode, hsome⟩⟩
      have hholds := h.holds front (by rw [hpackets]; exact List.mem_cons_self)
      show (r.reassembler.asserted && (front.fill recovered).reassembleAssert) = true
      rw [h.asserted, hholds.fits.reassembleAssert_fill hone, Bool.and_true]

/-- Where the flag is stale, `Reassemble` fails. -/
theorem not_asserted_takeFront {s : PacketReassembler} {fec : FecPacket} (h : StaleFront s fec) :
    (s.takeFront fec).left.asserted = false := by
  obtain ⟨front, hfront, hcovers, hne⟩ := h.front
  cases hpackets : s.packets with
  | nil =>
    rw [hpackets] at hfront
    cases hfront
  | cons p rest =>
    rw [hpackets] at hfront
    cases hfront
    obtain ⟨recovered, hdecode, hsome⟩ := ParityFEC.decode_ne_nil_iff.mpr h.recovers
    unfold PacketReassembler.takeFront PacketReassembler.tryDecodeFEC
    simp only [hpackets, h.waiting, hcovers, Bool.and_self, if_pos, if_pos h.scheme, hdecode,
      List.isEmpty_iff, if_neg hsome]
    show (s.asserted && _) = false
    rw [FramePacket.not_reassembleAssert_fill hne, Bool.and_false]

/-- The frames that stay are as before. -/
theorem packets_takeFront (s : PacketReassembler) (fec : FecPacket) :
    ∀ p ∈ (s.takeFront fec).left.packets, p ∈ s.packets := by
  have htakes := s.takeFront_takes fec
  generalize s.takeFront fec = o at htakes
  cases htakes with
  | kept | thrown => exact fun _ hp => hp
  | taken hpackets =>
    rw [hpackets]
    exact fun _ hp => List.mem_cons_of_mem _ hp

theorem packets_addFEC (s : PacketReassembler) (data : Bytes) (fseq : UInt8)
    (frameCount fecScheme : UInt32) :
    ∀ p ∈ (s.addFEC data fseq frameCount fecScheme).left.packets, p ∈ s.packets := by
  obtain ⟨fecs, -, hleft⟩ := s.addFEC_left data fseq frameCount fecScheme
  rw [hleft]
  exact packets_takeFront s _

theorem asserted_addFEC (s : PacketReassembler) (data : Bytes) (fseq : UInt8)
    (frameCount fecScheme : UInt32) :
    (s.addFEC data fseq frameCount fecScheme).left.asserted =
      (s.takeFront (s.fecPacket data fseq frameCount fecScheme)).left.asserted := by
  obtain ⟨fecs, -, hleft⟩ := s.addFEC_left data fseq frameCount fecScheme
  rw [hleft]

theorem Sound.addFEC (h : Sound r) {data : Bytes} {fseq : UInt8} {frameCount fecScheme : UInt32}
    (hcareful : Careful r (.addFEC data fseq frameCount fecScheme)) :
    Sound (r.step (.addFEC data fseq frameCount fecScheme)) where
  tracked := h.tracked.addFEC data fseq frameCount fecScheme
  asserted := (asserted_addFEC ..).trans (h.asserted_takeFront _ hcareful)
  holds := fun p hp => h.holds p (packets_addFEC _ _ _ _ _ p hp)

theorem Sound.step (h : Sound r) (hcareful : Careful r e) : Sound (r.step e) := by
  cases e with
  | addFragment f => exact h.addFragment hcareful
  | addFEC data fseq frameCount fecScheme => exact h.addFEC hcareful

theorem Sound.unharmed (h : Sound r) (hcareful : Careful r e) : Unharmed r e := by
  refine ⟨(h.step hcareful).asserted, ?_⟩
  cases e with
  | addFragment f => trivial
  | addFEC data fseq frameCount fecScheme => exact h.tracked.waiting

/-- The parts a packet was given are there. -/
def Filled (r : ReassemblerCalls) : Prop :=
  ∀ p ∈ r.reassembler.packets, ∀ i ∈ indices r.given p.timestamp, p.parts.getD i [] ≠ []

theorem Filled.step (hfilled : Filled r) (h : Tracked r) (hdata : HasData e) :
    Filled (r.step e) := by
  cases e with
  | addFragment f =>
    intro q hq i hi
    change i ∈ indices (give r.reassembler r.given f) q.timestamp at hi
    rcases packet_addFragment h f hq with
      ⟨hin, hsame⟩ | ⟨p, is, rfl, hindex, hmore, hbefore⟩
    · exact hfilled q hin i (hsame ▸ hi)
    · rw [hmore] at hi
      rw [FramePacket.getD_addFragment]
      split_ifs with heq
      · exact hdata
      · have his : i ∈ is := (List.mem_cons.mp hi).resolve_left heq
        rcases hbefore with ⟨-, hp, rfl, -⟩ | ⟨-, rfl⟩
        · exact hfilled p hp i his
        · exact absurd his List.not_mem_nil
  | addFEC data fseq frameCount fecScheme =>
    exact fun q hq => hfilled q (packets_addFEC _ _ _ _ _ q hq)

/-- A part that is there, and is given again, fails the assertion. -/
theorem Filled.careful (hfilled : Filled r) (hunharmed : Unharmed r e) : Careful r e := by
  cases e with
  | addFragment f =>
    intro hknows hgiven
    have hhandled := r.reassembler.addFragment_handled f
    have hasserted : (r.reassembler.addFragment f).left.asserted = true := hunharmed.1
    generalize r.reassembler.addFragment f = o at hhandled hasserted
    cases hhandled with
    | ignored hnot | opened hnot => exact Bool.noConfusion (hknows.symm.trans hnot)
    | @known before after p _ hopens hpackets hpts hindex =>
      have hp : p ∈ r.reassembler.packets := by
        rw [hpackets]
        exact List.mem_append_right _ List.mem_cons_self
      have hthere := hfilled p hp f.fragmentIndex.toNat (mem_indices.mpr (hpts ▸ hgiven))
      change (r.reassembler.asserted && p.fragmentAssert f.fragmentIndex) = true at hasserted
      rw [FramePacket.not_fragmentAssert hthere, Bool.and_false] at hasserted
      cases hasserted
  | addFEC data fseq frameCount fecScheme =>
    intro hstale
    have hasserted := (asserted_addFEC ..).trans (not_asserted_takeFront hstale)
    exact Bool.noConfusion (hasserted.symm.trans hunharmed.1)

/-- **The assertions hold** in every run of careful calls; and where no fragment
is empty, in no other. -/
theorem assertions_hold (calls : List ReassemblerCall) :
    (Runs.Along step Careful {} calls → Runs.Along step Unharmed {} calls) ∧
      ((∀ e ∈ calls, HasData e) → Runs.Along step Unharmed {} calls →
        Runs.Along step Careful {} calls) := by
  constructor
  · intro hrun
    exact hrun.strengthen (fun _ _ h hcareful => h.step hcareful)
      (fun _ _ h hcareful => h.unharmed hcareful) sound_init
  · intro hdata hrun
    have hboth : Runs.Along step (fun r e => Unharmed r e ∧ HasData e) {} calls :=
      Runs.along_and.mpr ⟨hrun, Runs.along_of_forall fun e he _ => hdata e he⟩
    refine hboth.strengthen (I := fun r => Sound r ∧ Filled r) ?_ ?_ ⟨sound_init, ?_⟩
    · intro r e ⟨hsound, hfilled⟩ ⟨hunharmed, hdata⟩
      exact ⟨hsound.step (hfilled.careful hunharmed), hfilled.step hsound.tracked hdata⟩
    · intro r e ⟨_, hfilled⟩ ⟨hunharmed, _⟩
      exact hfilled.careful hunharmed
    · exact fun _ h => absurd h List.not_mem_nil

/-- A fragment comes twice. -/
theorem assertions_hold_fails : ¬ ∀ calls, Runs.Along step Unharmed {} calls := by
  intro h
  have hrun := h [halfOf 0 0, halfOf 0 0]
  have hasserted : (Runs.exec step {} [halfOf 0 0, halfOf 0 0]).reassembler.asserted = true :=
    hrun.2.1.1
  exact absurd hasserted (by decide)

-- the fragment that frame 1 missed comes late, and frame 2 misses one
example : (Runs.exec step {} [halfOf 0 0, halfOf 0 1, halfOf 1 0, halfOf 2 0, halfOf 3 0, halfOf 3 1,
    halfOf 4 0, halfOf 1 1, .addFEC (ParityFEC.encode [[1, 0], [1, 1], [2, 0], [2, 1], [3, 0], [3, 1]])
      3 3 PacketReassembler.fecSchemeXor]).reassembler.asserted = false := by decide

end ReassemblerCalls

end Tgvoip
