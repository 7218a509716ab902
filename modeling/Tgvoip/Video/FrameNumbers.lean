import Tgvoip.Lib.BitMask
import Tgvoip.Video.ReassemblerCalls

/-!
# FrameNumbers — the number of a video frame from its last byte

Fragments and parity packets carry the number of their frame modulo 256.
`AddFragment` takes the least number from `lastFrameSeq` on that ends in the
byte, so a frame that comes behind a newer one gets a number that is 256 too
large, and `lastFrameSeq` goes there. `AddFEC` takes the higher bytes of
`lastFrameSeq`, so the number is wrong where a multiple of 256 lies between
the two (the model is in `Video/PacketReassembler`). A call that throws
leaves `lastFrameSeq` where it was, and the parity packet unrecorded.

In a run the frames that open a packet have to come in order, then, and
`lastFrameSeq` is the newest of them for which the call did not throw
(`Numbered`).
-/

namespace Tgvoip

open Runs

/-- The higher bytes of one number, and the byte of another. -/
theorem toNat_or_byte (x : UInt32) (y : UInt8) :
    ((x &&& (0xFFFFFF00 : UInt32)) ||| y.toUInt32).toNat = x.toNat / 256 * 256 + y.toNat := by
  have hmask : x &&& (0xFFFFFF00 : UInt32) = (x >>> 8) <<< 8 := by
    apply BitMask.ext
    intro i hi
    have hbits : ∀ i < 32, BitMask.bit 0xFFFFFF00 i = decide (8 ≤ i) := by decide
    rw [BitMask.bit_and, BitMask.bit_shiftLeft _ _ (by decide), hbits i hi]
    have height : (8 : UInt32).toNat = 8 := rfl
    by_cases hlow : 8 ≤ i
    · rw [BitMask.bit_shiftRight _ _ (by decide), height, Nat.sub_add_cancel hlow]
      simp [hlow, hi]
    · simp [hlow]
  have hlt := x.toNat_lt
  have hbyte := y.toNat_lt
  have hhigh : (x.toNat >>> 8) <<< 8 < 2 ^ 32 := by
    rw [Nat.shiftLeft_eq, Nat.shiftRight_eq_div_pow]
    omega
  rw [hmask, UInt32.toNat_or, UInt32.toNat_shiftLeft, UInt32.toNat_shiftRight,
    UInt8.toNat_toUInt32]
  show (x.toNat >>> 8) <<< 8 % 2 ^ 32 ||| y.toNat = _
  rw [Nat.mod_eq_of_lt hhigh, Nat.lor_comm, ByteReader.or_shiftLeft_of_lt _ hbyte,
    Nat.shiftRight_eq_div_pow]
  rfl

namespace PacketReassembler

variable {r : PacketReassembler} {n : ℕ}

theorem toNat_frameSeq (r : PacketReassembler) (fseq : UInt8) :
    (r.frameSeq fseq).toNat =
      (r.lastFrameSeq.toNat / 256 * 256 + fseq.toNat +
        if fseq.toNat < r.lastFrameSeq.toNat % 256 then 256 else 0) % 2 ^ 32 := by
  have hfull := toNat_or_byte r.lastFrameSeq fseq
  have hlt := r.lastFrameSeq.toNat_lt
  have hbyte := fseq.toNat_lt
  have hlow : r.lastFrameSeq.toUInt8 > fseq ↔ fseq.toNat < r.lastFrameSeq.toNat % 256 := by
    rw [gt_iff_lt, UInt8.lt_iff_toNat_lt, UInt32.toNat_toUInt8]
  unfold frameSeq
  dsimp only
  split_ifs with hbehind hlower hlower
  · rw [UInt32.toNat_add, hfull]
    rfl
  · exact absurd (hlow.mp hbehind) hlower
  · exact absurd (hlow.mpr hlower) hbehind
  · rw [hfull, Nat.add_zero, Nat.mod_eq_of_lt (by omega)]

/-- **The number that is taken** is that of the frame exactly if the frame is not behind the
last one. -/
theorem frameSeq_eq_iff (hnear : n < r.lastFrameSeq.toNat + 256)
    (hnewer : r.lastFrameSeq.toNat ≤ n + 256) :
    (r.frameSeq n.toUInt8).toNat = n ↔ r.lastFrameSeq.toNat ≤ n ∧ n < 2 ^ 32 := by
  have hlt := r.lastFrameSeq.toNat_lt
  have hbyte : n.toUInt8.toNat = n % 256 := rfl
  rw [toNat_frameSeq, hbyte]
  split_ifs <;> omega

theorem toNat_fecPacket_seq (r : PacketReassembler) (data : ByteReader.Bytes) (fseq : UInt8)
    (frameCount fecScheme : UInt32) : (r.fecPacket data fseq frameCount fecScheme).seq.toNat =
      r.lastFrameSeq.toNat / 256 * 256 + fseq.toNat :=
  toNat_or_byte r.lastFrameSeq fseq

/-- The fragment has an index and a count that a frame can have. -/
def WellFormed (f : Fragment) : Prop := f.fragmentIndex < f.fragmentCount ∧ f.fragmentCount ≤ 255

instance (f : Fragment) : Decidable (WellFormed f) := inferInstanceAs (Decidable (_ ∧ _))

/-- The fragment is the first of a frame that is not in the window. -/
def First (r : PacketReassembler) (f : Fragment) : Prop :=
  WellFormed f ∧ ∀ p ∈ r.packets, p.timestamp ≠ f.pts

instance (r : PacketReassembler) (f : Fragment) : Decidable (r.First f) :=
  inferInstanceAs (Decidable (_ ∧ _))

/-- The packet of the frame is in the window, under this number. -/
def Created (r : PacketReassembler) (pts : UInt32) (n : ℕ) : Prop :=
  ∃ p ∈ r.packets, p.timestamp = pts ∧ p.seq.toNat = n

instance (r : PacketReassembler) (pts : UInt32) (n : ℕ) : Decidable (r.Created pts n) :=
  inferInstanceAs (Decidable (∃ p ∈ r.packets, _))

/-- The packet that is put into the window last is not let go. -/
theorem created_trim {f : Fragment} (hpts : ∀ p ∈ r.packets, p.timestamp ≠ f.pts) :
    (r.trim f).left.Created f.pts n ↔ (r.frameSeq f.fseq).toNat = n := by
  obtain ⟨leaving, hevicted⟩ := r.trim_spec f
  have hwindow := hevicted.packets
  constructor
  · rintro ⟨p, hp, hp', hn⟩
    have hmem : p ∈ r.packets ++ [(r.newPacket f).addFragment f.pkt f.fragmentIndex] := by
      rw [← opened, hwindow]
      exact List.mem_append_right _ hp
    rcases List.mem_append.mp hmem with hold | hnew
    · exact absurd hp' (hpts p hold)
    · rw [List.mem_singleton.mp hnew] at hn
      exact hn
  · intro hn
    have hne := hevicted.rest (by simp [opened])
    refine ⟨_, List.getLast_mem hne, ?_⟩
    have hlast := congrArg List.getLast? hwindow
    rw [opened, List.getLast?_append_of_ne_nil _ hne, List.getLast?_concat,
      List.getLast?_eq_getLast_of_ne_nil hne, Option.some_inj] at hlast
    rw [← hlast]
    exact ⟨rfl, hn⟩

/-- The loop does not change the last number. -/
theorem lastFrameSeq_evict (r : PacketReassembler) (window : List FramePacket) :
    (evict r window).left.lastFrameSeq = r.lastFrameSeq := by
  refine evict_induction (motive := fun r _ o => o.left.lastFrameSeq = r.lastFrameSeq)
    (fun _ _ _ => rfl) (fun _ _ _ _ => rfl) (fun _ _ _ _ _ => rfl) ?_ r window
  intro r old rest call s _ hround ih
  rw [ih]
  cases hround <;> rfl

/-- **The last number** is that of the packet that is created, where the call does not throw. -/
theorem lastFrameSeq_addFragment (r : PacketReassembler) (f : Fragment) :
    (r.addFragment f).left.lastFrameSeq =
      if r.opens f = true ∧ ¬ r.Throws f then r.frameSeq f.fseq else r.lastFrameSeq := by
  have hhandled := addFragment_handled r f
  have hthrows := r.addFragment_eq_error_iff f
  generalize r.addFragment f = o at hhandled hthrows ⊢
  cases hhandled with
  | ignored hknows hopens | known hknows hopens =>
      rw [if_neg fun h => Bool.noConfusion (hopens.symm.trans h.1)]
      rfl
  | opened hknows hopens =>
      rcases r.openFrame_cases f with ⟨s, htrim, hopen⟩ | ⟨s, htrim, hopen⟩
      · rw [hopen] at hthrows ⊢
        have hnot : ¬ r.Throws f := by
          intro h
          obtain ⟨t, ht⟩ := hthrows.mpr h
          cases ht
        rw [if_pos ⟨hopens, hnot⟩]
        rfl
      · rw [hopen] at hthrows ⊢
        rw [if_neg fun h => h.2 (hthrows.mp ⟨s, rfl⟩)]
        have hlast : (r.trim f).left.lastFrameSeq = r.lastFrameSeq := lastFrameSeq_evict _ _
        rwa [htrim] at hlast

/-- **AddFragment** gives the first fragment of a frame, if anything, the number that it takes. -/
theorem created_addFragment {f : Fragment} (hfirst : r.First f) :
    (r.addFragment f).left.Created f.pts n ↔
      r.opens f = true ∧ (r.frameSeq f.fseq).toNat = n := by
  have hhandled := addFragment_handled r f
  generalize r.addFragment f = o at hhandled ⊢
  cases hhandled with
  | ignored hknows hopens =>
      rw [hopens]
      refine iff_of_false ?_ fun h => Bool.noConfusion h.1
      rintro ⟨p, hp, hpts, -⟩
      exact hfirst.2 p hp hpts
  | known hknows hopens hpackets hpts hindex =>
      refine absurd hpts (hfirst.2 _ ?_)
      rw [hpackets]
      exact List.mem_append_right _ List.mem_cons_self
  | opened hknows hopens hpts hindex hcount =>
      obtain ⟨last, hleft⟩ := r.openFrame_left f
      rw [hopens, hleft]
      exact (created_trim hpts).trans ⟨fun h => ⟨rfl, h⟩, fun h => h.2⟩

/-- A frame that is not behind the last one is not too late. -/
theorem First.opens {f : Fragment} (hfirst : r.First f) (hle : r.lastFrameSeq ≤ r.frameSeq f.fseq) :
    r.opens f = true := by
  have hnotLate : ¬ r.frameSeq f.fseq < r.lastFrameSeq - 3 ∨ ¬ r.lastFrameSeq > 3 := by
    by_cases hsmall : r.lastFrameSeq > 3
    · left
      have hsub : (r.lastFrameSeq - 3).toNat = r.lastFrameSeq.toNat - 3 :=
        UInt32.toNat_sub_of_le _ _ (UInt32.le_of_lt hsmall)
      rw [UInt32.le_iff_toNat_le] at hle
      rw [UInt32.lt_iff_toNat_lt]
      omega
    · exact .inr hsmall
  have hall : r.packets.all (·.timestamp != f.pts) = true := by
    rw [List.all_eq_true]
    exact fun p hp => by simpa using hfirst.2 p hp
  unfold PacketReassembler.opens
  rw [hall, decide_eq_true hfirst.1.1, decide_eq_true hfirst.1.2]
  rcases hnotLate with h | h <;> simp [h]

/-- Nothing of a frame that is in the window is opened. -/
theorem not_opens {f : Fragment} (hfirst : ¬ r.First f) : r.opens f = false := by
  unfold PacketReassembler.opens
  by_contra hopens
  rw [Bool.not_eq_false, Bool.and_eq_true, Bool.and_eq_true, Bool.and_eq_true] at hopens
  obtain ⟨⟨⟨hall, -⟩, hindex⟩, hcount⟩ := hopens
  rw [List.all_eq_true] at hall
  refine hfirst ⟨⟨of_decide_eq_true hindex, of_decide_eq_true hcount⟩, fun p hp => ?_⟩
  simpa using hall p hp

/-! ## AddFEC -/

/-- The parity packet takes the front frame away, and throws. -/
def ThrowsFEC (r : PacketReassembler) (fec : FecPacket) : Prop :=
  r.waitingForFEC = true ∧ (∃ front ∈ r.packets.head?, fec.covers front = true) ∧ r.BlankFEC fec

instance (r : PacketReassembler) (fec : FecPacket) : Decidable (r.ThrowsFEC fec) :=
  inferInstanceAs (Decidable (_ ∧ _))

theorem lastFrameSeq_addFEC (r : PacketReassembler) (data : ByteReader.Bytes) (fseq : UInt8)
    (frameCount fecScheme : UInt32) :
    (r.addFEC data fseq frameCount fecScheme).left.lastFrameSeq = r.lastFrameSeq := by
  obtain ⟨fecs, -, hleft⟩ := r.addFEC_left data fseq frameCount fecScheme
  have htakes := r.takeFront_takes (r.fecPacket data fseq frameCount fecScheme)
  rw [hleft]
  generalize r.takeFront _ = o at htakes ⊢
  cases htakes with
  | kept | thrown => rfl
  | taken hpackets hwaiting hcovers hblank hdecoded => exact (tryDecodeFEC_frame hdecoded).2.2

/-- The number under which the newest parity packet is recorded. -/
def recorded (r : PacketReassembler) : Option ℕ := r.fecPackets.getLast?.map (·.seq.toNat)

theorem recorded_keepLast (fecs : List FecPacket) (fec : FecPacket) :
    ((keepLast numFecPackets (fecs ++ [fec])).getLast?).map (·.seq.toNat) =
      some fec.seq.toNat := by
  unfold keepLast
  rw [List.getLast?_drop, if_neg, List.getLast?_concat, Option.map_some]
  -- not all of them are dropped
  rw [List.length_append, List.length_singleton, numFecPackets]
  omega

/-- **AddFEC** records the parity packet, where it does not throw. -/
theorem recorded_addFEC (r : PacketReassembler) (data : ByteReader.Bytes) (fseq : UInt8)
    (frameCount fecScheme : UInt32) :
    (∃ r', r.addFEC data fseq frameCount fecScheme = .ok r' ∧ r'.recorded = some n) ↔
      ¬ r.ThrowsFEC (r.fecPacket data fseq frameCount fecScheme) ∧
        r.lastFrameSeq.toNat / 256 * 256 + fseq.toNat = n := by
  have htakes := r.takeFront_takes (r.fecPacket data fseq frameCount fecScheme)
  have hseq := toNat_fecPacket_seq r data fseq frameCount fecScheme
  unfold addFEC
  dsimp only
  generalize r.fecPacket data fseq frameCount fecScheme = fec at htakes hseq ⊢
  generalize r.takeFront fec = o at htakes ⊢
  have hkept (s : PacketReassembler) (hnot : ¬ r.ThrowsFEC fec) :
      (∃ r', (.ok { s with fecPackets := keepLast numFecPackets (s.fecPackets ++ [fec]) } : Outcome)
          = .ok r' ∧ r'.recorded = some n) ↔
        ¬ r.ThrowsFEC fec ∧ r.lastFrameSeq.toNat / 256 * 256 + fseq.toNat = n := by
    have hrecorded : ({ s with
        fecPackets := keepLast numFecPackets (s.fecPackets ++ [fec]) } : PacketReassembler).recorded =
          some fec.seq.toNat := recorded_keepLast s.fecPackets fec
    constructor
    · rintro ⟨r', hr', hn⟩
      cases hr'
      rw [hrecorded, hseq, Option.some_inj] at hn
      exact ⟨hnot, hn⟩
    · rintro ⟨-, hn⟩
      exact ⟨_, rfl, by rw [hrecorded, hseq, hn]⟩
  cases htakes with
  | kept h =>
      refine hkept r ?_
      rintro ⟨hwaiting, ⟨front, hfront, hcovers⟩, -⟩
      exact Bool.noConfusion ((h hwaiting front hfront).symm.trans hcovers)
  | taken hpackets hwaiting hcovers hblank => exact hkept _ fun h => hblank h.2.2
  | thrown hpackets hwaiting hcovers hblank =>
      refine iff_of_false ?_ fun h => h.1 ⟨hwaiting, ⟨_, by rw [hpackets]; rfl, hcovers⟩, hblank⟩
      rintro ⟨r', hr', -⟩
      cases hr'

end PacketReassembler

/-! ## Arrivals -/

/-- What arrives of a frame. It carries the last byte of the number. -/
inductive FrameArrival where
  | fragment (n : ℕ) (f : Fragment)
  | fec (n : ℕ) (data : ByteReader.Bytes) (frameCount fecScheme : UInt32)

/-- The reassembler, the newest frame of which a fragment was seen, and the frame that had the
pts last. -/
structure FrameArrivals where
  reassembler : PacketReassembler := {}
  newest : ℕ := 0
  owner : UInt32 → ℕ := fun _ => 0

namespace FrameArrivals

open PacketReassembler

variable {a : FrameArrivals}

/-- The fragment as the frame sends it. -/
def sent (n : ℕ) (f : Fragment) : Fragment := { f with fseq := n.toUInt8 }

def step (a : FrameArrivals) : FrameArrival → FrameArrivals
  | .fragment n f =>
      { reassembler := (a.reassembler.addFragment (sent n f)).left
        newest := if WellFormed f then max a.newest n else a.newest
        owner := if a.reassembler.First f then Function.update a.owner f.pts n else a.owner }
  | .fec n data frameCount fecScheme =>
      { a with reassembler := (a.reassembler.addFEC data n.toUInt8 frameCount fecScheme).left }

/-- Frames are at most 3 out of order and at most 100 in a row are lost, and those in the window
differ in their pts. -/
def Admits (a : FrameArrivals) : FrameArrival → Prop
  | .fragment n f =>
      (a.newest ≤ n + 3 ∧ n ≤ a.newest + 101) ∧
        ((∃ p ∈ a.reassembler.packets, p.timestamp = f.pts) → a.owner f.pts = n)
  | .fec n _ _ _ => a.newest ≤ n + 3 ∧ n ≤ a.newest + 101

instance (a : FrameArrivals) : ∀ e, Decidable (a.Admits e)
  | .fragment _ _ => inferInstanceAs (Decidable (_ ∧ _))
  | .fec _ _ _ _ => inferInstanceAs (Decidable (_ ∧ _))

/-- `lastFrameSeq` is within 3 of the newest frame. -/
def Close (a : FrameArrivals) : Prop :=
  a.newest ≤ a.reassembler.lastFrameSeq.toNat + 3 ∧
    a.reassembler.lastFrameSeq.toNat ≤ a.newest + 3

/-- **What an arrival must do**: the frame gets its number. -/
def Numbers (a : FrameArrivals) (e : FrameArrival) : Prop :=
  (a.step e).Close ∧
    match e with
    | .fragment n f =>
        a.reassembler.First f → (a.step e).reassembler.Created f.pts n
    | .fec n data frameCount fecScheme =>
        ∃ r', a.reassembler.addFEC data n.toUInt8 frameCount fecScheme = .ok r' ∧
          r'.recorded = some n

/-- **When it does.** A frame comes behind all that have a packet, and a parity packet while
the higher bytes of `lastFrameSeq` are those of its frame. Where the call throws, the frame is
not more than 3 ahead. -/
def Ahead (a : FrameArrivals) : FrameArrival → Prop
  | .fragment n f =>
      a.reassembler.First f → (a.reassembler.lastFrameSeq.toNat ≤ n ∧ n < 2 ^ 32) ∧
        (a.reassembler.Throws (sent n f) → n ≤ a.reassembler.lastFrameSeq.toNat + 3)
  | .fec n data frameCount fecScheme =>
      n / 256 = a.reassembler.lastFrameSeq.toNat / 256 ∧
        ¬ a.reassembler.ThrowsFEC
          (a.reassembler.fecPacket data n.toUInt8 frameCount fecScheme)

instance (a : FrameArrivals) : ∀ e, Decidable (a.Ahead e)
  | .fragment _ _ => inferInstanceAs (Decidable (_ → _))
  | .fec _ _ _ _ => inferInstanceAs (Decidable (_ ∧ ¬ _))

/-- The last number is that of the newest frame, or not far behind. -/
structure Numbered (a : FrameArrivals) : Prop where
  close : a.Close
  behind : a.reassembler.lastFrameSeq.toNat ≤ a.newest
  owner : ∀ pts, a.owner pts ≤ a.newest

/-- The number of the first fragment of a frame. -/
theorem Numbered.frameSeq_eq_iff (h : a.Numbered) {n : ℕ} {f : Fragment}
    (hadmits : a.Admits (.fragment n f)) :
    (a.reassembler.frameSeq n.toUInt8).toNat = n ↔
      a.reassembler.lastFrameSeq.toNat ≤ n ∧ n < 2 ^ 32 := by
  obtain ⟨⟨hbehind, hbefore⟩, -⟩ := hadmits
  have hlast := h.close.1
  have hle := h.behind
  exact PacketReassembler.frameSeq_eq_iff (by omega) (by omega)

theorem opens_of_frameSeq {n : ℕ} {f : Fragment} (hfirst : a.reassembler.First f)
    (hseq : (a.reassembler.frameSeq n.toUInt8).toNat = n)
    (hle : a.reassembler.lastFrameSeq.toNat ≤ n) :
    a.reassembler.opens (sent n f) = true := by
  have hopens : a.reassembler.First (sent n f) := hfirst
  refine hopens.opens ?_
  rw [UInt32.le_iff_toNat_le]
  exact hle.trans_eq hseq.symm

theorem lastFrameSeq_step (a : FrameArrivals) (n : ℕ) (f : Fragment) :
    (a.step (.fragment n f)).reassembler.lastFrameSeq =
      if a.reassembler.opens (sent n f) = true ∧ ¬ a.reassembler.Throws (sent n f) then
        a.reassembler.frameSeq n.toUInt8
      else a.reassembler.lastFrameSeq :=
  lastFrameSeq_addFragment a.reassembler (sent n f)

/-- The first fragment of a frame. -/
theorem Numbered.step_first (h : a.Numbered) {n : ℕ} {f : Fragment}
    (hadmits : a.Admits (.fragment n f)) (hahead : a.Ahead (.fragment n f))
    (hfirst : a.reassembler.First f) : (a.step (.fragment n f)).Numbered := by
  obtain ⟨⟨hle, hlt⟩, hnear⟩ := hahead hfirst
  have hbehind := hadmits.1.1
  have hseq := (h.frameSeq_eq_iff hadmits).mpr ⟨hle, hlt⟩
  have hopens := opens_of_frameSeq hfirst hseq hle
  have hlast := a.lastFrameSeq_step n f
  have hclose := h.close.1
  have hbefore := h.behind
  have hmax : (a.step (.fragment n f)).newest = max a.newest n := by
    show (if WellFormed f then max a.newest n else a.newest) = _
    rw [if_pos hfirst.1]
  have howner : ∀ pts, (a.step (.fragment n f)).owner pts ≤ max a.newest n := by
    intro pts
    show (if a.reassembler.First f then Function.update a.owner f.pts n else a.owner) pts ≤ _
    rw [if_pos hfirst]
    by_cases hpts : pts = f.pts
    · rw [hpts, Function.update_self]
      exact Nat.le_max_right _ _
    · rw [Function.update_of_ne hpts]
      exact (h.owner pts).trans (Nat.le_max_left _ _)
  by_cases hthrows : a.reassembler.Throws (sent n f)
  · rw [if_neg fun h => h.2 hthrows] at hlast
    have hn := hnear hthrows
    constructor
    case close =>
      unfold Close
      rw [hlast, hmax]
      omega
    case behind =>
      rw [hlast, hmax]
      omega
    case owner =>
      rw [hmax]
      exact howner
  · rw [if_pos ⟨hopens, hthrows⟩] at hlast
    constructor
    case close =>
      unfold Close
      rw [hlast, hmax, hseq]
      omega
    case behind =>
      rw [hlast, hmax, hseq]
      omega
    case owner =>
      rw [hmax]
      exact howner

/-- Any other fragment. -/
theorem Numbered.step_other (h : a.Numbered) {n : ℕ} {f : Fragment}
    (hadmits : a.Admits (.fragment n f)) (hfirst : ¬ a.reassembler.First f) :
    (a.step (.fragment n f)).Numbered := by
  have hclosed : a.reassembler.opens (sent n f) = false := not_opens hfirst
  have hlast := a.lastFrameSeq_step n f
  rw [if_neg fun h => Bool.noConfusion (hclosed.symm.trans h.1)] at hlast
  have hmax : (a.step (.fragment n f)).newest = a.newest := by
    show (if WellFormed f then max a.newest n else a.newest) = a.newest
    split_ifs with hwell
    · -- the frame is in the window, and was seen
      have hseen : ∃ p ∈ a.reassembler.packets, p.timestamp = f.pts := by
        by_contra hnone
        exact hfirst ⟨hwell, fun p hp hpts => hnone ⟨p, hp, hpts⟩⟩
      have howner := h.owner f.pts
      rw [hadmits.2 hseen] at howner
      omega
    · rfl
  constructor
  case close =>
    unfold Close
    rw [hlast, hmax]
    exact h.close
  case behind =>
    rw [hlast, hmax]
    exact h.behind
  case owner =>
    intro pts
    rw [hmax]
    show (if a.reassembler.First f then Function.update a.owner f.pts n else a.owner) pts ≤ _
    rw [if_neg hfirst]
    exact h.owner pts

/-- **The step lemma.** -/
theorem Numbered.step (h : a.Numbered) {e : FrameArrival} (hadmits : a.Admits e)
    (hahead : a.Ahead e) : (a.step e).Numbered := by
  cases e with
  | fec n data frameCount fecScheme =>
      have hlast : (a.step (.fec n data frameCount fecScheme)).reassembler.lastFrameSeq =
          a.reassembler.lastFrameSeq := lastFrameSeq_addFEC _ _ _ _ _
      refine ⟨?_, ?_, h.owner⟩
      · unfold Close
        rw [hlast]
        exact h.close
      · rw [hlast]
        exact h.behind
  | fragment n f =>
      by_cases hfirst : a.reassembler.First f
      · exact h.step_first hadmits hahead hfirst
      · exact h.step_other hadmits hfirst

theorem Numbered.numbers_iff (h : a.Numbered) {e : FrameArrival} (hadmits : a.Admits e) :
    a.Numbers e ↔ a.Ahead e := by
  cases e with
  | fec n data frameCount fecScheme =>
      have hbyte : n.toUInt8.toNat = n % 256 := rfl
      have hiff : (∃ r', a.reassembler.addFEC data n.toUInt8 frameCount fecScheme = .ok r' ∧
          r'.recorded = some n) ↔ a.Ahead (.fec n data frameCount fecScheme) := by
        rw [recorded_addFEC, hbyte, and_comm]
        refine and_congr_left fun _ => ?_
        omega
      exact ⟨fun hnumbers => hiff.mp hnumbers.2,
        fun hahead => ⟨(h.step hadmits hahead).close, hiff.mpr hahead⟩⟩
  | fragment n f =>
      have hseq := h.frameSeq_eq_iff hadmits
      constructor
      · intro hnumbers hfirst
        have hcreated := hnumbers.2 hfirst
        refine ⟨hseq.mp ((created_addFragment (f := sent n f) hfirst).mp hcreated).2,
          fun hthrows => ?_⟩
        -- the frame was seen, and the last number stays
        have hlast := a.lastFrameSeq_step n f
        rw [if_neg fun h => h.2 hthrows] at hlast
        have hclose := hnumbers.1.1
        rw [hlast] at hclose
        refine le_trans ?_ hclose
        show n ≤ if WellFormed f then max a.newest n else a.newest
        rw [if_pos hfirst.1]
        exact Nat.le_max_right _ _
      · intro hahead
        refine ⟨(h.step hadmits hahead).close, fun hfirst => ?_⟩
        obtain ⟨hnext, -⟩ := hahead hfirst
        have hn := hseq.mpr hnext
        exact (created_addFragment (f := sent n f) hfirst).mpr
          ⟨opens_of_frameSeq hfirst hn hnext.1, hn⟩

/-- **When frames get their numbers.** In every run of arrivals that are at most 3 frames out of
order and at most 100 lost frames apart, exactly as long as no frame gets its packet behind a
newer one, no parity packet comes across a multiple of 256, and no call throws that has to set a
number. -/
theorem frames_numbered_iff (arrivals : List FrameArrival)
    (hadmits : Along step Admits {} arrivals) :
    Along step Numbers {} arrivals ↔ Along step Ahead {} arrivals :=
  along_congr (I := Numbered) (fun _ _ h hadmits => h.numbers_iff hadmits)
    (fun _ _ h hadmits hahead => h.step hadmits hahead)
    ⟨⟨by decide, by decide⟩, Nat.le_refl 0, fun _ => Nat.le_refl 0⟩ hadmits

/-- A frame of one fragment. -/
def soleFragment (n : ℕ) : FrameArrival :=
  .fragment n
    { pkt := [1], fragmentIndex := 0, fragmentCount := 1, pts := n.toUInt32, fseq := 0
      keyframe := true, rotation := 0 }

/-- Frames in order, across a multiple of 256, and their parity packets. -/
def orderly : List FrameArrival :=
  [soleFragment 0, soleFragment 99, .fec 99 [] 2 1, soleFragment 199, soleFragment 255,
    .fec 255 [] 2 1, soleFragment 256, soleFragment 258, .fec 257 [] 2 1]

theorem frames_numbered_in_order : Along step Numbers {} orderly :=
  (frames_numbered_iff orderly (by decide +kernel)).mpr (by decide +kernel)

/-- The first of the two fragments of a frame. -/
def halfFragment (n : ℕ) : FrameArrival :=
  .fragment n
    { pkt := [1], fragmentIndex := 0, fragmentCount := 2, pts := n.toUInt32, fseq := 0
      keyframe := true, rotation := 0 }

/-- The parity packet of frame 1 gives the fragment that is missing no length. -/
def blankFrame : List FrameArrival :=
  [halfFragment 1, soleFragment 2, soleFragment 3, .fec 1 [0, 1, 0] 1 1, soleFragment 10]

/-- Frame 0 behind frame 1 becomes 256, the parity packet of frame 257 behind frame 254
becomes that of frame 1, and the call for frame 10 throws. -/
theorem frames_numbered_fails :
    (Along step Admits {} [soleFragment 1, soleFragment 0] ∧
        ¬ Along step Numbers {} [soleFragment 1, soleFragment 0]) ∧
      (Along step Admits {}
          [soleFragment 100, soleFragment 200, soleFragment 254, .fec 257 [] 2 1] ∧
        ¬ Along step Numbers {}
          [soleFragment 100, soleFragment 200, soleFragment 254, .fec 257 [] 2 1]) ∧
      Along step Admits {} blankFrame ∧ ¬ Along step Numbers {} blankFrame := by
  refine ⟨⟨by decide +kernel, ?_⟩, ⟨by decide +kernel, ?_⟩, by decide +kernel, ?_⟩
  · rintro ⟨-, ⟨-, hcreated⟩, -⟩
    exact absurd (hcreated (by decide +kernel)) (by decide +kernel)
  · rintro ⟨-, -, -, ⟨-, hrecorded⟩, -⟩
    obtain ⟨r', hr', hn⟩ := hrecorded
    cases hr'
    exact absurd hn (by decide +kernel)
  · rintro ⟨-, -, -, -, ⟨⟨hclose, -⟩, -⟩, -⟩
    exact absurd hclose (by decide +kernel)

end FrameArrivals

end Tgvoip
