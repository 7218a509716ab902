import Tgvoip.Video.ParityFEC
import Tgvoip.Lib.Runs

/-!
# PacketReassembler — video frames out of their fragments

`controller/net/PacketReassembler.cpp`. A window of the frames that came in
last holds their fragments; a frame that leaves it is passed to the callback
if it is complete. Where one fragment is missing the reassembler waits for,
or looks for, a parity packet (`FecPacket`) that covers the frame.

The calls of the callback are recorded. Whether every assertion has held is
recorded too: a build with `NDEBUG` does not check them and goes on.

A call ends with `bad_alloc` where the decoder of the parity packets throws
it, and the object is left as it is at that point (`Outcome`). `Round` is
what a round of the loop in `AddFragment` does, `Blocked` is when the loop
comes to a parity packet that throws, and `Handled` what `AddFragment` does.
-/

namespace Tgvoip

open ByteReader (Bytes)

/-- `PacketReassembler::Packet`. -/
structure FramePacket where
  seq : UInt32
  timestamp : UInt32
  partCount : UInt32
  receivedPartCount : UInt32 := 0
  isKeyframe : Bool
  rotation : UInt16
  parts : List Bytes := []
  deriving DecidableEq, Repr

structure FecPacket where
  seq : UInt32
  prevFrameCount : UInt32
  fecScheme : UInt32
  data : Bytes
  deriving DecidableEq, Repr

/-- A call of the callback. -/
structure FrameCall where
  packet : Bytes
  seq : UInt32
  keyframe : Bool
  rotation : UInt16
  deriving DecidableEq, Repr

structure PacketReassembler where
  packets : List FramePacket := []
  oldPackets : List FramePacket := []
  fecPackets : List FecPacket := []
  maxTimestamp : UInt32 := 0
  lastFrameSeq : UInt32 := 0
  waitingForFEC : Bool := false
  calls : List FrameCall := []
  asserted : Bool := true
  deriving DecidableEq, Repr

/-- The arguments of `AddFragment`. -/
structure Fragment where
  pkt : Bytes
  fragmentIndex : UInt32
  fragmentCount : UInt32
  pts : UInt32
  fseq : UInt8
  keyframe : Bool
  rotation : UInt16
  deriving DecidableEq, Repr

namespace FramePacket

variable (p : FramePacket)

/-- `Packet::AddFragment`. -/
def addFragment (pkt : Bytes) (fragmentIndex : UInt32) : FramePacket :=
  let i := fragmentIndex.toNat
  { p with
    parts :=
      if p.parts.length = i then p.parts ++ [pkt]
      else if p.parts.length > i then p.parts.set i pkt
      else p.parts ++ List.replicate (i - p.parts.length) [] ++ [pkt]
    receivedPartCount := p.receivedPartCount + 1 }

/-- The assertion of `Packet::AddFragment`. -/
def fragmentAssert (fragmentIndex : UInt32) : Bool :=
  if p.parts.length > fragmentIndex.toNat then (p.parts.getD fragmentIndex.toNat []).isEmpty
  else true

def complete : Bool := p.receivedPartCount == p.partCount

/-- `Packet::Reassemble`. -/
def reassemble : Bytes := (List.range p.partCount.toNat).flatMap fun i => p.parts.getD i []

/-- The assertions of `Packet::Reassemble`. -/
def reassembleAssert : Bool :=
  p.partCount == p.receivedPartCount && p.parts.length == p.partCount.toNat

/-- A recovered part goes to the end, or in place of the first empty one. -/
def fill (recovered : Bytes) : FramePacket :=
  { p with
    parts :=
      if p.parts.length < p.partCount.toNat then p.parts ++ [recovered]
      else p.parts.set (p.parts.findIdx (·.isEmpty)) recovered
    receivedPartCount := p.receivedPartCount + 1 }

/-- The call for a frame. -/
def call : FrameCall :=
  { packet := p.reassemble, seq := p.seq, keyframe := p.isKeyframe, rotation := p.rotation }

end FramePacket

namespace FecPacket

variable (fec : FecPacket)

def covers (p : FramePacket) : Bool :=
  p.seq ≤ fec.seq && p.seq > fec.seq - fec.prevFrameCount

/-- The parts of the frames that are covered, an empty one for each that is
not there. -/
def partsOf (packets : List FramePacket) : List Bytes :=
  (packets.filter fec.covers).flatMap fun p =>
    (List.range p.partCount.toNat).map fun i => p.parts.getD i []

end FecPacket

namespace PacketReassembler

/-- How a call ends: `.error` with `bad_alloc`. Either way with what it leaves behind. -/
abbrev Outcome := Except PacketReassembler PacketReassembler

def Outcome.left (o : Outcome) : PacketReassembler :=
  match o with
  | .ok r => r
  | .error r => r

variable (r : PacketReassembler)

def numOldPackets : ℕ := 3
def numFecPackets : ℕ := 10
def fecSchemeXor : UInt32 := 1

/-- The last `n` of a list that is trimmed from the front. -/
def keepLast {α : Type} (n : ℕ) (as : List α) : List α := as.drop (as.length - n)

/-- `callback(packet.Reassemble(), ...)`. -/
def callback (p : FramePacket) : PacketReassembler :=
  { r with calls := r.calls ++ [p.call], asserted := r.asserted && p.reassembleAssert }

def retire (p : FramePacket) : PacketReassembler :=
  { r with oldPackets := keepLast numOldPackets (r.oldPackets ++ [p]) }

def recoveryParts (fec : FecPacket) : List Bytes :=
  fec.partsOf r.oldPackets ++ fec.partsOf r.packets

/-- `TryDecodeFEC`. -/
def tryDecodeFEC (fec : FecPacket) : Outcome :=
  if fec.fecScheme = fecSchemeXor then
    match ParityFEC.decode (r.recoveryParts fec) fec.data with
    | none => .error r
    | some recovered =>
      if recovered.isEmpty then .ok r
      else
        match r.packets with
        | [] => .ok r
        | pkt :: rest =>
          .ok ({ r with packets := pkt.fill recovered :: rest }.callback (pkt.fill recovered))
  else .ok r

/-- The loop of `AddFragment`: frames leave the window while more than three are in it. -/
def evict (r : PacketReassembler) : List FramePacket → Outcome
  | [] => .ok { r with packets := [] }
  | old :: rest =>
    if rest.length < 3 then .ok { r with packets := old :: rest }
    else if old.complete then
      evict ((r.callback old).retire old) rest
    else if old.partCount - old.receivedPartCount = 1 && !r.waitingForFEC then
      match r.fecPackets.find? (·.covers old) with
      | some fec => do
        let r ← { r with packets := old :: rest }.tryDecodeFEC fec
        evict r rest
      | none => .ok { r with packets := old :: rest, waitingForFEC := true }
    else evict ({ r with waitingForFEC := false }.retire old) rest

/-- The first packet of a list for which `p` holds is changed. -/
def updateFirst {α : Type} (p : α → Bool) (f : α → α) : List α → List α
  | [] => []
  | a :: as => if p a then f a :: as else a :: updateFirst p f as

/-- The number of a frame, from its last byte. -/
def frameSeq (fseq : UInt8) : UInt32 :=
  let full := (r.lastFrameSeq &&& 0xFFFFFF00) ||| fseq.toUInt32
  if r.lastFrameSeq.toUInt8 > fseq then full + 256 else full

def newPacket (f : Fragment) : FramePacket :=
  { seq := r.frameSeq f.fseq, timestamp := f.pts, partCount := f.fragmentCount,
    isKeyframe := f.keyframe, rotation := f.rotation }

/-- The window with the frame that the fragment opens. -/
def opened (f : Fragment) : List FramePacket :=
  r.packets ++ [(r.newPacket f).addFragment f.pkt f.fragmentIndex]

/-- The loop for the new frame. -/
def trim (f : Fragment) : Outcome :=
  evict { r with maxTimestamp := max r.maxTimestamp f.pts } (r.opened f)

/-- The end of `AddFragment`, for the first fragment of a frame. -/
def openFrame (f : Fragment) : Outcome := do
  let r' ← r.trim f
  pure { r' with lastFrameSeq := r.frameSeq f.fseq }

/-- `AddFragment`. -/
def addFragment (f : Fragment) : Outcome :=
  match r.packets.find? (·.timestamp == f.pts) with
  | some p =>
    if f.fragmentCount ≠ p.partCount then .ok r
    else if f.fragmentIndex ≥ p.partCount then .ok r
    else
      .ok { r with
        packets := updateFirst (·.timestamp == f.pts) (·.addFragment f.pkt f.fragmentIndex) r.packets
        asserted := r.asserted && p.fragmentAssert f.fragmentIndex }
  | none =>
    if r.lastFrameSeq > 3 && r.frameSeq f.fseq < r.lastFrameSeq - 3 then .ok r
    else if f.fragmentIndex ≥ f.fragmentCount then .ok r
    else if f.fragmentCount > 255 then .ok r
    else r.openFrame f

def fecPacket (data : Bytes) (fseq : UInt8) (frameCount fecScheme : UInt32) : FecPacket :=
  { seq := (r.lastFrameSeq &&& 0xFFFFFF00) ||| fseq.toUInt32, prevFrameCount := frameCount,
    fecScheme := fecScheme, data := data }

/-- The branch of `AddFEC` in which the reassembler waits: the front frame
is taken out of the window. -/
def takeFront (fec : FecPacket) : Outcome :=
  match r.packets with
  | front :: rest =>
    if r.waitingForFEC && fec.covers front then do
      let r ← r.tryDecodeFEC fec
      pure { r with packets := rest, waitingForFEC := false }
    else .ok r
  | [] => .ok r

/-- `AddFEC`. -/
def addFEC (data : Bytes) (fseq : UInt8) (frameCount fecScheme : UInt32) : Outcome := do
  let fec := r.fecPacket data fseq frameCount fecScheme
  let taken ← r.takeFront fec
  pure { taken with fecPackets := keepLast numFecPackets (taken.fecPackets ++ [fec]) }

end PacketReassembler

/-! ## Parts of a frame -/

namespace FramePacket

/-- How many parts are there. -/
def filled (parts : List Bytes) : ℕ := parts.countP fun b => !b.isEmpty

/-- The counters agree with the parts. -/
structure Counted (p : FramePacket) : Prop where
  few : p.parts.length ≤ p.partCount.toNat
  received : p.receivedPartCount.toNat = filled p.parts

/-- Not more was counted than there are parts, and not more are there than are to be. -/
structure Fits (p : FramePacket) : Prop where
  counted : p.receivedPartCount.toNat ≤ p.parts.length
  few : p.parts.length ≤ p.partCount.toNat

variable {p : FramePacket} {pkt : Bytes} {i : UInt32}

theorem Fits.reassembleAssert (h : p.Fits) (hcomplete : p.complete = true) :
    p.reassembleAssert = true := by
  have heq : p.receivedPartCount = p.partCount := beq_iff_eq.mp hcomplete
  have hcounted := h.counted
  have hfew := h.few
  rw [heq] at hcounted
  simp only [FramePacket.reassembleAssert, heq, Bool.and_eq_true, beq_iff_eq]
  exact ⟨trivial, by omega⟩

theorem toNat_of_missing_one (h : p.partCount - p.receivedPartCount = 1)
    (hle : p.receivedPartCount.toNat ≤ p.partCount.toNat) :
    p.partCount.toNat = p.receivedPartCount.toNat + 1 := by
  have hsub := UInt32.toNat_sub_of_le _ _ (UInt32.le_iff_toNat_le.mpr hle)
  rw [h] at hsub
  have hone : (1 : UInt32).toNat = 1 := rfl
  omega

theorem length_fill (p : FramePacket) (recovered : Bytes) :
    (p.fill recovered).parts.length =
      if p.parts.length < p.partCount.toNat then p.parts.length + 1 else p.parts.length := by
  simp only [fill]
  split
  · exact List.length_append
  · exact List.length_set

/-- One part is missing, and it is filled in: the assertions hold. -/
theorem Fits.reassembleAssert_fill (h : p.Fits) (hone : p.partCount - p.receivedPartCount = 1)
    (recovered : Bytes) : (p.fill recovered).reassembleAssert = true := by
  have heq : p.partCount = p.receivedPartCount + 1 := by grind
  have hcount := toNat_of_missing_one hone (h.counted.trans h.few)
  have hlength : (p.fill recovered).parts.length = p.partCount.toNat := by
    have hcounted := h.counted
    have hfew := h.few
    rw [length_fill]
    split <;> omega
  simp only [FramePacket.reassembleAssert, Bool.and_eq_true, beq_iff_eq]
  exact ⟨heq, hlength⟩

theorem getD_addFragment (p : FramePacket) (pkt : Bytes) (i : UInt32) (j : ℕ) :
    (p.addFragment pkt i).parts.getD j [] = if j = i.toNat then pkt else p.parts.getD j [] := by
  simp only [addFragment, List.getD_eq_getElem?_getD]
  split
  · grind
  split
  · grind
  · grind

theorem length_addFragment (p : FramePacket) (pkt : Bytes) (i : UInt32) :
    (p.addFragment pkt i).parts.length = max p.parts.length (i.toNat + 1) := by
  simp only [addFragment]
  split_ifs with hend hin
  · simp
    omega
  · simp
    omega
  · simp
    omega

theorem filled_addFragment (hpkt : pkt ≠ []) (hnew : p.parts.getD i.toNat [] = []) :
    filled (p.addFragment pkt i).parts = filled p.parts + 1 := by
  have hone : (!pkt.isEmpty) = true := by simpa using hpkt
  simp only [addFragment, filled]
  split_ifs with hend hin
  · simp [hone]
  · have hempty : p.parts[i.toNat] = [] := by
      rw [List.getD_eq_getElem?_getD, List.getElem?_eq_getElem hin] at hnew
      exact hnew
    rw [List.countP_set hin, hempty]
    simp [hone]
  · simp [hone, List.countP_replicate]

theorem Counted.addFragment (h : p.Counted) (hpkt : pkt ≠ []) (hi : i < p.partCount)
    (hnew : p.parts.getD i.toNat [] = []) : (p.addFragment pkt i).Counted where
  few := by
    rw [length_addFragment]
    have := h.few
    have : i.toNat < p.partCount.toNat := hi
    show max _ _ ≤ p.partCount.toNat
    omega
  received := by
    have hfilled := filled_addFragment hpkt hnew
    have hless : filled p.parts < p.partCount.toNat := by
      have hall : filled (p.addFragment pkt i).parts ≤ (p.addFragment pkt i).parts.length :=
        List.countP_le_length
      have : i.toNat < p.partCount.toNat := hi
      have := h.few
      rw [length_addFragment] at hall
      omega
    have := p.partCount.toNat_lt
    show (p.receivedPartCount + 1).toNat = _
    rw [hfilled, UInt32.toNat_add, h.received]
    exact Nat.mod_eq_of_lt (by show filled p.parts + 1 < _; omega)

/-- As many parts as there are to be: each of them is there. -/
theorem Counted.complete (h : p.Counted) (hcomplete : p.complete = true) :
    p.parts.length = p.partCount.toNat ∧ ∀ b ∈ p.parts, b ≠ [] := by
  have heq : p.receivedPartCount = p.partCount := beq_iff_eq.mp hcomplete
  have hall : filled p.parts ≤ p.parts.length := List.countP_le_length
  have hfew := h.few
  have hreceived := h.received
  rw [heq] at hreceived
  have hlength : filled p.parts = p.parts.length := by omega
  refine ⟨by omega, fun b hb hnil => ?_⟩
  have := List.countP_eq_length.mp hlength b hb
  rw [hnil] at this
  cases this

theorem Counted.fits (h : p.Counted) : p.Fits where
  counted := by
    rw [h.received]
    exact List.countP_le_length
  few := h.few

end FramePacket

namespace PacketReassembler

variable {r : PacketReassembler}

/-- The parity packet gives the part that is missing no length. -/
structure BlankFEC (r : PacketReassembler) (fec : FecPacket) : Prop where
  scheme : fec.fecScheme = fecSchemeXor
  blank : ParityFEC.Blank (r.recoveryParts fec) fec.data

instance (r : PacketReassembler) (fec : FecPacket) : Decidable (r.BlankFEC fec) :=
  decidable_of_iff (_ ∧ _) ⟨fun h => ⟨h.1, h.2⟩, fun h => ⟨h.scheme, h.blank⟩⟩

/-- **What `TryDecodeFEC` does**: it throws, or recovers a part of the front frame, or nothing. -/
theorem tryDecodeFEC_cases (r : PacketReassembler) (fec : FecPacket) :
    (r.BlankFEC fec ∧ r.tryDecodeFEC fec = .error r) ∨
      (¬ r.BlankFEC fec ∧ (r.tryDecodeFEC fec = .ok r ∨ ∃ pkt rest recovered,
        r.packets = pkt :: rest ∧ fec.fecScheme = fecSchemeXor ∧
        ParityFEC.decode (r.recoveryParts fec) fec.data = some recovered ∧ recovered ≠ [] ∧
        r.tryDecodeFEC fec =
          .ok ({ r with packets := pkt.fill recovered :: rest }.callback (pkt.fill recovered)))) := by
  unfold tryDecodeFEC
  by_cases hscheme : fec.fecScheme = fecSchemeXor
  · rw [if_pos hscheme]
    cases hdecode : ParityFEC.decode (r.recoveryParts fec) fec.data with
    | none => exact .inl ⟨⟨hscheme, ParityFEC.decode_eq_none_iff.mp hdecode⟩, rfl⟩
    | some recovered =>
      refine .inr ⟨fun hblank => ?_, ?_⟩
      · rw [ParityFEC.decode_eq_none_iff.mpr hblank.blank] at hdecode
        cases hdecode
      · dsimp only
        split_ifs with hempty
        · exact .inl rfl
        · cases hpackets : r.packets with
          | nil => exact .inl rfl
          | cons pkt rest =>
            exact .inr ⟨pkt, rest, recovered, rfl, hscheme, rfl, fun h => hempty (h ▸ rfl), rfl⟩
  · rw [if_neg hscheme]
    exact .inr ⟨fun hblank => hscheme hblank.scheme, .inl rfl⟩

/-- What it leaves of the rest. -/
theorem tryDecodeFEC_frame {fec : FecPacket} {s : PacketReassembler}
    (h : r.tryDecodeFEC fec = .ok s) :
    s.oldPackets = r.oldPackets ∧ s.fecPackets = r.fecPackets ∧ s.lastFrameSeq = r.lastFrameSeq := by
  rcases tryDecodeFEC_cases r fec with
    ⟨-, herror⟩ | ⟨-, hsame | ⟨pkt, rest, recovered, -, -, -, -, hdecoded⟩⟩
  · cases herror.symm.trans h
  · cases hsame.symm.trans h
    exact ⟨rfl, rfl, rfl⟩
  · cases hdecoded.symm.trans h
    exact ⟨rfl, rfl, rfl⟩

/-! ## The loop -/

/-- One fragment of the front frame is missing, and a parity packet is looked for. -/
structure Searches (r : PacketReassembler) (old : FramePacket) : Prop where
  incomplete : old.complete = false
  one : old.partCount - old.receivedPartCount = 1
  waiting : r.waitingForFEC = false

/-- **One round of the loop**: the front frame leaves, with a call or without one. -/
inductive Round (r : PacketReassembler) (old : FramePacket) (rest : List FramePacket) :
    Option FrameCall → PacketReassembler → Prop
  | whole (h : old.complete = true) : Round r old rest (some old.call) ((r.callback old).retire old)
  | recovered {fec : FecPacket} {recovered : Bytes} (h : r.Searches old)
      (hfound : r.fecPackets.find? (·.covers old) = some fec)
      (hdecoded : { r with packets := old :: rest }.tryDecodeFEC fec =
        .ok ({ r with packets := old.fill recovered :: rest }.callback (old.fill recovered))) :
      Round r old rest (some (old.fill recovered).call)
        ({ r with packets := old.fill recovered :: rest }.callback (old.fill recovered))
  | erased {fec : FecPacket} (h : r.Searches old)
      (hfound : r.fecPackets.find? (·.covers old) = some fec)
      (hnothing : { r with packets := old :: rest }.tryDecodeFEC fec =
        .ok { r with packets := old :: rest }) :
      Round r old rest none { r with packets := old :: rest }
  | givenUp (hincomplete : old.complete = false)
      (h : old.partCount - old.receivedPartCount ≠ 1 ∨ r.waitingForFEC = true) :
      Round r old rest none ({ r with waitingForFEC := false }.retire old)

/-- The parity packet for the front frame throws. -/
structure Stuck (r : PacketReassembler) (old : FramePacket) (rest : List FramePacket) : Prop
    extends Searches r old where
  blank : ∃ fec, r.fecPackets.find? (·.covers old) = some fec ∧
    { r with packets := old :: rest }.BlankFEC fec

theorem not_searches {old : FramePacket}
    (h : old.partCount - old.receivedPartCount ≠ 1 ∨ r.waitingForFEC = true) :
    ¬ (old.partCount - old.receivedPartCount = 1 && !r.waitingForFEC) = true := by
  rw [Bool.and_eq_true, decide_eq_true_eq, Bool.not_eq_true']
  rintro ⟨hone, hwaiting⟩
  rcases h with h | h
  · exact h hone
  · rw [hwaiting] at h
    cases h

theorem Searches.test {old : FramePacket} (h : r.Searches old) :
    (old.partCount - old.receivedPartCount = 1 && !r.waitingForFEC) = true := by
  rw [h.one, h.waiting]
  rfl

theorem Searches.not_complete {old : FramePacket} (h : r.Searches old) : ¬ old.complete = true := by
  rw [h.incomplete]
  exact Bool.false_ne_true

variable {old : FramePacket} {rest : List FramePacket} {call : Option FrameCall}
  {s : PacketReassembler}

theorem Round.evict_eq (h : r.Round old rest call s) (hmany : ¬ rest.length < 3) :
    evict r (old :: rest) = evict s rest := by
  rw [evict, if_neg hmany]
  cases h with
  | whole h => rw [if_pos h]
  | recovered h hfound hdecoded =>
    rw [if_neg h.not_complete, if_pos h.test, hfound]
    dsimp only
    rw [hdecoded]
    rfl
  | erased h hfound hnothing =>
    rw [if_neg h.not_complete, if_pos h.test, hfound]
    dsimp only
    rw [hnothing]
    rfl
  | givenUp hincomplete h =>
    rw [if_neg (by rw [hincomplete]; exact Bool.false_ne_true), if_neg (not_searches h)]

theorem Stuck.evict_eq (h : r.Stuck old rest) (hmany : ¬ rest.length < 3) :
    evict r (old :: rest) = .error { r with packets := old :: rest } := by
  obtain ⟨fec, hfound, hblank⟩ := h.blank
  rw [evict, if_neg hmany, if_neg h.not_complete, if_pos h.test, hfound]
  dsimp only
  rcases tryDecodeFEC_cases { r with packets := old :: rest } fec with ⟨-, herror⟩ | ⟨hnot, -⟩
  · rw [herror]
    rfl
  · exact absurd hblank hnot

/-- **What the loop does with more than three frames**: a round and the rest of the loop, or it
waits, or throws. -/
theorem evict_cases (r : PacketReassembler) (old : FramePacket) (rest : List FramePacket)
    (hmany : ¬ rest.length < 3) :
    (∃ call s, r.Round old rest call s) ∨
      (r.waitingForFEC = false ∧
        evict r (old :: rest) = .ok { r with packets := old :: rest, waitingForFEC := true }) ∨
      r.Stuck old rest := by
  by_cases hcomplete : old.complete = true
  · exact .inl ⟨_, _, .whole hcomplete⟩
  have hincomplete : old.complete = false := Bool.eq_false_iff.mpr hcomplete
  by_cases hone : (old.partCount - old.receivedPartCount = 1 && !r.waitingForFEC) = true
  · have hsearches : r.Searches old := by
      rw [Bool.and_eq_true, decide_eq_true_eq, Bool.not_eq_true'] at hone
      exact ⟨hincomplete, hone.1, hone.2⟩
    cases hfound : r.fecPackets.find? (·.covers old) with
    | none =>
      refine .inr (.inl ⟨hsearches.waiting, ?_⟩)
      rw [evict, if_neg hmany, if_neg hcomplete, if_pos hone, hfound]
    | some fec =>
      rcases tryDecodeFEC_cases { r with packets := old :: rest } fec with
        ⟨hblank, -⟩ | ⟨-, hnothing | ⟨pkt, rest', recovered, hpackets, -, -, -, hdecoded⟩⟩
      · exact .inr (.inr ⟨hsearches, fec, hfound, hblank⟩)
      · exact .inl ⟨_, _, .erased hsearches hfound hnothing⟩
      · cases hpackets
        exact .inl ⟨_, _, .recovered hsearches hfound hdecoded⟩
  · rw [Bool.and_eq_true, decide_eq_true_eq, Bool.not_eq_true', not_and, Bool.not_eq_false] at hone
    refine .inl ⟨_, _, .givenUp hincomplete ?_⟩
    by_cases h : old.partCount - old.receivedPartCount = 1
    · exact .inr (hone h)
    · exact .inl h

/-- **The loop comes to a parity packet that throws**: the frames before it leave. -/
inductive Blocked : PacketReassembler → List FramePacket → Prop
  | here {r : PacketReassembler} {old : FramePacket} {rest : List FramePacket}
      (hmany : ¬ rest.length < 3) (h : r.Stuck old rest) : Blocked r (old :: rest)
  | later {r s : PacketReassembler} {old : FramePacket} {rest : List FramePacket}
      {call : Option FrameCall} (hmany : ¬ rest.length < 3) (hround : r.Round old rest call s)
      (h : Blocked s rest) : Blocked r (old :: rest)

/-- **The induction over the loop**: it stops, waits, throws, or goes on after a round. -/
theorem evict_induction {motive : PacketReassembler → List FramePacket → Outcome → Prop}
    (stops : ∀ r window, window.length ≤ 3 → motive r window (.ok { r with packets := window }))
    (waits : ∀ r window, 4 ≤ window.length → r.waitingForFEC = false →
      motive r window (.ok { r with packets := window, waitingForFEC := true }))
    (throws : ∀ r old rest, ¬ rest.length < 3 → Stuck r old rest →
      motive r (old :: rest) (.error { r with packets := old :: rest }))
    (round : ∀ r old rest call s, ¬ rest.length < 3 → Round r old rest call s →
      motive s rest (evict s rest) → motive r (old :: rest) (evict s rest))
    (r : PacketReassembler) (window : List FramePacket) : motive r window (evict r window) := by
  induction window generalizing r with
  | nil => exact stops r [] (Nat.zero_le 3)
  | cons old rest ih =>
    by_cases hfew : rest.length < 3
    · rw [evict, if_pos hfew]
      exact stops r (old :: rest) hfew
    have hmany : 4 ≤ (old :: rest).length := by
      rw [List.length_cons]
      omega
    rcases evict_cases r old rest hfew with ⟨call, s, hround⟩ | ⟨hwaiting, hwaits⟩ | hstuck
    · rw [hround.evict_eq hfew]
      exact round r old rest call s hfew hround (ih s)
    · rw [hwaits]
      exact waits r (old :: rest) hmany hwaiting
    · rw [hstuck.evict_eq hfew]
      exact throws r old rest hfew hstuck

theorem evict_eq_error_iff (r : PacketReassembler) (window : List FramePacket) :
    (∃ s, evict r window = .error s) ↔ Blocked r window := by
  constructor
  · refine evict_induction (motive := fun r window o => (∃ s, o = .error s) → Blocked r window)
      ?_ ?_ ?_ ?_ r window
    · rintro r window - ⟨s, hs⟩
      cases hs
    · rintro r window - - ⟨s, hs⟩
      cases hs
    · exact fun r old rest hmany hstuck _ => .here hmany hstuck
    · exact fun r old rest call s hmany hround ih hs => .later hmany hround (ih hs)
  · intro h
    induction h with
    | here hmany h => exact ⟨_, h.evict_eq hmany⟩
    | later hmany hround h ih =>
      rw [hround.evict_eq hmany]
      exact ih

instance (r : PacketReassembler) (window : List FramePacket) : Decidable (Blocked r window) :=
  decidable_of_iff ((evict r window).isOk = false) <| by
    rw [← evict_eq_error_iff]
    cases evict r window with
    | ok s =>
      refine iff_of_false Bool.noConfusion ?_
      rintro ⟨t, ht⟩
      cases ht
    | error s => exact iff_of_true rfl ⟨s, rfl⟩

/-! ### What leaves the window -/

theorem Round.calls (h : r.Round old rest call s) : s.calls = r.calls ++ call.toList := by
  cases h with
  | whole | recovered => rfl
  | erased | givenUp => exact (List.append_nil _).symm

theorem Round.fecPackets (h : r.Round old rest call s) : s.fecPackets = r.fecPackets := by
  cases h <;> rfl

/-- A frame that leaves is put aside, or is gone. -/
theorem Round.oldPackets (h : r.Round old rest call s) :
    s.oldPackets = r.oldPackets ∨
      s.oldPackets = keepLast numOldPackets (r.oldPackets ++ [old]) := by
  cases h with
  | whole | givenUp => exact .inr rfl
  | recovered | erased => exact .inl rfl

theorem Round.complete (h : r.Round old rest call s) (hcomplete : old.complete = true) :
    call = some old.call := by
  cases h with
  | whole => rfl
  | recovered h | erased h => exact absurd hcomplete h.not_complete
  | givenUp hincomplete => exact Bool.noConfusion (hincomplete.symm.trans hcomplete)

theorem Round.alone (h : r.Round old rest call s) (hnone : r.fecPackets = [])
    (hincomplete : old.complete = false) : call = none := by
  cases h with
  | whole h => exact Bool.noConfusion (hincomplete.symm.trans h)
  | recovered h hfound =>
    rw [hnone] at hfound
    cases hfound
  | erased | givenUp => rfl

theorem Round.asserted (h : r.Round old rest call s) (hfits : old.Fits) :
    s.asserted = r.asserted := by
  cases h with
  | whole h =>
    show (r.asserted && old.reassembleAssert) = r.asserted
    rw [hfits.reassembleAssert h, Bool.and_true]
  | @recovered fec recovered h =>
    show (r.asserted && (old.fill recovered).reassembleAssert) = r.asserted
    rw [hfits.reassembleAssert_fill h.one, Bool.and_true]
  | erased | givenUp => rfl

/-- **What leaves the window**, with the calls: each frame is passed on once if
it is complete, and otherwise with the help of a parity packet only. -/
structure Evicted (r : PacketReassembler) (window : List FramePacket) (r' : PacketReassembler)
    (leaving : List (FramePacket × Option FrameCall)) : Prop where
  packets : window = leaving.map Prod.fst ++ r'.packets
  calls : r'.calls = r.calls ++ leaving.filterMap Prod.snd
  fecPackets : r'.fecPackets = r.fecPackets
  complete : ∀ x ∈ leaving, x.1.complete = true → x.2 = some x.1.call
  alone : r.fecPackets = [] → ∀ x ∈ leaving, x.1.complete = false → x.2 = none
  asserted : (∀ p ∈ window, p.Fits) → r'.asserted = r.asserted
  rest : window ≠ [] → r'.packets ≠ []

theorem Evicted.stay (r : PacketReassembler) (packets : List FramePacket) (waiting : Bool) :
    Evicted r packets { r with packets := packets, waitingForFEC := waiting } [] where
  packets := rfl
  calls := (List.append_nil _).symm
  fecPackets := rfl
  complete := by simp
  alone := by simp
  asserted _ := rfl
  rest h := h

theorem Evicted.cons {r' : PacketReassembler} {leaving : List (FramePacket × Option FrameCall)}
    (hround : r.Round old rest call s) (hrest : ¬ rest.length < 3) (h : Evicted s rest r' leaving) :
    Evicted r (old :: rest) r' ((old, call) :: leaving) where
  packets := by rw [h.packets]; rfl
  calls := by
    rw [h.calls, hround.calls, List.append_assoc]
    cases call <;> rfl
  fecPackets := h.fecPackets.trans hround.fecPackets
  complete := by
    intro x hx
    rcases List.mem_cons.mp hx with rfl | hx
    · exact hround.complete
    · exact h.complete x hx
  alone := by
    intro hnone x hx
    rcases List.mem_cons.mp hx with rfl | hx
    · exact hround.alone hnone
    · exact h.alone (hround.fecPackets.trans hnone) x hx
  asserted := by
    intro hfits
    rw [h.asserted fun p hp => hfits p (List.mem_cons_of_mem _ hp)]
    exact hround.asserted (hfits old List.mem_cons_self)
  rest _ := by
    refine h.rest fun hnil => hrest ?_
    rw [hnil]
    exact Nat.succ_pos 2

/-- **The loop** lets frames leave from the front, however it ends. -/
theorem evict_spec (r : PacketReassembler) (window : List FramePacket) :
    ∃ leaving, Evicted r window (evict r window).left leaving := by
  refine evict_induction (motive := fun r window o => ∃ leaving, Evicted r window o.left leaving)
    ?_ ?_ ?_ ?_ r window
  · exact fun r window _ => ⟨[], .stay r window r.waitingForFEC⟩
  · exact fun r window _ _ => ⟨[], .stay r window true⟩
  · exact fun r old rest _ _ => ⟨[], .stay r (old :: rest) r.waitingForFEC⟩
  · rintro r old rest call s hmany hround ⟨leaving, h⟩
    exact ⟨_, .cons hround hmany h⟩

/-! ## What `AddFragment` does -/

/-- The fragment is one of a frame in the window. -/
def knows (r : PacketReassembler) (f : Fragment) : Bool :=
  (r.packets.find? (·.timestamp == f.pts)).any fun p =>
    f.fragmentCount == p.partCount && f.fragmentIndex < p.partCount

/-- The fragment is the first of a frame. -/
def opens (r : PacketReassembler) (f : Fragment) : Bool :=
  (r.packets.all (·.timestamp != f.pts)) &&
    !(r.lastFrameSeq > 3 && r.frameSeq f.fseq < r.lastFrameSeq - 3) &&
      f.fragmentIndex < f.fragmentCount && f.fragmentCount ≤ 255

/-- What `AddFragment` can do. -/
inductive Handled (r : PacketReassembler) (f : Fragment) : Outcome → Prop
  | ignored (hknows : r.knows f = false) (hopens : r.opens f = false) : Handled r f (.ok r)
  | known {before after : List FramePacket} {p : FramePacket} (hknows : r.knows f = true)
      (hopens : r.opens f = false) (hpackets : r.packets = before ++ p :: after)
      (hpts : p.timestamp = f.pts) (hindex : f.fragmentIndex < p.partCount) :
      Handled r f (.ok { r with
        packets := before ++ p.addFragment f.pkt f.fragmentIndex :: after
        asserted := r.asserted && p.fragmentAssert f.fragmentIndex })
  | opened (hknows : r.knows f = false) (hopens : r.opens f = true)
      (hpts : ∀ p ∈ r.packets, p.timestamp ≠ f.pts) (hindex : f.fragmentIndex < f.fragmentCount)
      (hcount : f.fragmentCount ≤ 255) : Handled r f (r.openFrame f)

theorem updateFirst_of_find? {α : Type} {q : α → Bool} {as : List α} {a : α} (f : α → α)
    (h : as.find? q = some a) :
    ∃ before after, as = before ++ a :: after ∧ updateFirst q f as = before ++ f a :: after := by
  induction as with
  | nil => cases h
  | cons b as ih =>
    rw [List.find?_cons] at h
    unfold updateFirst
    split at h
    · cases h
      rw [if_pos ‹_›]
      exact ⟨[], as, rfl, rfl⟩
    · obtain ⟨before, after, has, hupdate⟩ := ih h
      rw [if_neg (by simp [*])]
      exact ⟨b :: before, after, by rw [has]; rfl, by rw [hupdate]; rfl⟩

theorem addFragment_handled (r : PacketReassembler) (f : Fragment) :
    Handled r f (r.addFragment f) := by
  unfold addFragment
  cases hfind : r.packets.find? (·.timestamp == f.pts) with
  | some p =>
    have hpts : p.timestamp = f.pts := by simpa using List.find?_some hfind
    have hopens : r.opens f = false := by
      have hnot : r.packets.all (·.timestamp != f.pts) = false := by
        rw [List.all_eq_false]
        exact ⟨p, List.mem_of_find?_eq_some hfind, by simp [hpts]⟩
      rw [opens, hnot]
      rfl
    have hknows : r.knows f = (f.fragmentCount == p.partCount && f.fragmentIndex < p.partCount) := by
      rw [knows, hfind]
      rfl
    dsimp only
    split_ifs with hcount hindex
    · exact .ignored (by simp [hknows, hcount]) hopens
    · exact .ignored (by simpa [hknows] using fun _ => hindex) hopens
    · obtain ⟨before, after, hpackets, hupdate⟩ :=
        updateFirst_of_find? (·.addFragment f.pkt f.fragmentIndex) hfind
      rw [hupdate]
      have hlt : f.fragmentIndex < p.partCount := UInt32.not_le.mp hindex
      exact .known (by simp [hknows, not_not.mp hcount, hlt]) hopens hpackets hpts hlt
  | none =>
    have hpts : ∀ p ∈ r.packets, p.timestamp ≠ f.pts := fun p hp => by
      simpa using List.find?_eq_none.mp hfind p hp
    have hall : r.packets.all (·.timestamp != f.pts) = true := by
      rw [List.all_eq_true]
      exact fun p hp => by simpa using hpts p hp
    have hknows : r.knows f = false := by
      rw [knows, hfind]
      rfl
    dsimp only
    split_ifs with hlate hindex hcount
    · exact .ignored hknows (by rw [opens, hlate]; simp)
    · exact .ignored hknows (by simp [opens, UInt32.not_lt.mpr hindex])
    · exact .ignored hknows (by simp [opens, UInt32.not_le.mpr hcount])
    · have hopens : r.opens f = true := by
        simp [opens, hall, hlate, UInt32.not_le.mp hindex, UInt32.not_lt.mp hcount]
      exact .opened hknows hopens hpts (UInt32.not_le.mp hindex) (UInt32.not_lt.mp hcount)

/-- The call throws: the loop comes to a parity packet that does. -/
def Throws (r : PacketReassembler) (f : Fragment) : Prop :=
  r.opens f = true ∧ Blocked { r with maxTimestamp := max r.maxTimestamp f.pts } (r.opened f)

instance (r : PacketReassembler) (f : Fragment) : Decidable (r.Throws f) :=
  inferInstanceAs (Decidable (_ ∧ _))

theorem trim_eq_error_iff (r : PacketReassembler) (f : Fragment) :
    (∃ s, r.trim f = .error s) ↔
      Blocked { r with maxTimestamp := max r.maxTimestamp f.pts } (r.opened f) :=
  evict_eq_error_iff _ _

/-- `lastFrameSeq` is set at the end of the call. -/
theorem openFrame_cases (r : PacketReassembler) (f : Fragment) :
    (∃ s, r.trim f = .ok s ∧ r.openFrame f = .ok { s with lastFrameSeq := r.frameSeq f.fseq }) ∨
      (∃ s, r.trim f = .error s ∧ r.openFrame f = .error s) := by
  unfold openFrame
  cases r.trim f with
  | ok s => exact .inl ⟨s, rfl, rfl⟩
  | error s => exact .inr ⟨s, rfl, rfl⟩

/-- However the call ends, all but `lastFrameSeq` is as the loop left it. -/
theorem openFrame_left (r : PacketReassembler) (f : Fragment) :
    ∃ last, (r.openFrame f).left = { (r.trim f).left with lastFrameSeq := last } := by
  rcases r.openFrame_cases f with ⟨s, htrim, hopen⟩ | ⟨s, htrim, hopen⟩
  · rw [htrim, hopen]
    exact ⟨_, rfl⟩
  · rw [htrim, hopen]
    exact ⟨s.lastFrameSeq, rfl⟩

theorem trim_spec (r : PacketReassembler) (f : Fragment) :
    ∃ leaving, Evicted { r with maxTimestamp := max r.maxTimestamp f.pts } (r.opened f)
      (r.trim f).left leaving :=
  evict_spec _ _

/-- **What the fragment that opens a frame leaves**, thrown or not: frames leave at the front, and
the last number may be set. -/
theorem openFrame_spec (r : PacketReassembler) (f : Fragment) :
    ∃ leaving r' last, (r.openFrame f).left = { r' with lastFrameSeq := last } ∧
      Evicted { r with maxTimestamp := max r.maxTimestamp f.pts } (r.opened f) r' leaving := by
  obtain ⟨last, hleft⟩ := r.openFrame_left f
  obtain ⟨leaving, hevicted⟩ := r.trim_spec f
  exact ⟨leaving, _, last, hleft, hevicted⟩

/-- **When `AddFragment` throws.** -/
theorem addFragment_eq_error_iff (r : PacketReassembler) (f : Fragment) :
    (∃ s, r.addFragment f = .error s) ↔ r.Throws f := by
  have hhandled := r.addFragment_handled f
  generalize r.addFragment f = o at hhandled
  cases hhandled with
  | ignored hknows hopens | known hknows hopens =>
    refine iff_of_false ?_ fun h => Bool.noConfusion (hopens.symm.trans h.1)
    rintro ⟨s, hs⟩
    cases hs
  | opened hknows hopens =>
    have htrim := r.trim_eq_error_iff f
    rcases r.openFrame_cases f with ⟨s, hok, hopen⟩ | ⟨s, herror, hopen⟩
    · rw [hopen]
      refine iff_of_false ?_ fun h => ?_
      · rintro ⟨t, ht⟩
        cases ht
      · obtain ⟨t, ht⟩ := htrim.mpr h.2
        cases hok.symm.trans ht
    · exact iff_of_true ⟨s, hopen⟩ ⟨hopens, htrim.mp ⟨s, herror⟩⟩

/-! ## What `AddFEC` does -/

/-- What `AddFEC` can do to the window. -/
inductive Takes (r : PacketReassembler) (fec : FecPacket) : Outcome → Prop
  | kept (h : r.waitingForFEC = true → ∀ front ∈ r.packets.head?, fec.covers front = false) :
      Takes r fec (.ok r)
  | thrown {front : FramePacket} {rest : List FramePacket} (hpackets : r.packets = front :: rest)
      (hwaiting : r.waitingForFEC = true) (hcovers : fec.covers front = true)
      (hblank : r.BlankFEC fec) : Takes r fec (.error r)
  | taken {front : FramePacket} {rest : List FramePacket} {t : PacketReassembler}
      (hpackets : r.packets = front :: rest) (hwaiting : r.waitingForFEC = true)
      (hcovers : fec.covers front = true) (hblank : ¬ r.BlankFEC fec)
      (hdecoded : r.tryDecodeFEC fec = .ok t) :
      Takes r fec (.ok { t with packets := rest, waitingForFEC := false })

theorem takeFront_takes (r : PacketReassembler) (fec : FecPacket) :
    Takes r fec (r.takeFront fec) := by
  unfold takeFront
  split
  · rename_i front rest hpackets
    split_ifs with hwaiting
    · rw [Bool.and_eq_true] at hwaiting
      rcases tryDecodeFEC_cases r fec with ⟨hblank, herror⟩ | ⟨hnot, hdecoded⟩
      · rw [herror]
        exact .thrown hpackets hwaiting.1 hwaiting.2 hblank
      · obtain ⟨t, ht⟩ : ∃ t, r.tryDecodeFEC fec = .ok t := by
          rcases hdecoded with hsame | ⟨pkt, rest, recovered, -, -, -, -, hdecoded⟩
          · exact ⟨_, hsame⟩
          · exact ⟨_, hdecoded⟩
        rw [ht]
        exact .taken hpackets hwaiting.1 hwaiting.2 hnot ht
    · refine .kept fun hset front' hfront => ?_
      rw [hpackets] at hfront
      cases hfront
      simpa [hset] using hwaiting
  · rename_i hnil
    refine .kept fun _ front hfront => ?_
    rw [hnil] at hfront
    cases hfront

theorem length_keepLast {α : Type} (n : ℕ) (as : List α) : (keepLast n as).length ≤ n := by
  rw [keepLast, List.length_drop]
  omega

/-- After that the parity packet is kept. -/
theorem addFEC_left (r : PacketReassembler) (data : Bytes) (fseq : UInt8)
    (frameCount fecScheme : UInt32) :
    ∃ fecs : List FecPacket, (fecs = r.fecPackets ∨ fecs.length ≤ numFecPackets) ∧
      (r.addFEC data fseq frameCount fecScheme).left =
        { (r.takeFront (r.fecPacket data fseq frameCount fecScheme)).left with fecPackets := fecs } := by
  have htakes := r.takeFront_takes (r.fecPacket data fseq frameCount fecScheme)
  unfold addFEC
  dsimp only
  generalize r.takeFront (r.fecPacket data fseq frameCount fecScheme) = o at htakes ⊢
  cases htakes with
  | thrown => exact ⟨r.fecPackets, .inl rfl, rfl⟩
  | kept | taken => exact ⟨_, .inr (length_keepLast _ _), rfl⟩

end PacketReassembler

/-! ## Frames -/

/-- A frame as it was sent. -/
structure VideoFrame where
  fragments : List Bytes
  count : 1 ≤ fragments.length ∧ fragments.length ≤ 255
  nonempty : ∀ pkt ∈ fragments, pkt ≠ []
  pts : UInt32
  keyframe : Bool
  rotation : UInt16

namespace VideoFrame

variable (v : VideoFrame)

def fragment (i : ℕ) (fseq : UInt8) : Fragment :=
  { pkt := v.fragments.getD i [], fragmentIndex := i.toUInt32,
    fragmentCount := v.fragments.length.toUInt32, pts := v.pts, fseq := fseq,
    keyframe := v.keyframe, rotation := v.rotation }

/-- What the callback is to get: the whole frame. -/
def content : Bytes × Bool × UInt16 := (v.fragments.flatten, v.keyframe, v.rotation)

variable {v}

theorem toNat_count : v.fragments.length.toUInt32.toNat = v.fragments.length := by
  have := v.count
  exact Nat.mod_eq_of_lt (by show v.fragments.length < _; omega)

theorem toNat_index {i : ℕ} (h : i < v.fragments.length) : i.toUInt32.toNat = i := by
  have := v.count
  exact Nat.mod_eq_of_lt (by show i < _; omega)

theorem fragment_ne_nil {i : ℕ} (h : i < v.fragments.length) : v.fragments.getD i [] ≠ [] := by
  rw [List.getD_eq_getElem?_getD, List.getElem?_eq_getElem h]
  exact v.nonempty _ (List.getElem_mem h)

end VideoFrame

def FrameCall.content (c : FrameCall) : Bytes × Bool × UInt16 := (c.packet, c.keyframe, c.rotation)

namespace FramePacket

/-- The packet holds fragments of the frame, of those that came in. -/
structure PartOf (v : VideoFrame) (came : ℕ → Prop) (p : FramePacket) : Prop where
  timestamp : p.timestamp = v.pts
  partCount : p.partCount = v.fragments.length.toUInt32
  keyframe : p.isKeyframe = v.keyframe
  rotation : p.rotation = v.rotation
  counted : p.Counted
  part : ∀ i, p.parts.getD i [] ≠ [] → p.parts.getD i [] = v.fragments.getD i [] ∧ came i

variable {v : VideoFrame} {came came' : ℕ → Prop} {p : FramePacket} {i : ℕ}

theorem PartOf.mono (h : p.PartOf v came) (hcame : ∀ i, came i → came' i) : p.PartOf v came' :=
  { h with part := fun i hi => ⟨(h.part i hi).1, hcame i (h.part i hi).2⟩ }

theorem PartOf.getD_eq_nil (h : p.PartOf v came) (hi : ¬ came i) : p.parts.getD i [] = [] := by
  by_contra hne
  exact hi (h.part i hne).2

theorem PartOf.addFragment (h : p.PartOf v came) (hi : i < v.fragments.length)
    (hnone : p.parts.getD i [] = []) (hcame : ∀ j, came j → came' j) (hi' : came' i) :
    (p.addFragment (v.fragments.getD i []) i.toUInt32).PartOf v came' where
  timestamp := h.timestamp
  partCount := h.partCount
  keyframe := h.keyframe
  rotation := h.rotation
  counted := by
    refine h.counted.addFragment (VideoFrame.fragment_ne_nil hi) ?_ ?_
    · rw [h.partCount, UInt32.lt_iff_toNat_lt, VideoFrame.toNat_index hi, VideoFrame.toNat_count]
      exact hi
    · rw [VideoFrame.toNat_index hi]
      exact hnone
  part := by
    intro j hj
    rw [getD_addFragment, VideoFrame.toNat_index hi] at hj ⊢
    split_ifs at hj ⊢ with heq
    · exact ⟨by rw [heq], heq ▸ hi'⟩
    · exact ⟨(h.part j hj).1, hcame j (h.part j hj).2⟩

theorem PartOf.fragmentAssert (h : p.PartOf v came) (hi : i < v.fragments.length)
    (hnew : ¬ came i) : p.fragmentAssert i.toUInt32 = true := by
  unfold FramePacket.fragmentAssert
  split
  · rw [VideoFrame.toNat_index hi, h.getD_eq_nil hnew]
    rfl
  · rfl

/-- The packet has all fragments of its frame. -/
def Full (v : VideoFrame) (p : FramePacket) : Prop :=
  ∀ i < v.fragments.length, p.parts.getD i [] ≠ []

instance (v : VideoFrame) (p : FramePacket) : Decidable (p.Full v) :=
  inferInstanceAs (Decidable (∀ i < v.fragments.length, _))

theorem PartOf.parts_eq (h : p.PartOf v came) (hfull : p.Full v) : p.parts = v.fragments := by
  have hlength : p.parts.length = v.fragments.length := by
    have hfew := h.counted.few
    rw [h.partCount, VideoFrame.toNat_count] at hfew
    by_contra hne
    have hlast := hfull p.parts.length (by omega)
    rw [List.getD_eq_default _ _ (Nat.le_refl _)] at hlast
    exact hlast rfl
  refine List.ext_getElem hlength fun i hi hi' => ?_
  have heq := (h.part i (hfull i hi')).1
  rwa [List.getD_eq_getElem?_getD, List.getD_eq_getElem?_getD, List.getElem?_eq_getElem hi,
    List.getElem?_eq_getElem hi'] at heq

theorem PartOf.complete_of_full (h : p.PartOf v came) (hfull : p.Full v) : p.complete = true := by
  have hfilled : filled v.fragments = v.fragments.length :=
    List.countP_eq_length.mpr fun pkt hpkt => by simpa using v.nonempty pkt hpkt
  rw [FramePacket.complete, beq_iff_eq, ← UInt32.toNat_inj, h.counted.received, h.parts_eq hfull,
    hfilled, h.partCount, VideoFrame.toNat_count]

theorem PartOf.full_of_complete (h : p.PartOf v came) (hcomplete : p.complete = true) :
    p.Full v := by
  obtain ⟨hlength, hfull⟩ := h.counted.complete hcomplete
  rw [h.partCount, VideoFrame.toNat_count] at hlength
  intro i hi
  rw [List.getD_eq_getElem?_getD, List.getElem?_eq_getElem (hlength ▸ hi)]
  exact hfull _ (List.getElem_mem _)

/-- **A complete packet is the whole frame**, and all of it came in. -/
theorem PartOf.complete (h : p.PartOf v came) (hcomplete : p.complete = true) :
    p.call.content = v.content ∧ ∀ i < v.fragments.length, came i := by
  have hpart := h.full_of_complete hcomplete
  have hparts := h.parts_eq hpart
  refine ⟨?_, fun i hi => (h.part i (hpart i hi)).2⟩
  have hall : (List.range v.fragments.length).map (fun i => v.fragments.getD i []) = v.fragments := by
    refine List.ext_getElem (by simp) fun i hi hi' => ?_
    simp [hi']
  have hpacket : p.reassemble = v.fragments.flatten := by
    rw [FramePacket.reassemble, h.partCount, VideoFrame.toNat_count, hparts, List.flatMap_def, hall]
  show (p.reassemble, p.isKeyframe, p.rotation) = (v.fragments.flatten, v.keyframe, v.rotation)
  rw [hpacket, h.keyframe, h.rotation]

end FramePacket

/-! ## Runs -/

/-- A reassembler and the fragments that were passed to it. -/
structure ReassemblerRun (ι : Type*) where
  reassembler : PacketReassembler := {}
  passed : List (ι × ℕ) := []

inductive ReassemblerEvent (ι : Type*) where
  | addFragment (frame : ι) (index : ℕ) (fseq : UInt8)
  | addFEC (data : Bytes) (fseq : UInt8) (frameCount fecScheme : UInt32)

namespace ReassemblerRun

variable {ι : Type*} (frames : ι → VideoFrame)

def step (r : ReassemblerRun ι) : ReassemblerEvent ι → ReassemblerRun ι
  | .addFragment k i fseq =>
    { reassembler := (r.reassembler.addFragment ((frames k).fragment i fseq)).left
      passed := (k, i) :: r.passed }
  | .addFEC data fseq frameCount fecScheme =>
    { r with reassembler := (r.reassembler.addFEC data fseq frameCount fecScheme).left }

/-- Fragments of the frames, each at most once. -/
def Fresh (r : ReassemblerRun ι) : ReassemblerEvent ι → Prop
  | .addFragment k i _ => i < (frames k).fragments.length ∧ (k, i) ∉ r.passed
  | .addFEC .. => True

/-- `AddFEC` is never called. -/
def OnlyFragments : ReassemblerEvent ι → Prop
  | .addFragment .. => True
  | .addFEC .. => False

instance [DecidableEq ι] (r : ReassemblerRun ι) : ∀ e, Decidable (Fresh frames r e)
  | .addFragment k i _ =>
    inferInstanceAs (Decidable (i < (frames k).fragments.length ∧ (k, i) ∉ r.passed))
  | .addFEC .. => .isTrue trivial

instance : ∀ e : ReassemblerEvent ι, Decidable (OnlyFragments e)
  | .addFragment .. => .isTrue trivial
  | .addFEC .. => .isFalse id

/-- The window holds fragments that were passed, of distinct frames. -/
structure Window (passed : List (ι × ℕ)) (packets : List FramePacket) : Prop where
  part : ∀ p ∈ packets, ∃ k, p.PartOf (frames k) fun i => (k, i) ∈ passed
  distinct : (packets.map (·.timestamp)).Nodup

variable {frames} {r : ReassemblerRun ι} {passed : List (ι × ℕ)} {k : ι} {i : ℕ} {fseq : UInt8}
  {packets before after : List FramePacket} {p : FramePacket}

theorem Window.leave (h : Window frames passed (before ++ packets)) :
    Window frames passed packets where
  part := fun p hp => h.part p (List.mem_append_right _ hp)
  distinct := by
    have := h.distinct
    rw [List.map_append] at this
    exact (List.nodup_append.mp this).2.1

/-- What stays behind what leaves is of other frames. -/
theorem Window.apart {p q : FramePacket} (h : Window frames passed (before ++ packets))
    (hp : p ∈ before) (hq : q ∈ packets) : q.timestamp ≠ p.timestamp := by
  have hdistinct := h.distinct
  rw [List.map_append] at hdistinct
  intro heq
  exact (List.nodup_append.mp hdistinct).2.2 _ (List.mem_map_of_mem hp) _
    (List.mem_map_of_mem hq) heq.symm

theorem Window.front (h : Window frames passed (before ++ packets)) :
    Window frames passed before where
  part := fun p hp => h.part p (List.mem_append_left _ hp)
  distinct := by
    have := h.distinct
    rw [List.map_append] at this
    exact (List.nodup_append.mp this).1

theorem Window.pass (h : Window frames passed packets) (x : ι × ℕ) :
    Window frames (x :: passed) packets where
  part := by
    intro p hp
    obtain ⟨k, hk⟩ := h.part p hp
    exact ⟨k, hk.mono fun i hi => List.mem_cons_of_mem _ hi⟩
  distinct := h.distinct

theorem Window.fits (h : Window frames passed packets) : ∀ p ∈ packets, p.Fits := by
  intro p hp
  obtain ⟨k, hk⟩ := h.part p hp
  exact hk.counted.fits

/-- A packet of the window with the frame's pts holds this frame. -/
theorem Window.partOf (hpts : Function.Injective fun k => (frames k).pts)
    (h : Window frames passed packets) (hp : p ∈ packets) (heq : p.timestamp = (frames k).pts) :
    p.PartOf (frames k) fun i => (k, i) ∈ passed := by
  obtain ⟨k', hk'⟩ := h.part p hp
  have hk : k' = k := hpts (hk'.timestamp.symm.trans heq)
  rwa [← hk]

/-- A fragment goes to the packet of its frame. -/
theorem Window.known (hpts : Function.Injective fun k => (frames k).pts)
    (h : Window frames passed (before ++ p :: after)) (hi : i < (frames k).fragments.length)
    (hnew : (k, i) ∉ passed) (heq : p.timestamp = (frames k).pts) :
    Window frames ((k, i) :: passed)
      (before ++ p.addFragment ((frames k).fragments.getD i []) i.toUInt32 :: after) := by
  have hp : p ∈ before ++ p :: after := List.mem_append_right _ List.mem_cons_self
  have hpart := h.partOf hpts hp heq
  have hpass := (h.pass (k, i)).part
  refine ⟨fun q hq => ?_, ?_⟩
  · rcases List.mem_append.mp hq with hq | hq
    · exact hpass q (List.mem_append_left _ hq)
    rcases List.mem_cons.mp hq with rfl | hq
    · exact ⟨k, hpart.addFragment hi (hpart.getD_eq_nil hnew) (fun _ => List.mem_cons_of_mem _) List.mem_cons_self⟩
    · exact hpass q (List.mem_append_right _ (List.mem_cons_of_mem _ hq))
  · have := h.distinct
    rw [List.map_append, List.map_cons] at this ⊢
    exact this

/-- A fragment of another frame opens a packet. -/
theorem Window.push (h : Window frames passed packets) (s : PacketReassembler) (fseq : UInt8)
    (hi : i < (frames k).fragments.length) (hnone : ∀ p ∈ packets, p.timestamp ≠ (frames k).pts) :
    Window frames ((k, i) :: passed)
      (packets ++ [(s.newPacket ((frames k).fragment i fseq)).addFragment
        ((frames k).fragments.getD i []) i.toUInt32]) := by
  have hempty : (s.newPacket ((frames k).fragment i fseq)).PartOf (frames k)
      fun i => (k, i) ∈ passed :=
    { timestamp := rfl, partCount := rfl, keyframe := rfl, rotation := rfl,
      counted := ⟨Nat.zero_le _, rfl⟩, part := fun i hi => absurd rfl hi }
  refine ⟨fun q hq => ?_, ?_⟩
  · rcases List.mem_append.mp hq with hq | hq
    · exact (h.pass (k, i)).part q hq
    · rw [List.mem_singleton.mp hq]
      exact ⟨k, hempty.addFragment hi rfl (fun _ => List.mem_cons_of_mem _) List.mem_cons_self⟩
  · rw [List.map_append, List.nodup_append]
    refine ⟨h.distinct, List.pairwise_singleton _ _, ?_⟩
    intro t ht t' ht'
    obtain ⟨p, hp, rfl⟩ := List.mem_map.mp ht
    obtain ⟨q, hq, rfl⟩ := List.mem_map.mp ht'
    rw [List.mem_singleton.mp hq]
    exact hnone p hp

/-! ### Without parity packets -/

/-- The frames that were passed on: whole, each once, and gone for good. -/
structure Delivered (frames : ι → VideoFrame) (r : ReassemblerRun ι) (delivered : List ι) : Prop where
  once : delivered.Nodup
  calls : r.reassembler.calls.map (·.content) = delivered.map fun k => (frames k).content
  passed : ∀ k ∈ delivered, ∀ i < (frames k).fragments.length, (k, i) ∈ r.passed
  gone : ∀ k ∈ delivered, ∀ p ∈ r.reassembler.packets, p.timestamp ≠ (frames k).pts

/-- The frames that leave the window and are passed on. -/
theorem Window.leaving {leaving : List (FramePacket × Option FrameCall)}
    (h : Window frames passed (leaving.map Prod.fst))
    (hcomplete : ∀ x ∈ leaving, x.1.complete = true → x.2 = some x.1.call)
    (halone : ∀ x ∈ leaving, x.1.complete = false → x.2 = none) :
    ∃ delivered : List ι, delivered.Nodup ∧
      (leaving.filterMap Prod.snd).map (·.content) = (delivered.map fun k => (frames k).content) ∧
      ∀ k ∈ delivered, (∀ i < (frames k).fragments.length, (k, i) ∈ passed) ∧
        (frames k).pts ∈ (leaving.map Prod.fst).map (·.timestamp) := by
  induction leaving with
  | nil => exact ⟨[], List.nodup_nil, rfl, by simp⟩
  | cons x leaving ih =>
    have htail : Window frames passed (leaving.map Prod.fst) := by
      rw [List.map_cons, ← List.singleton_append] at h
      exact h.leave
    obtain ⟨delivered, honce, hcalls, hdelivered⟩ := ih htail
      (fun y hy => hcomplete y (List.mem_cons_of_mem _ hy))
      (fun y hy => halone y (List.mem_cons_of_mem _ hy))
    cases hx : x.1.complete with
    | false =>
      refine ⟨delivered, honce, ?_, fun k hk => ⟨(hdelivered k hk).1, List.mem_cons_of_mem _
        (hdelivered k hk).2⟩⟩
      rw [List.filterMap_cons_none (halone x List.mem_cons_self hx), hcalls]
    | true =>
      obtain ⟨k, hk⟩ := h.part x.1 List.mem_cons_self
      obtain ⟨hcontent, hall⟩ := hk.complete hx
      have hfresh : (frames k).pts ∉ (leaving.map Prod.fst).map (·.timestamp) := by
        have hdistinct := h.distinct
        rw [List.map_cons, List.map_cons, List.nodup_cons, hk.timestamp] at hdistinct
        exact hdistinct.1
      refine ⟨k :: delivered, List.nodup_cons.mpr ⟨?_, honce⟩, ?_, ?_⟩
      · exact fun hmem => hfresh (hdelivered k hmem).2
      · rw [List.filterMap_cons_some (hcomplete x List.mem_cons_self hx), List.map_cons,
          List.map_cons, hcalls, hcontent]
      · intro k' hk'
        rcases List.mem_cons.mp hk' with rfl | hk'
        · exact ⟨hall, by rw [← hk.timestamp]; exact List.mem_cons_self⟩
        · exact ⟨(hdelivered k' hk').1, List.mem_cons_of_mem _ (hdelivered k' hk').2⟩

/-- The invariant of runs without parity packets. -/
structure Alone (frames : ι → VideoFrame) (r : ReassemblerRun ι) : Prop where
  window : Window frames r.passed r.reassembler.packets
  asserted : r.reassembler.asserted = true
  fecPackets : r.reassembler.fecPackets = []
  delivered : ∃ delivered, Delivered frames r delivered

theorem alone_init : Alone frames ({} : ReassemblerRun ι) where
  window := ⟨by simp, List.nodup_nil⟩
  asserted := rfl
  fecPackets := rfl
  delivered := ⟨[], List.nodup_nil, rfl, by simp, by simp⟩

/-- A frame that was passed on has no fragment left to come. -/
theorem Delivered.ne {delivered : List ι} (h : Delivered frames r delivered)
    (hfresh : Fresh frames r (.addFragment k i fseq)) : k ∉ delivered :=
  fun hk => hfresh.2 (h.passed k hk i hfresh.1)

/-- A fragment of a packet in the window. -/
theorem Alone.known (hpts : Function.Injective fun k => (frames k).pts) (h : Alone frames r)
    (hfresh : Fresh frames r (.addFragment k i fseq))
    (hpackets : r.reassembler.packets = before ++ p :: after)
    (heq : p.timestamp = (frames k).pts) :
    Alone frames { reassembler := { r.reassembler with
        packets := before ++ p.addFragment ((frames k).fragments.getD i []) i.toUInt32 :: after
        asserted := r.reassembler.asserted && p.fragmentAssert i.toUInt32 }
                   passed := (k, i) :: r.passed } := by
  obtain ⟨delivered, hdelivered⟩ := h.delivered
  have hwindow := h.window
  have hgone := hdelivered.gone
  rw [hpackets] at hwindow hgone
  have hpart := hwindow.partOf hpts (List.mem_append_right _ List.mem_cons_self) heq
  refine ⟨hwindow.known hpts hfresh.1 hfresh.2 heq, ?_, h.fecPackets, delivered, hdelivered.once,
    hdelivered.calls, fun k' hk' j hj => List.mem_cons_of_mem _ (hdelivered.passed k' hk' j hj),
    fun k' hk' q hq => ?_⟩
  · show (r.reassembler.asserted && p.fragmentAssert i.toUInt32) = true
    rw [h.asserted, hpart.fragmentAssert hfresh.1 hfresh.2]
    rfl
  · rcases List.mem_append.mp hq with hq | hq
    · exact hgone k' hk' q (List.mem_append_left _ hq)
    rcases List.mem_cons.mp hq with rfl | hq
    · exact hgone k' hk' p (List.mem_append_right _ List.mem_cons_self)
    · exact hgone k' hk' q (List.mem_append_right _ (List.mem_cons_of_mem _ hq))

/-- The first fragment of a packet; the frames that leave for it are passed on. -/
theorem Alone.new (hpts : Function.Injective fun k => (frames k).pts) (h : Alone frames r)
    (hfresh : Fresh frames r (.addFragment k i fseq))
    (hnone : ∀ p ∈ r.reassembler.packets, p.timestamp ≠ (frames k).pts) :
    Alone frames { reassembler := (r.reassembler.openFrame ((frames k).fragment i fseq)).left
                   passed := (k, i) :: r.passed } := by
  obtain ⟨delivered, hdelivered⟩ := h.delivered
  obtain ⟨leaving, r', last, hleft, hevicted⟩ :=
    r.reassembler.openFrame_spec ((frames k).fragment i fseq)
  rw [hleft]
  have hfull := h.window.push r.reassembler fseq hfresh.1 hnone
  have hwindow : r.reassembler.packets ++ [(r.reassembler.newPacket ((frames k).fragment i
      fseq)).addFragment ((frames k).fragments.getD i []) i.toUInt32] =
      leaving.map Prod.fst ++ r'.packets := hevicted.packets
  have hasserted := hevicted.asserted hfull.fits
  rw [hwindow] at hfull
  obtain ⟨more, honce, hcalls, hmore⟩ :=
    hfull.front.leaving hevicted.complete (hevicted.alone h.fecPackets)
  -- no frame that was passed on is in the window, the new one included
  have hnot : ∀ k' ∈ delivered, ∀ p ∈ leaving.map Prod.fst ++ r'.packets,
      p.timestamp ≠ (frames k').pts := by
    intro k' hk' p hp heq
    rw [← hwindow] at hp
    rcases List.mem_append.mp hp with hp | hp
    · exact hdelivered.gone k' hk' p hp heq
    · rw [List.mem_singleton.mp hp] at heq
      exact hdelivered.ne hfresh (hpts (heq : (frames k).pts = (frames k').pts) ▸ hk')
  refine ⟨hfull.leave, hasserted.trans h.asserted, hevicted.fecPackets.trans h.fecPackets,
    delivered ++ more, ?_, ?_, ?_, ?_⟩
  · refine List.nodup_append.mpr ⟨hdelivered.once, honce, ?_⟩
    rintro k' hk' _ hmem rfl
    obtain ⟨p, hp, heq⟩ := List.mem_map.mp (hmore k' hmem).2
    exact hnot k' hk' p (List.mem_append_left _ hp) heq
  · show r'.calls.map (·.content) = _
    rw [hevicted.calls, List.map_append, List.map_append, hcalls]
    exact congrArg (· ++ _) hdelivered.calls
  · intro k' hk'
    rcases List.mem_append.mp hk' with hk' | hk'
    · exact fun j hj => List.mem_cons_of_mem _ (hdelivered.passed k' hk' j hj)
    · exact (hmore k' hk').1
  · intro k' hk' p hp
    rcases List.mem_append.mp hk' with hk' | hk'
    · exact hnot k' hk' p (List.mem_append_right _ hp)
    · obtain ⟨left, hleft, heq⟩ := List.mem_map.mp (hmore k' hk').2
      exact heq ▸ hfull.apart hleft hp

theorem Alone.step (hpts : Function.Injective fun k => (frames k).pts) (h : Alone frames r)
    (hfresh : Fresh frames r (.addFragment k i fseq)) :
    Alone frames (r.step frames (.addFragment k i fseq)) := by
  have hhandled := r.reassembler.addFragment_handled ((frames k).fragment i fseq)
  show Alone frames { reassembler := (r.reassembler.addFragment ((frames k).fragment i fseq)).left
                      passed := (k, i) :: r.passed }
  generalize r.reassembler.addFragment ((frames k).fragment i fseq) = o at hhandled ⊢
  cases hhandled with
  | ignored =>
    obtain ⟨delivered, hdelivered⟩ := h.delivered
    exact ⟨h.window.pass (k, i), h.asserted, h.fecPackets, delivered, hdelivered.once,
      hdelivered.calls, fun k' hk' j hj => List.mem_cons_of_mem _ (hdelivered.passed k' hk' j hj),
      hdelivered.gone⟩
  | known hknows hopens hpackets heq hindex => exact h.known hpts hfresh hpackets heq
  | opened hknows hopens hnone hindex hcount => exact h.new hpts hfresh hnone

/-- **Frame reassembly**: without parity packets every call is a whole frame
with its own keyframe and rotation, and no frame is passed on twice. -/
theorem reassembler_delivers_once (frames : ι → VideoFrame)
    (hpts : Function.Injective fun k => (frames k).pts) (events : List (ReassemblerEvent ι))
    (hrun : Runs.Along (step frames) (fun r e => Fresh frames r e ∧ OnlyFragments e) {} events) :
    (Runs.exec (step frames) {} events).reassembler.asserted = true ∧
    ∃ delivered : List ι, delivered.Nodup ∧
      (Runs.exec (step frames) {} events).reassembler.calls.map (·.content)
        = delivered.map fun k => (frames k).content := by
  have hend : Alone frames (Runs.exec (step frames) {} events) := by
    refine hrun.invariant (fun r e h hok => ?_) alone_init
    cases e with
    | addFragment k i fseq => exact h.step hpts hok.1
    | addFEC => cases hok.2
  obtain ⟨delivered, hdelivered⟩ := hend.delivered
  exact ⟨hend.asserted, delivered, hdelivered.once, hdelivered.calls⟩

/-- Frames of two fragments. -/
def pairFrame (k : Fin 8) : VideoFrame where
  fragments := [[k.val.toUInt8, 1], [k.val.toUInt8, 2]]
  count := ⟨by simp, by simp⟩
  nonempty := by simp
  pts := k.val.toUInt32
  keyframe := k = 0
  rotation := 0

theorem injective_pairFrame : Function.Injective fun k => (pairFrame k).pts := by
  have hdistinct : ∀ k l : Fin 8, (pairFrame k).pts = (pairFrame l).pts → k = l := by decide
  exact fun k l h => hdistinct k l h

/-- The fragments of frame 0 come in reverse order, one of frame 1 is lost. -/
def reversedRun : List (ReassemblerEvent (Fin 8)) :=
  [.addFragment 0 1 0, .addFragment 0 0 0, .addFragment 1 0 1, .addFragment 2 0 2,
    .addFragment 3 0 3, .addFragment 4 0 4]

theorem reassembler_delivers_once_reversed :
    (Function.Injective (fun k => (pairFrame k).pts) ∧
      Runs.Along (step pairFrame) (fun r e => Fresh pairFrame r e ∧ OnlyFragments e) {}
        reversedRun) ∧
    (Runs.exec (step pairFrame) {} reversedRun).reassembler.asserted = true ∧
    ∃ delivered : List (Fin 8), delivered.Nodup ∧
      (Runs.exec (step pairFrame) {} reversedRun).reassembler.calls.map (·.content)
        = delivered.map fun k => (pairFrame k).content := by
  have hrun : Runs.Along (step pairFrame) (fun r e => Fresh pairFrame r e ∧ OnlyFragments e) {}
      reversedRun := by decide
  exact ⟨⟨injective_pairFrame, hrun⟩,
    reassembler_delivers_once pairFrame injective_pairFrame reversedRun hrun⟩

example : (Runs.exec (step pairFrame) {} reversedRun).reassembler.calls.map (·.content)
    = [([0, 1, 0, 2], true, 0)] := by decide

/-- A fragment of frame 1 comes after the frames 2 to 4. -/
def lateRun : List (ReassemblerEvent (Fin 8)) :=
  [.addFragment 0 0 0, .addFragment 0 1 0, .addFragment 1 0 1, .addFragment 2 0 2,
    .addFragment 2 1 2, .addFragment 3 0 3, .addFragment 3 1 3, .addFragment 4 0 4,
    .addFragment 1 1 1]

end ReassemblerRun

end Tgvoip
