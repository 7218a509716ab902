import Tgvoip.Controller.Send
import Tgvoip.Lib.Runs

/-!
# AudioPacketSender — audio frames and their redundancy

`controller/audio/AudioPacketSender.cpp`, and what `ProcessIncomingPacket`
hands to the jitter buffer. A frame may come with a second, smaller
encoding, which is kept and goes along on later packets. The sender takes
the kept encodings by their position from the end; the receiver reads the
position as a distance between numbers. The two agree as long as every
frame in between carried a second encoding.
-/

namespace Tgvoip

open ByteReader Runs

/-- A frame that was sent: its number, and its second encoding. -/
structure SentFrame where
  seq : UInt32
  secondary : Option Bytes
  deriving DecidableEq, Repr

structure AudioPacketSender where
  packetManager : PacketManager
  ecAudioPackets : List Bytes := []
  shittyInternetMode : Bool := false
  extraEcLevel : UInt8 := 0
  packetLoss : ℚ := 0
  resendCount : ℚ := 1
  frameDuration : UInt16 := 60
  /-- `controller->stopping`. -/
  stopping : Bool := false
  /-- `controller->receivedInitAck`. -/
  receivedInitAck : Bool := false
  /-- History: the frames that were sent, the last one first. -/
  sent : List SentFrame := []

/-- What `SendPacket` is called with. -/
structure AudioPacket where
  packet : Packet
  retryInterval : Time := 1 / 2
  timeout : Time := 5
  tries : UInt8 := 0

/-- A call of `JitterBuffer::HandleInput`. -/
structure JitterInput where
  data : Bytes
  timestamp : UInt32
  isEC : Bool
  deriving DecidableEq, Repr

/-- What `ProcessIncomingPacket` hands to the jitter buffer of an audio stream. -/
def Packet.jitterInputs (p : Packet) : List JitterInput :=
  let seq := p.seq - 1
  { data := p.data.getD [], timestamp := seq, isEC := false } ::
    ((List.finRange 8).filter p.extraEC.has).map fun i =>
      { data := (p.extraEC i).getD [], timestamp := seq - UInt32.ofNat (8 - i), isEC := true }

namespace AudioPacketSender

/-! ## SendFrame -/

/-- `maxEC`: how many of the kept encodings may go along. -/
def maxEC (s : AudioPacketSender) (seq : UInt32) : UInt8 :=
  min (min (UInt8.ofNat s.ecAudioPackets.length) (seq - 1).toUInt8) s.extraEcLevel

/-- The loop over the last `maxEC` kept encodings. -/
def extraEC (s : AudioPacketSender) (pm : PacketManager) (seq : UInt32) : Entries := fun i =>
  let distance := 8 - i.val
  if distance ≤ (s.maxEC seq).toNat && !pm.wasLocalAcked (seq - UInt32.ofNat distance) then
    s.ecAudioPackets[s.ecAudioPackets.length - distance]?
  else none

/-- A second encoding is kept, eight at most. -/
def keep (ecAudioPackets : List Bytes) (secondary : Bytes) : List Bytes :=
  let kept := ecAudioPackets ++ [secondary]
  if kept.length = 9 then kept.drop 1 else kept

/-- The packet of a frame with its second encoding, and the manager behind it. -/
def framePacket (s : AudioPacketSender) (data : Bytes) (secondary : Option Bytes) :
    Packet × PacketManager :=
  let prepared := ({ data := some data } : Packet).prepare s.packetManager
  let packet := if secondary.isSome && s.shittyInternetMode then
    { prepared.1 with extraEC := s.extraEC prepared.2 prepared.1.seq } else prepared.1
  -- `SendPacket` prepares the packet again: a packet numbered 0 gets another number
  packet.prepare prepared.2

/-- The call of `SendPacket`. -/
def audioPacket (s : AudioPacketSender) (packet : Packet) : AudioPacket :=
  if s.packetLoss = 0 then { packet }
  else
    let retry : ℚ := s.frameDuration.toNat / (s.resendCount * 4)
    { packet, retryInterval := retry / 1000, timeout := s.frameDuration.toNat * 4 / 1000
      tries := UInt8.ofNat s.resendCount.floor.toNat }

/-- `SendFrame`: the sender behind it, and the call of `SendPacket`. -/
def sendFrame (s : AudioPacketSender) (data secondaryData : Bytes) :
    AudioPacketSender × Option AudioPacket :=
  if s.stopping || !s.receivedInitAck then (s, none)
  else
    let secondary := if secondaryData.isEmpty then none else some secondaryData
    let numbered := s.framePacket data secondary
    ({ s with
        packetManager := numbered.2
        ecAudioPackets := secondary.elim s.ecAudioPackets (keep s.ecAudioPackets)
        sent := { seq := numbered.1.seq, secondary } :: s.sent },
      some (s.audioPacket numbered.1))

/-- The sender behind `setPacketLoss`, and what it returns. -/
def setPacketLoss (s : AudioPacketSender) (percent : ℚ) : AudioPacketSender × ℚ :=
  let resendCount : ℚ := (if percent > 2 then max 0 (min (percent / 2) 2) else 1) + 1
  ({ s with packetLoss := percent, resendCount }, percent / resendCount)

end AudioPacketSender

/-! ## Runs -/

inductive AudioEvent where
  | frame (data secondaryData : Bytes)
  | setShittyInternetMode (on : Bool)
  | setExtraEcLevel (level : UInt8)
  | setPacketLoss (percent : ℚ)
  /-- The stream's packets are acknowledged. -/
  | ackLocal (ackSeq ackMask : UInt32)
  /-- A packet of the stream arrives. -/
  | ackRemoteSeq (seq : UInt32)
  | controller (stopping receivedInitAck : Bool)

namespace AudioPacketSender

def step (s : AudioPacketSender) : AudioEvent → AudioPacketSender
  | .frame data secondaryData => (s.sendFrame data secondaryData).1
  | .setShittyInternetMode on => { s with shittyInternetMode := on }
  | .setExtraEcLevel level => { s with extraEcLevel := level }
  | .setPacketLoss percent => (s.setPacketLoss percent).1
  | .ackLocal ackSeq ackMask => { s with packetManager := s.packetManager.ackLocal ackSeq ackMask }
  | .ackRemoteSeq seq => { s with packetManager := (s.packetManager.ackRemoteSeq seq).2 }
  | .controller stopping receivedInitAck => { s with stopping, receivedInitAck }

/-- Before the first frame. -/
structure Started (s : AudioPacketSender) : Prop where
  seq : s.packetManager.seq = 1
  kept : s.ecAudioPackets = []
  sent : s.sent = []

/-- The packet a frame goes out in. -/
def built (s : AudioPacketSender) : AudioEvent → Option Packet
  | .frame data secondaryData => (s.sendFrame data secondaryData).2.map (·.packet)
  | _ => none

/-- **Redundant audio is filed under the right frame**: what arrives as the
second encoding for a timestamp is the one of the frame last sent with it. -/
def FiledRight (s : AudioPacketSender) (e : AudioEvent) : Prop :=
  ∀ p ∈ s.built e, ∀ x ∈ p.jitterInputs, x.isEC = true →
    (s.sent.find? fun f => f.seq - 1 == x.timestamp).bind (·.secondary) = some x.data

instance (s : AudioPacketSender) (e : AudioEvent) : Decidable (s.FiledRight e) := by
  unfold FiledRight
  infer_instance

/-- Every kept encoding that goes along belongs to the frame its position
stands for: the frames sent since then all carried one, and the numbers have
not just started again at zero. -/
def AllCarried (s : AudioPacketSender) : AudioEvent → Prop
  | .frame _ secondaryData =>
    secondaryData ≠ [] → s.stopping = false → s.receivedInitAck = true →
      s.shittyInternetMode = true → ∀ d ≤ (s.maxEC s.packetManager.seq).toNat,
        s.packetManager.wasLocalAcked (s.packetManager.seq - UInt32.ofNat d) = false → 1 ≤ d →
        s.packetManager.seq ≠ 0 ∧ ∀ f ∈ s.sent.take d, f.secondary.isSome = true
  | _ => True

instance (s : AudioPacketSender) (e : AudioEvent) : Decidable (s.AllCarried e) := by
  unfold AllCarried
  cases e <;> infer_instance

/-! ## The kept encodings -/

variable {s : AudioPacketSender} {e : AudioEvent}

theorem keep_eq (xs : List Bytes) (x : Bytes) :
    keep (xs.take 8).reverse x = ((x :: xs).take 8).reverse := by
  unfold keep
  simp only [List.length_append, List.length_reverse, List.length_take, List.length_singleton]
  by_cases h : 8 ≤ xs.length
  · rw [if_pos (by omega), List.take_succ_cons, List.reverse_cons]
    obtain ⟨ys, y, hys⟩ : ∃ ys y, xs.take 8 = ys ++ [y] := by
      refine ⟨(xs.take 8).dropLast, (xs.take 8).getLast ?_, (List.dropLast_append_getLast _).symm⟩
      intro hnil
      have := congrArg List.length hnil
      rw [List.length_take, List.length_nil] at this
      omega
    have hlen : ys.length = 7 := by
      have := congrArg List.length hys
      rw [List.length_take, List.length_append, List.length_singleton] at this
      omega
    have htake : xs.take 7 = ys := by
      have := congrArg (List.take 7) hys
      rwa [List.take_take, List.take_append_of_le_length (by omega), List.take_of_length_le
        (le_of_eq hlen)] at this
    rw [hys, htake, List.reverse_append]
    rfl
  · rw [if_neg (by omega), List.take_of_length_le (by omega), List.take_of_length_le
      (by rw [List.length_cons]; omega), List.reverse_cons]

/-- Where the first elements all have an image, the images stand in their
places. -/
theorem getElem?_filterMap_of_take {α β : Type} {f : α → Option β} {xs : List α} {k : ℕ}
    (h : ∀ x ∈ xs.take (k + 1), (f x).isSome = true) :
    (xs.filterMap f)[k]? = xs[k]?.bind f := by
  induction xs generalizing k with
  | nil => rfl
  | cons x xs ih =>
      obtain ⟨y, hy⟩ := Option.isSome_iff_exists.mp (h x (by simp))
      rw [List.filterMap_cons_some hy]
      cases k with
      | zero => simp [hy]
      | succ k =>
          rw [List.getElem?_cons_succ, List.getElem?_cons_succ]
          exact ih fun z hz => h z (by rw [List.take_succ_cons]; exact List.mem_cons_of_mem x hz)

/-- How many numbers were drawn since the numbering last began. -/
def drawn (s : AudioPacketSender) : ℕ :=
  if s.packetManager.seq = 0 then 2 ^ 32 else s.packetManager.seq.toNat

/-- The kept encodings are the last eight, and the frames of the present
numbering have its numbers. -/
structure Aligned (s : AudioPacketSender) : Prop where
  kept : s.ecAudioPackets = ((s.sent.filterMap (·.secondary)).take 8).reverse
  numbered : ∀ k, 1 ≤ k → k < s.drawn →
    ∃ f, s.sent[k - 1]? = some f ∧ f.seq = s.packetManager.seq - UInt32.ofNat k

theorem Started.aligned (h : s.Started) : s.Aligned where
  kept := by rw [h.kept, h.sent]; rfl
  numbered := by
    intro k hk hlt
    rw [drawn, h.seq, if_neg (by decide)] at hlt
    have hone : (1 : UInt32).toNat = 1 := rfl
    omega

/-! ## One frame -/

/-- The number a frame is sent with: zero is skipped. -/
def frameNumber (s : AudioPacketSender) : UInt32 :=
  if s.packetManager.seq = 0 then 1 else s.packetManager.seq

theorem packet_audioPacket (s : AudioPacketSender) (p : Packet) : (s.audioPacket p).packet = p := by
  unfold audioPacket
  split <;> rfl

/-- A packet whose number was just drawn keeps it, unless it is zero. -/
theorem prepare_again {p : Packet} (hp : p.seq = s.packetManager.seq) :
    (p.prepare s.packetManager.nextLocalSeq.2).1.seq = s.frameNumber ∧
      (p.prepare s.packetManager.nextLocalSeq.2).1.extraEC = p.extraEC ∧
      (p.prepare s.packetManager.nextLocalSeq.2).2.seq = s.frameNumber + 1 := by
  unfold Packet.prepare frameNumber PacketManager.nextLocalSeq
  rw [hp]
  by_cases hzero : s.packetManager.seq = 0
  · simp [hzero]
  · simp [hzero, hp]

theorem framePacket_eq (s : AudioPacketSender) (data : Bytes) (secondary : Option Bytes) :
    (s.framePacket data secondary).1.seq = s.frameNumber ∧
      (s.framePacket data secondary).1.extraEC =
        (if secondary.isSome && s.shittyInternetMode then
          s.extraEC s.packetManager s.packetManager.seq else Entries.none) ∧
      (s.framePacket data secondary).2.seq = s.frameNumber + 1 := by
  unfold framePacket
  dsimp only
  split
  · exact prepare_again rfl
  · exact prepare_again rfl

/-- What a frame is sent as, if it is sent. -/
theorem built_frame {data secondaryData : Bytes} {p : Packet}
    (h : s.built (.frame data secondaryData) = some p) :
    s.stopping = false ∧ s.receivedInitAck = true ∧ p.seq = s.frameNumber ∧
      p.extraEC = if secondaryData ≠ [] ∧ s.shittyInternetMode = true then
        s.extraEC s.packetManager s.packetManager.seq else Entries.none := by
  change (s.sendFrame data secondaryData).2.map (·.packet) = some p at h
  unfold sendFrame at h
  split at h
  · cases h
  · rename_i hready
    simp only [Bool.or_eq_true, Bool.not_eq_true', not_or, Bool.not_eq_true, Bool.not_eq_false]
      at hready
    have hp : (s.audioPacket _).packet = p := Option.some.inj h
    rw [packet_audioPacket] at hp
    obtain ⟨hseq, hextra, -⟩ := s.framePacket_eq data (if secondaryData.isEmpty then none else
      some secondaryData)
    refine ⟨hready.1, hready.2, hp ▸ hseq, ?_⟩
    rw [← hp, hextra]
    cases secondaryData <;> simp

/-- What a frame leaves behind, if it is sent. -/
theorem step_frame (s : AudioPacketSender) (data secondaryData : Bytes) :
    s.step (.frame data secondaryData) = s ∨
      ∃ secondary, (s.step (.frame data secondaryData)).packetManager.seq = s.frameNumber + 1 ∧
        (s.step (.frame data secondaryData)).ecAudioPackets =
          Option.elim secondary s.ecAudioPackets (keep s.ecAudioPackets) ∧
        (s.step (.frame data secondaryData)).sent = { seq := s.frameNumber, secondary } :: s.sent := by
  rw [show s.step (.frame data secondaryData) = (s.sendFrame data secondaryData).1 from rfl]
  unfold sendFrame
  split
  · exact .inl rfl
  · obtain ⟨hseq, -, hnext⟩ := s.framePacket_eq data (if secondaryData.isEmpty then none else
      some secondaryData)
    exact .inr ⟨_, hnext, rfl, by rw [← hseq]⟩

theorem drawn_eq_of_seq {s' : AudioPacketSender} (hseq : s.packetManager.seq ≠ 0)
    (hnext : s'.packetManager.seq = s.packetManager.seq + 1) : s'.drawn = s.drawn + 1 := by
  have hlt := s.packetManager.seq.toNat_lt
  have hsucc : (s.packetManager.seq + 1).toNat = (s.packetManager.seq.toNat + 1) % 2 ^ 32 := by simp
  rw [drawn, drawn, hnext, if_neg hseq]
  by_cases hwrap : s.packetManager.seq + 1 = 0
  · rw [if_pos hwrap]
    have hzero := congrArg UInt32.toNat hwrap
    rw [hsucc, UInt32.toNat_zero] at hzero
    omega
  · rw [if_neg hwrap, hsucc]
    have hne : (s.packetManager.seq + 1).toNat ≠ 0 := fun h => hwrap (UInt32.toNat_inj.mp h)
    rw [hsucc] at hne
    omega

theorem Aligned.frame (h : s.Aligned) (data secondaryData : Bytes) :
    (s.step (.frame data secondaryData)).Aligned := by
  rcases s.step_frame data secondaryData with hsame | ⟨secondary, hnext, hkept, hsent⟩
  · rw [hsame]
    exact h
  · refine ⟨?_, ?_⟩
    · rw [hkept, hsent, h.kept]
      cases secondary with
      | none => rfl
      | some x => exact keep_eq _ x
    · intro k hk hlt
      rw [hsent, hnext]
      by_cases hone : k = 1
      · subst hone
        exact ⟨_, rfl, by simp⟩
      · by_cases hzero : s.packetManager.seq = 0
        · -- the numbering has just begun again
          have hdrawn : (s.step (.frame data secondaryData)).drawn = 2 := by
            rw [drawn, hnext, frameNumber, if_pos hzero]
            rfl
          omega
        · have hnumber : s.frameNumber = s.packetManager.seq := if_neg hzero
          rw [hnumber] at hnext ⊢
          have hdrawn := drawn_eq_of_seq hzero hnext
          obtain ⟨f, hf, hseq⟩ := h.numbered (k - 1) (by omega) (by omega)
          refine ⟨f, ?_, ?_⟩
          · rw [show k - 1 = (k - 1 - 1) + 1 by omega, List.getElem?_cons_succ]
            exact hf
          · rw [hseq, ← UInt32.toNat_inj]
            simp [UInt32.toNat_sub]
            omega

/-! ## Along a run -/

theorem Aligned.step (h : s.Aligned) (e : AudioEvent) : (s.step e).Aligned := by
  cases e with
  | frame data secondaryData => exact h.frame data secondaryData
  | ackRemoteSeq seq =>
      have hseq : (s.step (.ackRemoteSeq seq)).packetManager.seq = s.packetManager.seq := by
        obtain ⟨head, mask, hwindow⟩ := s.packetManager.ackRemoteSeq_window seq
        show (s.packetManager.ackRemoteSeq seq).2.seq = _
        rw [hwindow]
      refine ⟨h.kept, fun k hk hlt => ?_⟩
      rw [drawn, hseq] at hlt
      rw [hseq]
      exact h.numbered k hk hlt
  | _ => exact ⟨h.kept, h.numbered⟩

theorem mem_jitterInputs {p : Packet} {x : JitterInput} (h : x ∈ p.jitterInputs)
    (hec : x.isEC = true) :
    ∃ i, p.extraEC i = some x.data ∧ x.timestamp = p.seq - 1 - UInt32.ofNat (8 - i) := by
  rcases List.mem_cons.mp h with rfl | h
  · cases hec
  · obtain ⟨i, hi, rfl⟩ := List.mem_map.mp h
    have hhas := (List.mem_filter.mp hi).2
    cases hentry : p.extraEC i with
    | none => simp [Entries.has, hentry] at hhas
    | some data => exact ⟨i, by simp [hentry], rfl⟩

/-- What goes along at a distance, and why. -/
theorem extraEC_eq_some {i : Fin 8} {data : Bytes}
    (h : s.extraEC s.packetManager s.packetManager.seq i = some data) :
    8 - i.val ≤ (s.maxEC s.packetManager.seq).toNat ∧
      s.packetManager.wasLocalAcked (s.packetManager.seq - UInt32.ofNat (8 - i.val)) = false ∧
      s.ecAudioPackets[s.ecAudioPackets.length - (8 - i.val)]? = some data := by
  unfold extraEC at h
  dsimp only at h
  split at h
  · rename_i hcond
    simp only [Bool.and_eq_true, decide_eq_true_eq, Bool.not_eq_true'] at hcond
    exact ⟨hcond.1, hcond.2, h⟩
  · cases h

theorem maxEC_le (s : AudioPacketSender) {seq : UInt32} (hseq : seq ≠ 0) :
    (s.maxEC seq).toNat ≤ s.ecAudioPackets.length ∧ (s.maxEC seq).toNat < seq.toNat := by
  have hlen : (UInt8.ofNat s.ecAudioPackets.length).toNat ≤ s.ecAudioPackets.length := by
    rw [UInt8.toNat_ofNat']
    exact Nat.mod_le _ _
  have hpos : seq.toNat ≠ 0 := fun h => hseq (UInt32.toNat_inj.mp h)
  have hpred : (seq - 1).toUInt8.toNat < seq.toNat := by
    have hlt := seq.toNat_lt
    have hone : (1 : UInt32).toNat = 1 := rfl
    rw [UInt32.toNat_toUInt8, UInt32.toNat_sub, hone]
    omega
  rw [maxEC, UInt8.toNat_min, UInt8.toNat_min]
  omega

/-- What goes along at a distance is the second encoding of the frame so many
numbers before. -/
theorem Aligned.frame_at (h : s.Aligned) {i : Fin 8} {data : Bytes}
    (hextra : s.extraEC s.packetManager s.packetManager.seq i = some data)
    (hseq : s.packetManager.seq ≠ 0)
    (hcarried : ∀ f ∈ s.sent.take (8 - i.val), f.secondary.isSome = true) :
    ∃ f, s.sent[8 - i.val - 1]? = some f ∧ f.secondary = some data ∧
      8 - i.val < s.drawn := by
  obtain ⟨hle, -, hdata⟩ := extraEC_eq_some hextra
  obtain ⟨hlen, hlt⟩ := s.maxEC_le hseq
  have hdrawn : s.drawn = s.packetManager.seq.toNat := if_neg hseq
  obtain ⟨f, hf, -⟩ := h.numbered (8 - i.val) (by omega) (by omega)
  refine ⟨f, hf, ?_, by omega⟩
  have hlast : ((s.sent.filterMap (·.secondary)).take 8)[8 - i.val - 1]? = some data := by
    rw [h.kept, List.length_reverse] at hdata hlen
    rw [List.getElem?_reverse (by omega)] at hdata
    rw [← hdata]
    congr 1
    omega
  rw [List.getElem?_take_of_lt (by omega), getElem?_filterMap_of_take] at hlast
  · rw [hf] at hlast
    exact hlast
  · rw [show 8 - i.val - 1 + 1 = 8 - i.val by omega]
    exact hcarried

/-- The frame last sent with a number is the one so far back. -/
theorem Aligned.find?_eq (h : s.Aligned) {d : ℕ} {f : SentFrame} (hf : s.sent[d - 1]? = some f)
    (hpos : 1 ≤ d) (hd : d ≤ 8) (hlt : d < s.drawn) :
    s.sent.find? (fun f => f.seq - 1 == s.packetManager.seq - 1 - UInt32.ofNat d) = some f := by
  have hseq : ∀ k, 1 ≤ k → k ≤ d → ∀ g, s.sent[k - 1]? = some g →
      g.seq - 1 = s.packetManager.seq - 1 - UInt32.ofNat k := by
    intro k hk hkd g hg
    obtain ⟨g', hg', hseq⟩ := h.numbered k hk (by omega)
    obtain rfl := Option.some.inj (hg'.symm.trans hg)
    rw [hseq]
    grind
  obtain ⟨hidx, hget⟩ := List.getElem?_eq_some_iff.mp hf
  rw [List.find?_eq_some_iff_getElem]
  refine ⟨by simp [hseq d hpos (le_refl d) f hf], d - 1, hidx, hget, ?_⟩
  intro j hj
  have hsooner := hseq (j + 1) (by omega) (by omega) s.sent[j] (List.getElem?_eq_getElem (by omega))
  simp only [hsooner, Bool.not_eq_true', beq_eq_false_iff_ne, ne_eq]
  intro heq
  have hof : UInt32.ofNat (j + 1) = UInt32.ofNat d := by grind
  have hnat := congrArg UInt32.toNat hof
  simp only [UInt32.toNat_ofNat'] at hnat
  omega

theorem Aligned.filedRight (h : s.Aligned) (hall : AllCarried s e) : FiledRight s e := by
  intro p hp x hx hec
  cases e with
  | frame data secondaryData =>
      obtain ⟨i, hextra, htime⟩ := mem_jitterInputs hx hec
      obtain ⟨hstop, hack, hnumber, hredundancy⟩ := built_frame hp
      rw [hredundancy] at hextra
      split at hextra
      · rename_i hmode
        obtain ⟨hle, hacked, -⟩ := extraEC_eq_some hextra
        obtain ⟨hseq, hcarried⟩ := hall hmode.1 hstop hack hmode.2 (8 - i.val) hle hacked (by omega)
        obtain ⟨f, hf, hsecondary, hlt⟩ := h.frame_at hextra hseq hcarried
        rw [htime, hnumber, show s.frameNumber = s.packetManager.seq from if_neg hseq,
          h.find?_eq hf (by omega) (by omega) hlt]
        exact hsecondary
      · cases hextra
  | _ => cases hp

/-- **Redundant audio is filed under the right frame** in every run in which
whatever goes along belongs to the frame its position stands for. -/
theorem filed_right {events : List AudioEvent} (hs : s.Started)
    (hrun : Along step AllCarried s events) : Along step FiledRight s events :=
  hrun.strengthen (I := Aligned) (fun _ e h _ => h.step e) (fun _ _ h hall => h.filedRight hall)
    hs.aligned

/-! ## On fixed inputs -/

/-- A sender that adds redundancy, before its first frame. -/
def sample : AudioPacketSender where
  packetManager := PacketManager.new StreamId.audio 0
  shittyInternetMode := true
  extraEcLevel := 4
  receivedInitAck := true

theorem filed_right_two : Along step FiledRight sample [.frame [1] [11], .frame [2] [22]] :=
  filed_right ⟨rfl, rfl, rfl⟩ (by decide +kernel)

/-- The second frame has no second encoding: the one of the first is filed
under it. -/
theorem filed_right_fails : ¬ ∀ (s : AudioPacketSender) (events : List AudioEvent), s.Started →
    Along step FiledRight s events := by
  intro h
  have hrun := h sample [.frame [1] [11], .frame [2] [], .frame [3] [33]] ⟨rfl, rfl, rfl⟩
  revert hrun
  decide +kernel

end AudioPacketSender

end Tgvoip
