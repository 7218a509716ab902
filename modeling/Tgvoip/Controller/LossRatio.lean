import Mathlib.Algebra.Order.Ring.Rat
import Mathlib.Data.Rat.Floor
import Mathlib.Tactic.Linarith
import Mathlib.Tactic.Positivity
import Tgvoip.Audio.AudioPacketSender
import Tgvoip.Controller.AudioBitrate
import Tgvoip.Controller.LossAccounts
import Tgvoip.Controller.MessageThread
import Tgvoip.Lib.Odometer
import Tgvoip.Net.CongestionControl

/-!
# LossRatio — the losses UpdateCongestion reckons with

Once a second `UpdateCongestion` (`Tick.cpp`) divides the losses of the
last ten seconds by the packets. The losses are those of the congestion
control, of packets of all streams and of any age; the packets are the
steps of one stream's last seq, which stands still in silence and goes
back when a packet is sent again. `sum_history` says what ten differences
of a counter add up to, `ratio_iff` when the quotient is a ratio.
-/

namespace Tgvoip

open ByteReader Fallible Odometer

namespace CongestionControl

/-- A call, with what its reads of the clock give. -/
def call (c : CongestionControl) (now : Fin 100 → Time) : ConctlCall → CongestionControl
  | .packetSent pkt size => c.packetSent pkt (UInt64.ofNat size) (now 0)
  | .packetAcknowledged pkt => c.packetAcknowledged pkt (now 0)
  | .packetLost pkt => c.packetLost pkt
  | .tick => c.tick now

/-- The calls of one step; each reads the clock by itself. -/
def calls (c : CongestionControl) (clock : ℕ → Fin 100 → Time) (told : List ConctlCall) :
    CongestionControl :=
  told.zipIdx.foldl (fun c x => c.call (clock x.2) x.1) c

end CongestionControl

/-! ## The quotient -/

/-- What the division of two doubles comes to, neither of which is negative. -/
inductive LossRatio where
  | finite (q : ℚ)
  | infinite
  | nan
  deriving DecidableEq, Repr

namespace LossRatio

def divide (a b : ℚ) : LossRatio :=
  if b = 0 then if a = 0 then .nan else .infinite else .finite (a / b)

/-- `* 100.0`. -/
def percent : LossRatio → LossRatio
  | .finite q => .finite (q * 100)
  | .infinite => .infinite
  | .nan => .nan

def above (threshold : ℚ) : LossRatio → Bool
  | .finite q => q > threshold
  | .infinite => true
  | .nan => false

def below (threshold : ℚ) : LossRatio → Bool
  | .finite q => q < threshold
  | _ => false

/-- `(int)`, which is not defined for what an `int` does not hold. -/
def toInt : LossRatio → Option ℤ
  | .finite q => if q.floor < 2 ^ 31 then some q.floor else none
  | _ => none

/-- The argument of `setExtraEcLevel`. -/
def extraEcLevel (avgSendLossCount : LossRatio) : UInt8 :=
  if avgSendLossCount.above (8 / 100) then 4
  else if avgSendLossCount.above (5 / 100) then 3
  else if avgSendLossCount.above (2 / 100) then 2
  else 0

end LossRatio

/-! ## What is set by it -/

/-- What `UpdateCongestion` sets of the sender of audio packets. -/
structure SenderSettings where
  shittyInternetMode : Bool := false
  extraEcLevel : UInt8 := 0
  packetLoss : LossRatio := .finite 0
  resendCount : ℚ := 1

/-- `AudioPacketSender::setPacketLoss`, for every double. -/
def SenderSettings.setPacketLoss (s : SenderSettings) (percent : LossRatio) : SenderSettings :=
  let resendCount : ℚ := match percent with
    | .finite q => if q > 2 then max 0 (min (q / 2) 2) else 1
    | .infinite => 2
    | .nan => 1
  { s with packetLoss := percent, resendCount := resendCount + 1 }

/-- What it sets and reads of the encoder. -/
structure EncoderSettings where
  /-- `none` where it is not defined, as at first. -/
  packetLossPercent : Option ℤ := none
  secondaryEncoderEnabled : Bool := false
  complexity : ℕ := 10

def EncoderSettings.setPacketLoss (e : EncoderSettings) (percent : Option ℤ) : EncoderSettings :=
  { e with packetLossPercent := percent.map (min 20) }

/-- A network for which `UpdateCongestion` does without extra error correction. -/
def NetworkType.isSlow (networkType : NetworkType) : Bool :=
  networkType == .gprs || networkType == .edge

/-- `extraECEnabled` of a stream is set, and the peer told. -/
def Controller.setExtraEC (c : Controller) (i : ℕ) (enabled : Bool) : Controller :=
  let c := { c with
    outgoingStreams := c.outgoingStreams.modify i fun s => { s with extraECEnabled := enabled } }
  match c.outgoingStreams[i]? with
  | none => c
  | some s => c.sendStreamFlags s

/-! ## UpdateCongestion -/

theorem neZero_calls : NeZero 10 := ⟨by decide⟩

def noCalls : HistoricBuffer UInt32 10 := @HistoricBuffer.new _ _ _ neZero_calls

structure LossControl where
  t : MessageThread
  conctl : CongestionControl := {}
  encoder : Option EncoderSettings := none
  sender : SenderSettings := {}
  packetLossToEnableExtraEC : ℚ := 2 / 100
  rateMaxAcceptableSendLoss : ℚ := 2 / 10
  sendLossCountHistory : HistoricBuffer UInt32 10 := noCalls
  packetCountHistory : HistoricBuffer UInt32 10 := noCalls
  prevSendLossCount : UInt32 := 0
  prevSeq : UInt32 := 1
  wasExtraEC : Bool := false
  wasEncoderLaggy : Bool := false
  /-- History: the loss counts the calls so far read, the last one first, and the first
  `prevSendLossCount`. -/
  lossReadings : List UInt32 := [0]
  /-- History: the last sent seqs they read, and the first `prevSeq`. -/
  seqReadings : List UInt32 := [1]

inductive LossControlEvent where
  /-- `clock` is what the congestion control reads in each call of it. -/
  | thread (e : Time × ThreadEvent) (clock : ℕ → Fin 100 → Time)
  /-- `TickJitterBufferAndCongestionControl`. -/
  | tick (now : Time) (clock : ℕ → Fin 100 → Time)
  /-- The encoder is made, or changes. -/
  | setEncoder (encoder : Option EncoderSettings)
  | updateCongestion (networkType : NetworkType)

namespace LossControl

/-- The differences that `UpdateCongestion` adds. -/
def count (s : LossControl) (lastSentSeq : UInt32) : LossControl :=
  { s with
    sendLossCountHistory := s.sendLossCountHistory.add (s.conctl.lossCount - s.prevSendLossCount)
    prevSendLossCount := s.conctl.lossCount
    packetCountHistory := s.packetCountHistory.add (lastSentSeq - s.prevSeq)
    prevSeq := lastSentSeq
    lossReadings := s.conctl.lossCount :: s.lossReadings
    seqReadings := lastSentSeq :: s.seqReadings }

def avgSendLossCount (s : LossControl) : LossRatio :=
  .divide s.sendLossCountHistory.averageAll s.packetCountHistory.averageAll

/-- Shitty Internet Mode on, for the audio stream at `i`. -/
def enableExtraEC (s : LossControl) (i : ℕ) : LossControl :=
  let c := s.t.c.setExtraEC i true
  { s with
    t := { s.t with
      c := { c with needRate := c.needRate || c.wantsRate NeedRateFlag.shittyInternetMode } }
    sender := { s.sender with shittyInternetMode := true }
    encoder := s.encoder.map fun e => { e with secondaryEncoderEnabled := true }
    wasExtraEC := true }

/-- And off. -/
def disableExtraEC (s : LossControl) (i : ℕ) : LossControl :=
  { s with
    t := { s.t with c := s.t.c.setExtraEC i false }
    sender := { s.sender with shittyInternetMode := false }
    encoder := s.encoder.map fun e => { e with secondaryEncoderEnabled := false } }

/-- What `UpdateCongestion` does with the quotient. -/
def adapt (s : LossControl) (avgSendLossCount : LossRatio) (networkType : NetworkType) (i : ℕ) :
    LossControl :=
  let s : LossControl := { s with sender := s.sender.setPacketLoss avgSendLossCount.percent }
  let s : LossControl :=
    if avgSendLossCount.above s.packetLossToEnableExtraEC && !networkType.isSlow &&
      !s.sender.shittyInternetMode then s.enableExtraEC i else s
  let c := s.t.c
  let s : LossControl := { s with
    sender := { s.sender with extraEcLevel := avgSendLossCount.extraEcLevel }
    encoder := s.encoder.map (·.setPacketLoss avgSendLossCount.percent.toInt)
    t := { s.t with c := { c with
      needRate := c.needRate || avgSendLossCount.above s.rateMaxAcceptableSendLoss } } }
  let s : LossControl :=
    if (avgSendLossCount.below s.packetLossToEnableExtraEC || networkType.isSlow) &&
      s.sender.shittyInternetMode then s.disableExtraEC i else s
  { s with wasEncoderLaggy := s.wasEncoderLaggy || s.encoder.any (·.complexity < 10) }

def updateCongestion (s : LossControl) (networkType : NetworkType) : Except Fault LossControl :=
  match s.encoder with
  | none => pure s
  | some _ => do
    let best ← s.t.c.outgoingStream s.t.c.bestStream
    let s := s.count best.packetManager.lastSentSeq
    match s.t.c.outgoingStreams.findIdx? (·.type == StreamType.audio) with
    | none => .error .noSender
    | some i =>
      let stream ← s.t.c.outgoingStream i
      if stream.hasSender then pure (s.adapt s.avgSendLossCount networkType i)
      else .error .noSender

/-- The congestion control is told what the step adds to its calls. -/
def proceed (s : LossControl) (t : MessageThread) (clock : ℕ → Fin 100 → Time) : LossControl :=
  { s with t, conctl := s.conctl.calls clock (t.c.conctlCalls.drop s.t.c.conctlCalls.length) }

def step (env : Platform) (s : LossControl) : LossControlEvent → Except Fault LossControl
  | .thread e clock => do
    let t ← s.t.step env e
    pure (s.proceed t clock)
  | .tick now clock => do
    let c ← s.t.c.tickCongestionControl now
    pure (s.proceed { s.t with c } clock)
  | .setEncoder encoder => pure { s with encoder }
  | .updateCongestion networkType => s.updateCongestion networkType

/-- The loss count now and at the last ten calls, as numbers. -/
def losses (s : LossControl) : List ℕ :=
  ((s.conctl.lossCount :: s.lossReadings).take 11).map (·.toNat)

/-- The last sent seq now and at the last ten calls. -/
def seqs (s : LossControl) : List ℕ :=
  ((s.t.c.lastSentSeq s.t.c.bestStream :: s.seqReadings).take 11).map (·.toNat)

/-- The histories that a call now divides by each other. -/
def counted (s : LossControl) : LossControl := s.count (s.t.c.lastSentSeq s.t.c.bestStream)

/-- The quotient of the averages, where the denominator is not zero. -/
def quotient (s : LossControl) : ℚ :=
  s.sendLossCountHistory.averageAll / s.packetCountHistory.averageAll

/-- **The quotient is a ratio**: the denominator is not zero, the quotient lies between
0 and 1, and what is handed on between 0 and 100. -/
structure Divides (s : LossControl) (networkType : NetworkType) : Prop where
  denominator : s.counted.packetCountHistory.averageAll ≠ 0
  quotient : 0 ≤ s.counted.quotient ∧ s.counted.quotient ≤ 1
  handed : ∀ s', s.updateCongestion networkType = .ok s' → ∃ percent : ℚ,
    0 ≤ percent ∧ percent ≤ 100 ∧ s'.sender.packetLoss = .finite percent ∧
      s'.encoder.map (·.packetLossPercent) = some (some (min 20 percent.floor))

/-- Every call with an encoder gets a ratio. -/
def RatioRight (s : LossControl) : LossControlEvent → Prop
  | .updateCongestion networkType => s.encoder.isSome = true → s.Divides networkType
  | _ => True

/-- Over the last ten calls the seqs advanced, and the losses by no more. -/
def Covered (s : LossControl) : LossControlEvent → Prop
  | .updateCongestion _ => s.encoder.isSome = true →
      0 < advance (2 ^ 32) s.seqs ∧ advance (2 ^ 32) s.losses ≤ advance (2 ^ 32) s.seqs
  | _ => True

instance (s : LossControl) : ∀ e : LossControlEvent, Decidable (s.Covered e)
  | .updateCongestion _ => inferInstanceAs (Decidable (_ → _ ∧ _))
  | .thread _ _ => .isTrue trivial
  | .tick _ _ => .isTrue trivial
  | .setEncoder _ => .isTrue trivial

/-- Before the first call. -/
structure Starts (s : LossControl) : Prop where
  sendLossCountHistory : s.sendLossCountHistory = noCalls
  packetCountHistory : s.packetCountHistory = noCalls
  prevSendLossCount : s.prevSendLossCount = 0
  prevSeq : s.prevSeq = 1
  lossReadings : s.lossReadings = [0]
  seqReadings : s.seqReadings = [1]

/-! ## Ten differences -/

end LossControl

namespace HistoricBuffer

variable {size : ℕ} {b : HistoricBuffer UInt32 size} {prev : UInt32} {readings : List UInt32}

/-- The differences between neighbours; the last reading comes first. -/
def differences : List UInt32 → List UInt32
  | b :: a :: readings => (b - a) :: differences (a :: readings)
  | _ => []

theorem toNat_differences (readings : List UInt32) :
    (differences readings).map (·.toNat) = dists (2 ^ 32) (readings.map (·.toNat)) := by
  induction readings with
  | nil => rfl
  | cons b readings ih =>
      cases readings with
      | nil => rfl
      | cons a readings =>
          rw [differences, List.map_cons, ih, UInt32.toNat_sub]
          rfl

/-- A counter that was read before, and the history of its differences. -/
structure Reads (b : HistoricBuffer UInt32 size) (prev : UInt32) (readings : List UInt32) :
    Prop where
  history : b.Holds (differences readings)
  last : ∃ older, readings = prev :: older

theorem Reads.add (hb : b.Reads prev readings) (counter : UInt32) :
    (b.add (counter - prev)).Reads counter (counter :: readings) where
  history := by
    obtain ⟨older, rfl⟩ := hb.last
    exact hb.history.add (counter - prev)
  last := ⟨readings, rfl⟩

/-- **The sum of a history** is how far the counter came over the readings it covers. -/
theorem Reads.sum_history (hb : b.Reads prev readings) :
    ((b.slots.map UInt32.toNat).sum : ℤ) =
      advance (2 ^ 32) ((readings.take (size + 1)).map (·.toNat)) := by
  rw [hb.history.sum_slots UInt32.toNat_zero, List.map_take, List.map_take]
  have hdists := congrArg (List.take size) (toNat_differences readings)
  rw [take_dists] at hdists
  refine (congrArg (fun l : List ℕ => (l.sum : ℤ)) hdists).trans (sum_dists ?_)
  intro r hr
  obtain ⟨reading, -, rfl⟩ := List.mem_map.mp (List.mem_of_mem_take hr)
  exact reading.toNat_lt

end HistoricBuffer

namespace LossControl

variable {env : Platform} {s s' : LossControl} {e : LossControlEvent} {networkType : NetworkType}

/-- **The invariant**: both histories are those of the readings. -/
structure Follows (s : LossControl) : Prop where
  losses : s.sendLossCountHistory.Reads s.prevSendLossCount s.lossReadings
  seqs : s.packetCountHistory.Reads s.prevSeq s.seqReadings

theorem Starts.follows (hs : s.Starts) : s.Follows where
  losses := by
    rw [hs.sendLossCountHistory, hs.prevSendLossCount, hs.lossReadings]
    exact ⟨HistoricBuffer.holds_new, [], rfl⟩
  seqs := by
    rw [hs.packetCountHistory, hs.prevSeq, hs.seqReadings]
    exact ⟨HistoricBuffer.holds_new, [], rfl⟩

theorem Follows.count (hs : s.Follows) (lastSentSeq : UInt32) : (s.count lastSentSeq).Follows where
  losses := hs.losses.add s.conctl.lossCount
  seqs := hs.seqs.add lastSentSeq

/-- The quotient does not change what it was computed of. -/
theorem Follows.adapt (hs : s.Follows) (avgSendLossCount : LossRatio) (networkType : NetworkType)
    (i : ℕ) : (s.adapt avgSendLossCount networkType i).Follows := by
  unfold LossControl.adapt
  dsimp only
  split
  · split
    · exact ⟨hs.losses, hs.seqs⟩
    · exact ⟨hs.losses, hs.seqs⟩
  · split
    · exact ⟨hs.losses, hs.seqs⟩
    · exact ⟨hs.losses, hs.seqs⟩

theorem adapt_packetLoss (s : LossControl) (avgSendLossCount : LossRatio)
    (networkType : NetworkType) (i : ℕ) :
    (s.adapt avgSendLossCount networkType i).sender.packetLoss = avgSendLossCount.percent := by
  unfold adapt
  dsimp only
  split
  · split
    · rfl
    · rfl
  · split
    · rfl
    · rfl

theorem adapt_encoder (s : LossControl) (avgSendLossCount : LossRatio)
    (networkType : NetworkType) (i : ℕ) :
    (s.adapt avgSendLossCount networkType i).encoder.map (·.packetLossPercent) =
      s.encoder.map fun _ => avgSendLossCount.percent.toInt.map (min 20) := by
  unfold adapt
  dsimp only
  split
  · split
    · simp only [disableExtraEC, enableExtraEC, Option.map_map]
      rfl
    · simp only [enableExtraEC, Option.map_map]
      rfl
  · split
    · simp only [disableExtraEC, Option.map_map]
      rfl
    · simp only [Option.map_map]
      rfl

/-- A call without an encoder does nothing; with one it adapts to the histories. -/
theorem updateCongestion_ok (h : s.updateCongestion networkType = .ok s') :
    s.encoder = none ∧ s' = s ∨ s.encoder.isSome = true ∧
      ∃ i, s' = s.counted.adapt s.counted.avgSendLossCount networkType i := by
  unfold updateCongestion at h
  cases hencoder : s.encoder with
  | none =>
      rw [hencoder] at h
      exact .inl ⟨rfl, (pure_eq_ok.mp h).symm⟩
  | some encoder =>
      rw [hencoder] at h
      obtain ⟨best, hbest, h⟩ := bind_eq_ok.mp h
      rw [Controller.outgoingStream_eq_ok] at hbest
      have hcounted : s.count best.packetManager.lastSentSeq = s.counted := by
        rw [counted, Transport.lastSentSeq, hbest]
        rfl
      dsimp only at h
      rw [hcounted] at h
      split at h
      · cases h
      · rename_i i _
        obtain ⟨stream, -, h⟩ := bind_eq_ok.mp h
        split at h
        · exact .inr ⟨rfl, i, (pure_eq_ok.mp h).symm⟩
        · cases h

/-- **Every step keeps the histories in line with the readings.** -/
theorem Follows.step (hs : s.Follows) (h : s.step env e = .ok s') : s'.Follows := by
  cases e with
  | thread e clock =>
      obtain ⟨t, -, h⟩ := bind_eq_ok.mp h
      cases pure_eq_ok.mp h
      exact ⟨hs.losses, hs.seqs⟩
  | tick now clock =>
      obtain ⟨c, -, h⟩ := bind_eq_ok.mp h
      cases pure_eq_ok.mp h
      exact ⟨hs.losses, hs.seqs⟩
  | setEncoder encoder =>
      cases pure_eq_ok.mp h
      exact ⟨hs.losses, hs.seqs⟩
  | updateCongestion networkType =>
      rcases updateCongestion_ok h with ⟨-, rfl⟩ | ⟨-, i, rfl⟩
      · exact hs
      · exact (hs.count _).adapt _ networkType i

/-! ## The ratio -/

theorem average_ne_zero {sum : ℕ} : (sum : ℚ) / (10 : ℕ) ≠ 0 ↔ 0 < sum := by
  rw [div_ne_zero_iff, Nat.cast_ne_zero, Nat.pos_iff_ne_zero]
  exact and_iff_left (by norm_num)

/-- The averages of ten are as their sums. -/
theorem average_div {losses packets : ℕ} :
    (losses : ℚ) / (10 : ℕ) / ((packets : ℚ) / (10 : ℕ)) = (losses : ℚ) / packets :=
  div_div_div_cancel_right₀ (by norm_num) _ _

theorem Follows.sum_losses (hs : s.Follows) :
    ((s.counted.sendLossCountHistory.slots.map UInt32.toNat).sum : ℤ) = advance (2 ^ 32) s.losses :=
  (hs.count _).losses.sum_history

theorem Follows.sum_packets (hs : s.Follows) :
    ((s.counted.packetCountHistory.slots.map UInt32.toNat).sum : ℤ) = advance (2 ^ 32) s.seqs :=
  (hs.count _).seqs.sum_history

/-- A ratio is handed on as a percentage. -/
theorem handed_of_ratio {q : ℚ} (hs : s.encoder.isSome = true)
    (havg : s.counted.avgSendLossCount = .finite q) (hlow : 0 ≤ q) (hhigh : q ≤ 1)
    (h : s.updateCongestion networkType = .ok s') : ∃ percent : ℚ, 0 ≤ percent ∧ percent ≤ 100 ∧
      s'.sender.packetLoss = .finite percent ∧
      s'.encoder.map (·.packetLossPercent) = some (some (min 20 percent.floor)) := by
  rcases updateCongestion_ok h with ⟨hnone, -⟩ | ⟨-, i, rfl⟩
  · rw [hnone] at hs
    cases hs
  · have hle : q * 100 ≤ 100 := by linarith
    refine ⟨q * 100, by positivity, hle, ?_, ?_⟩
    · rw [adapt_packetLoss, havg]
      rfl
    · have hfloor : (q * 100).floor < 2 ^ 31 := by
        have hcast : ((q * 100).floor : ℚ) ≤ 100 := (Rat.floor_le _).trans hle
        have hint : (q * 100).floor ≤ 100 := by exact_mod_cast hcast
        omega
      obtain ⟨encoder, hencoder⟩ := Option.isSome_iff_exists.mp hs
      have hcounted : s.counted.encoder = some encoder := hencoder
      rw [adapt_encoder, hcounted, havg]
      show some ((if _ then _ else _ : Option ℤ).map _) = _
      rw [if_pos hfloor]
      rfl

/-- **When the quotient is a ratio.** -/
theorem Follows.divides_iff (hs : s.Follows) (hencoder : s.encoder.isSome = true) :
    s.Divides networkType ↔
      0 < advance (2 ^ 32) s.seqs ∧ advance (2 ^ 32) s.losses ≤ advance (2 ^ 32) s.seqs := by
  rw [← hs.sum_losses, ← hs.sum_packets, Nat.cast_pos, Nat.cast_le]
  -- the size of the histories cancels out
  have hdenominator : s.counted.packetCountHistory.averageAll ≠ 0 ↔
      0 < (s.counted.packetCountHistory.slots.map UInt32.toNat).sum := average_ne_zero
  have hquotient : s.counted.quotient =
      ((s.counted.sendLossCountHistory.slots.map UInt32.toNat).sum : ℚ) /
        (s.counted.packetCountHistory.slots.map UInt32.toNat).sum := average_div
  constructor
  · intro h
    have hpackets := hdenominator.mp h.denominator
    refine ⟨hpackets, ?_⟩
    have hratio := h.quotient.2
    rw [hquotient, div_le_one (by exact_mod_cast hpackets)] at hratio
    exact_mod_cast hratio
  · rintro ⟨hpackets, hle⟩
    have hlow : 0 ≤ s.counted.quotient := by
      rw [hquotient]
      positivity
    have hhigh : s.counted.quotient ≤ 1 := by
      rw [hquotient, div_le_one (by exact_mod_cast hpackets)]
      exact_mod_cast hle
    have hne := hdenominator.mpr hpackets
    have havg : s.counted.avgSendLossCount = .finite s.counted.quotient := if_neg hne
    exact ⟨hne, ⟨hlow, hhigh⟩, fun s' => handed_of_ratio hencoder havg hlow hhigh⟩

/-- **The send-loss ratio is a ratio** in just those runs in which, at each call of
`UpdateCongestion`, the seqs advanced over the last ten calls, and the losses by no
more. -/
theorem ratio_iff {events : List LossControlEvent} (hs : s.Starts) :
    AlongOk (step env) RatioRight s events ↔ AlongOk (step env) Covered s events := by
  apply alongOk_congr (I := Follows) ?_ (fun _ _ _ hs => hs.step) hs.follows
  intro s e hs
  cases e with
  | updateCongestion networkType => exact imp_congr_right fun hencoder => hs.divides_iff hencoder
  | _ => exact Iff.rfl

/-! ## On fixed inputs -/

/-- An established call with an encoder. -/
def sample : LossControl :=
  { t := { c := (Controller.sampleCall {}).establish }, encoder := some {} }

theorem sample_starts : sample.Starts := ⟨rfl, rfl, rfl, rfl, rfl, rfl⟩

/-- A frame is sent. -/
def speak (now : Time) : LossControlEvent :=
  .thread (now, .handler (.sendPacket { packet := { streamId := StreamId.audio } } 0 0 0))
    fun _ _ => now

/-- Three frames and a call; one of them is acknowledged, and the others are given up
after the next frame. -/
theorem ratio_iff_sample : AlongOk (step Controller.samplePlatform) RatioRight sample
    [speak 1, speak 1, speak 1, .updateCongestion .wifi,
      .thread (1, .handler (.packet { streamId := StreamId.audio, seq := 9, ackSeq := 3 } 1))
        fun _ _ => 1,
      speak 2, .tick 2 fun _ _ => 2, .updateCongestion .wifi] :=
  (ratio_iff sample_starts).mpr (by decide +kernel)

/-- Three frames and a call, then silence for ten calls: nothing was sent in the
last ten seconds, and the losses are divided by zero. -/
theorem ratio_fails :
    ¬ ∀ (env : Platform) (s : LossControl) (events : List LossControlEvent), s.Starts →
      AlongOk (step env) RatioRight s events := by
  intro h
  let before : List LossControlEvent :=
    [speak 1, speak 1, speak 1, .updateCongestion .wifi,
      .thread (2, .setMicMute true true) fun _ _ => 2] ++
      List.replicate 9 (.updateCongestion .wifi)
  have hrun :=
    h Controller.samplePlatform sample (before ++ [.updateCongestion .wifi]) sample_starts
  have hvalues : (before.foldlM (step Controller.samplePlatform) sample).map (fun s =>
      (s.encoder.isSome, s.counted.packetCountHistory.averageAll)) = .ok (true, 0) := by
    decide +kernel
  obtain ⟨s, hbefore, hvalue⟩ := exists_of_map_eq_ok hvalues
  obtain ⟨hencoder, hzero⟩ := Prod.mk.inj hvalue
  exact ((hrun.last hbefore) hencoder).denominator hzero

/-- More is lost than sent: the first frame was sent before the first call, and the
call does not count it. -/
example : ([speak 1, speak 1, speak 1, .updateCongestion .wifi, speak 2, .tick 5 fun _ _ => 5,
    .updateCongestion .wifi].foldlM (step Controller.samplePlatform) sample).map
      (·.sender.packetLoss) = .ok (.finite (400 / 3)) := by decide +kernel

end LossControl

end Tgvoip
