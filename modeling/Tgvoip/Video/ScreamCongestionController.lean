import Mathlib.Data.Rat.Floor
import Tgvoip.Lib.RecentPeak
import Tgvoip.Packets.PacketManager
import Tgvoip.Tools.HistoricBuffer

/-!
# ScreamCongestionController — the video packets on their way

`video/ScreamCongestionController.{h,cpp}`. The controller counts the bytes
that were sent and neither acknowledged nor lost, remembers the counts of
the last five seconds, and derives a congestion window and a target bitrate
from them and from the measured delays. Floats are exact rationals here; the
square root and the readings of the clock are parameters.

The history is what `RecentPeak` calls the recent entries, and the greatest
count their peak, as long as the clock does not go back.
-/

namespace Tgvoip

open RecentPeak

namespace Scream

def qdelayTargetLo : ℚ := 1 / 10
def qdelayTargetHi : ℚ := 4 / 10
def qdelayWeight : ℚ := 1 / 10
def qdelayTrendTh : ℚ := 2 / 10
def minCwnd : UInt32 := 3000
def maxBytesInFlightHeadRoom : ℚ := 11 / 10
def gain : ℚ := 1
def betaLoss : ℚ := 9 / 10
def betaR : ℚ := 9 / 10
def mss : UInt32 := 1024
def rateAdjustInterval : ℚ := 2 / 10
def targetBitrateMin : UInt32 := 50 * 1024
def targetBitrateMax : UInt32 := 500 * 1024
def rampUpSpeed : UInt32 := 1024 * 1024
def preCongestionGuard : ℚ := 1 / 10
def txQueueSizeFactor : ℚ := 1
def rtpQdelayTh : ℚ := 2 / 100
def targetRateScaleRtpQdelay : ℚ := 95 / 100
def qdelayTrendLo : ℚ := 2 / 10
def resumeFastIncrease : ℚ := 5

/-- A number as a float. -/
def float (n : UInt32) : ℚ := n.toNat

/-- The cast of a float; one that is negative or too big has no meaning in
the source. -/
def castUInt32 (x : ℚ) : UInt32 := UInt32.ofNat ⌊x⌋.toNat

end Scream

/-- `ScreamCongestionController::ValueSample`. -/
structure ValueSample where
  sample : UInt32
  time : Time
  deriving DecidableEq, Repr

/-- The fields that count bytes in flight. -/
structure Flight where
  bytesInFlight : UInt32 := 0
  rtpQueueSize : UInt32 := 0
  bytesInFlightHistory : List ValueSample := []
  maxBytesInFlight : UInt32 := 0
  deriving DecidableEq, Repr

/-- Without what only `UpdateMediaRate` and `GetPacingInterval` use. -/
structure ScreamCongestionController extends Flight where
  qdelayTarget : ℚ := Scream.qdelayTargetLo
  qdelayFractionAvg : ℚ := 0
  qdelayFractionHist : HistoricBuffer ℚ 20 := .new
  qdelayTrend : ℚ := 0
  qdelayTrendMem : ℚ := 0
  qdelayNormHist : HistoricBuffer ℚ 100 := .new
  inFastIncrease : Bool := true
  cwnd : UInt32 := Scream.minCwnd
  bytesNewlyAcked : UInt32 := 0
  sendWnd : UInt32 := 0
  targetBitrate : UInt32 := 0
  targetBitrateLastMax : UInt32 := 1
  rateTransmit : ℚ := 0
  rateAck : ℚ := 0
  rateMedia : ℚ := 0
  rateMediaMedian : ℚ := 0
  sRTT : ℚ := 0
  lossEventRate : ℚ := 0
  lossPending : Bool := false
  prevOneWayDelay : ℚ := 0
  ignoreLossesUntil : Time := 0
  prevLossCount : UInt32 := 0
  lastTimeQDelayTrendWasGreaterThanLo : Time := 0
  lastVariablesUpdateTime : Time := 0
  lastRateAdjustmentTime : Time := 0
  lastCWndUpdateTime : Time := 0
  bytesSent : UInt32 := 0
  bytesAcked : UInt32 := 0
  rateTransmitUpdateTime : Time := 0

/-- What one operation reads from `GetCurrentTime`: itself, in
`UpdateBytesInFlightHistory`, and in `UpdateVariables`. -/
structure ClockReadings where
  currentTime : Time
  historyTime : Time
  variablesTime : Time
  deriving DecidableEq, Repr

namespace Flight

/-- The loop over the history: what is left of it, and the greatest sample. -/
def forgetOld (currentTime : Time) : List ValueSample → UInt32 → List ValueSample × UInt32
  | [], max => ([], max)
  | i :: rest, max =>
      if currentTime - i.time ≥ 5 then forgetOld currentTime rest max
      else
        let (kept, greatest) :=
          forgetOld currentTime rest (if max < i.sample then i.sample else max)
        (i :: kept, greatest)

def updateBytesInFlightHistory (f : Flight) (currentTime : Time) : Flight :=
  let now : ValueSample := { sample := f.bytesInFlight, time := currentTime }
  let (kept, max) := forgetOld currentTime (f.bytesInFlightHistory ++ [now]) 0
  { f with bytesInFlightHistory := kept, maxBytesInFlight := max }

def add (f : Flight) (size : UInt32) : Flight :=
  { f with bytesInFlight := f.bytesInFlight + size, rtpQueueSize := f.rtpQueueSize + size * 8 }

def remove (f : Flight) (size : UInt32) : Flight :=
  { f with bytesInFlight := f.bytesInFlight - size, rtpQueueSize := f.rtpQueueSize - size * 8 }

end Flight

namespace ScreamCongestionController

open Scream

/-! ## Delays, window and bitrate -/

def updateVariables (c : ScreamCongestionController) (qdelay : ℚ) (currentTime : Time) :
    ScreamCongestionController :=
  let qdelayFraction := qdelay / c.qdelayTarget
  let qdelayFractionAvg := (1 - qdelayWeight) * c.qdelayFractionAvg + qdelayFraction * qdelayWeight
  let hist := c.qdelayFractionHist.add qdelayFraction
  let v (i : ℕ) : ℚ := hist.get i - hist.averageFloat
  let r0 := ((List.range 20).map fun i => v i * v i).sum
  let r1 := ((List.range 19).map fun i => v (i + 1) * v i).sum
  -- where `r0` is 0 the quotient is not a number, and `std::max` takes the 0
  let a := r1 / r0
  let qdelayTrend := min 1 (max 0 (a * qdelayFractionAvg))
  { c with
    qdelayFractionAvg
    qdelayFractionHist := hist
    qdelayTrend
    qdelayTrendMem := max (99 / 100 * c.qdelayTrendMem) qdelayTrend
    lastTimeQDelayTrendWasGreaterThanLo :=
      if qdelayTrend > qdelayTrendLo then currentTime else c.lastTimeQDelayTrendWasGreaterThanLo }

/-- `UpdateCWnd` behind the fast increase. -/
def updateCWndSlowly (c : ScreamCongestionController) (qdelay : ℚ) : ScreamCongestionController :=
  let offTarget := (c.qdelayTarget - qdelay) / c.qdelayTarget
  let cwndDelta :=
    if offTarget > 0 ∧
        float c.bytesInFlight * (5 / 4) + float c.bytesNewlyAcked ≤ float c.cwnd then 0
    else gain * offTarget * float c.bytesNewlyAcked * float mss / float c.cwnd
  let cwnd := castUInt32 (float c.cwnd + cwndDelta)
  let cwnd := min cwnd (castUInt32 (float c.maxBytesInFlight * maxBytesInFlightHeadRoom))
  { c with cwnd := max cwnd minCwnd }

def updateCWnd (c : ScreamCongestionController) (qdelay : ℚ) : ScreamCongestionController :=
  if c.inFastIncrease then
    if c.qdelayTrend ≥ qdelayTrendTh then updateCWndSlowly { c with inFastIncrease := false } qdelay
    else if float c.bytesInFlight * (3 / 2) + float c.bytesNewlyAcked > float c.cwnd then
      { c with cwnd := c.cwnd + c.bytesNewlyAcked }
    else c
  else c.updateCWndSlowly qdelay

def adjustQDelayTarget (sqrt : ℚ → ℚ) (c : ScreamCongestionController) (qdelay : ℚ) :
    ScreamCongestionController :=
  let hist := c.qdelayNormHist.add (qdelay / qdelayTargetLo)
  let avg := hist.averageFloat
  let qdelayNormVar :=
    ((List.range 100).map fun i => (hist.get i - avg) * (hist.get i - avg)).sum / 100
  let newTarget := (avg + sqrt qdelayNormVar) * qdelayTargetLo
  let target :=
    if c.lossEventRate > 2 / 1000 then 3 / 2 * newTarget
    else if qdelayNormVar < 2 / 10 then newTarget
    else if newTarget < qdelayTargetLo then max (c.qdelayTarget * (1 / 2)) newTarget
    else c.qdelayTarget * (9 / 10)
  { c with
    qdelayNormHist := hist
    qdelayTarget := max qdelayTargetLo (min qdelayTargetHi target) }

/-- The new bitrate, before the limits. -/
def rampedBitrate (c : ScreamCongestionController) : UInt32 :=
  let rampUpSpeed := min rampUpSpeed (c.targetBitrate / 2)
  let scale := float (c.targetBitrate - c.targetBitrateLastMax) / float c.targetBitrateLastMax
  let scale := max (2 / 10) (min 1 ((scale * 4) * (scale * 4)))
  let currentRate := max c.rateTransmit c.rateAck
  if c.inFastIncrease then
    castUInt32 (float c.targetBitrate + float rampUpSpeed * rateAdjustInterval * scale)
  else
    let deltaRate := currentRate * (1 - preCongestionGuard * c.qdelayTrend) -
      txQueueSizeFactor * float c.rtpQueueSize
    let deltaRate :=
      if deltaRate > 0 then min (deltaRate * scale) (float rampUpSpeed * rateAdjustInterval)
      else deltaRate
    let targetBitrate := castUInt32 (float c.targetBitrate + deltaRate)
    -- the quotient of the source compared with `RTP_QDELAY_TH`; the rate may be 0
    if float c.rtpQueueSize > rtpQdelayTh * currentRate then
      castUInt32 (float targetBitrate * targetRateScaleRtpQdelay)
    else targetBitrate

def adjustBitrate (c : ScreamCongestionController) : ScreamCongestionController :=
  if c.lossPending then
    { c with
      lossPending := false
      targetBitrate := max (castUInt32 (betaR * float c.targetBitrate)) targetBitrateMin }
  else
    let rateMediaLimit := max (max c.rateTransmit c.rateAck) (max c.rateMedia c.rateMediaMedian) *
      (2 - c.qdelayTrendMem)
    let targetBitrate := min c.rampedBitrate (castUInt32 rateMediaLimit)
    { c with targetBitrate := min targetBitrateMax (max targetBitrateMin targetBitrate) }

def calculateSendWindow (c : ScreamCongestionController) (qdelay : ℚ) :
    ScreamCongestionController :=
  if qdelay ≤ c.qdelayTarget then { c with sendWnd := c.cwnd + mss - c.bytesInFlight }
  else { c with sendWnd := c.cwnd - c.bytesInFlight }

/-! ## The three operations -/

/-- `ProcessAcks` up to the first timer. -/
def takeAcked (c : ScreamCongestionController) (bytesNewlyAcked : UInt32) (rtt : ℚ)
    (historyTime : Time) : ScreamCongestionController :=
  { c with
    sRTT := rtt
    toFlight := (c.toFlight.remove bytesNewlyAcked).updateBytesInFlightHistory historyTime
    bytesAcked := c.bytesAcked + bytesNewlyAcked }

/-- The updates that `ProcessAcks` makes from time to time. -/
def timedUpdates (c : ScreamCongestionController) (qdelay : ℚ) (clock : ClockReadings) :
    ScreamCongestionController :=
  let c := if clock.currentTime - c.lastVariablesUpdateTime ≥ 5 / 100 then
      updateVariables { c with lastVariablesUpdateTime := clock.currentTime } qdelay
        clock.variablesTime
    else c
  if clock.currentTime - c.lastRateAdjustmentTime ≥ rateAdjustInterval then
    adjustBitrate { c with lastRateAdjustmentTime := clock.currentTime }
  else c

/-- `ProcessAcks` after a loss. -/
def onLoss (sqrt : ℚ → ℚ) (c : ScreamCongestionController) (qdelay rtt : ℚ) (currentTime : Time) :
    ScreamCongestionController :=
  let c := { c with
    ignoreLossesUntil := currentTime + rtt
    inFastIncrease := false
    cwnd := max minCwnd (castUInt32 (float c.cwnd * betaLoss)) }
  let c := calculateSendWindow (adjustQDelayTarget sqrt c qdelay) qdelay
  { c with lossPending := true, lastTimeQDelayTrendWasGreaterThanLo := currentTime }

/-- `ProcessAcks` without one. -/
def onNoLoss (sqrt : ℚ → ℚ) (c : ScreamCongestionController) (qdelay : ℚ)
    (bytesNewlyAcked : UInt32) (currentTime : Time) : ScreamCongestionController :=
  let c := { c with bytesNewlyAcked := c.bytesNewlyAcked + bytesNewlyAcked }
  let c := if currentTime - c.lastCWndUpdateTime ≥ 15 / 100 then
      { updateCWnd { c with lastCWndUpdateTime := currentTime } qdelay with bytesNewlyAcked := 0 }
    else c
  let c := calculateSendWindow (adjustQDelayTarget sqrt c qdelay) qdelay
  { c with
    inFastIncrease := c.inFastIncrease ||
      decide (currentTime - c.lastTimeQDelayTrendWasGreaterThanLo ≥ resumeFastIncrease) }

/-- The delays are compared, so the first one only serves as the last one of
the next call. -/
def processAcks (sqrt : ℚ → ℚ) (c : ScreamCongestionController) (oneWayDelay : ℚ)
    (bytesNewlyAcked lossCount : UInt32) (rtt : ℚ) (clock : ClockReadings) :
    ScreamCongestionController :=
  let c := if c.prevOneWayDelay ≠ 0 then
      let qdelay := oneWayDelay - c.prevOneWayDelay
      let c := (c.takeAcked bytesNewlyAcked rtt clock.historyTime).timedUpdates qdelay clock
      let c := if lossCount > c.prevLossCount ∧ clock.currentTime > c.ignoreLossesUntil then
          onLoss sqrt c qdelay rtt clock.currentTime
        else onNoLoss sqrt c qdelay bytesNewlyAcked clock.currentTime
      { c with prevLossCount := lossCount }
    else c
  { c with prevOneWayDelay := oneWayDelay }

def processPacketSent (c : ScreamCongestionController) (size : UInt32) (clock : ClockReadings) :
    ScreamCongestionController :=
  let c := { c with toFlight := c.toFlight.add size, bytesSent := c.bytesSent + size }
  let elapsed := clock.currentTime - c.rateTransmitUpdateTime
  let c := if elapsed ≥ 2 / 10 then
      { c with
        rateTransmit := float (c.bytesSent * 8) / elapsed
        rateAck := float (c.bytesAcked * 8) / elapsed
        rateTransmitUpdateTime := clock.currentTime
        bytesSent := 0
        bytesAcked := 0 }
    else c
  { c with toFlight := c.toFlight.updateBytesInFlightHistory clock.historyTime }

def processPacketLost (c : ScreamCongestionController) (size : UInt32) (clock : ClockReadings) :
    ScreamCongestionController :=
  { c with toFlight := (c.toFlight.remove size).updateBytesInFlightHistory clock.historyTime }

end ScreamCongestionController

/-! ## What the rate control leaves alone -/

namespace ScreamCongestionController

variable (c : ScreamCongestionController) (sqrt : ℚ → ℚ) (qdelay : ℚ)

@[simp] theorem updateVariables_toFlight (currentTime : Time) :
    (c.updateVariables qdelay currentTime).toFlight = c.toFlight := rfl

@[simp] theorem updateCWndSlowly_toFlight :
    (c.updateCWndSlowly qdelay).toFlight = c.toFlight := rfl

@[simp] theorem updateCWnd_toFlight : (c.updateCWnd qdelay).toFlight = c.toFlight := by
  unfold updateCWnd
  split_ifs <;> rfl

@[simp] theorem adjustQDelayTarget_toFlight :
    (adjustQDelayTarget sqrt c qdelay).toFlight = c.toFlight := by
  simp only [adjustQDelayTarget]

@[simp] theorem adjustBitrate_toFlight : c.adjustBitrate.toFlight = c.toFlight := by
  unfold adjustBitrate
  split_ifs <;> rfl

@[simp] theorem calculateSendWindow_toFlight :
    (c.calculateSendWindow qdelay).toFlight = c.toFlight := by
  unfold calculateSendWindow
  split_ifs <;> rfl

@[simp] theorem timedUpdates_toFlight (clock : ClockReadings) :
    (c.timedUpdates qdelay clock).toFlight = c.toFlight := by
  simp only [timedUpdates]
  split_ifs <;> simp

@[simp] theorem onLoss_toFlight (rtt : ℚ) (currentTime : Time) :
    (onLoss sqrt c qdelay rtt currentTime).toFlight = c.toFlight := by
  simp [onLoss]

@[simp] theorem onNoLoss_toFlight (bytesNewlyAcked : UInt32) (currentTime : Time) :
    (onNoLoss sqrt c qdelay bytesNewlyAcked currentTime).toFlight = c.toFlight := by
  simp only [onNoLoss]
  split_ifs <;> simp

theorem processAcks_toFlight (oneWayDelay : ℚ) (bytesNewlyAcked lossCount : UInt32) (rtt : ℚ)
    (clock : ClockReadings) :
    (processAcks sqrt c oneWayDelay bytesNewlyAcked lossCount rtt clock).toFlight =
      if c.prevOneWayDelay ≠ 0 then
        (c.toFlight.remove bytesNewlyAcked).updateBytesInFlightHistory clock.historyTime
      else c.toFlight := by
  simp only [processAcks]
  by_cases hprev : c.prevOneWayDelay ≠ 0
  · rw [if_pos hprev, if_pos hprev]
    split_ifs <;> simp [takeAcked]
  · rw [if_neg hprev, if_neg hprev]

theorem processPacketSent_toFlight (size : UInt32) (clock : ClockReadings) :
    (c.processPacketSent size clock).toFlight =
      (c.toFlight.add size).updateBytesInFlightHistory clock.historyTime := by
  simp only [processPacketSent]
  split_ifs <;> rfl

theorem processPacketLost_toFlight (size : UInt32) (clock : ClockReadings) :
    (c.processPacketLost size clock).toFlight =
      (c.toFlight.remove size).updateBytesInFlightHistory clock.historyTime := rfl

end ScreamCongestionController

/-! ## The history -/

namespace Flight

def sampleValue (v : ValueSample) : ℕ := v.sample.toNat

/-- The loop keeps the recent samples and finds their peak. -/
theorem forgetOld_spec (currentTime : Time) (history : List ValueSample) (m : UInt32) :
    (forgetOld currentTime history m).1 = recent ValueSample.time 5 currentTime history ∧
      (forgetOld currentTime history m).2.toNat =
        max m.toNat (peak sampleValue (recent ValueSample.time 5 currentTime history)) := by
  induction history generalizing m with
  | nil => exact ⟨rfl, (Nat.max_zero _).symm⟩
  | cons i rest ih =>
      rw [forgetOld, recent_cons]
      by_cases hold : currentTime - i.time ≥ 5
      · rw [if_pos hold, if_neg (not_lt.mpr hold)]
        exact ih m
      · obtain ⟨hkept, hmax⟩ := ih (if m < i.sample then i.sample else m)
        have hgreater : (if m < i.sample then i.sample else m).toNat =
            max m.toNat i.sample.toNat := by
          by_cases hlt : m < i.sample
          · rw [if_pos hlt]
            exact (max_eq_right (UInt32.lt_iff_toNat_lt.mp hlt).le).symm
          · rw [if_neg hlt]
            exact (max_eq_left (not_lt.mp (mt UInt32.lt_iff_toNat_lt.mpr hlt))).symm
        rw [if_neg hold, if_pos (not_le.mp hold), peak_cons]
        refine ⟨congrArg _ hkept, ?_⟩
        rw [← max_assoc]
        exact hmax.trans (congrArg (max · _) hgreater)

variable (f : Flight) (currentTime : Time)

@[simp] theorem update_bytesInFlight :
    (f.updateBytesInFlightHistory currentTime).bytesInFlight = f.bytesInFlight := rfl

@[simp] theorem update_rtpQueueSize :
    (f.updateBytesInFlightHistory currentTime).rtpQueueSize = f.rtpQueueSize := rfl

/-- The sample that is recorded. -/
def now : ValueSample := { sample := f.bytesInFlight, time := currentTime }

theorem update_history :
    (f.updateBytesInFlightHistory currentTime).bytesInFlightHistory =
      recent ValueSample.time 5 currentTime (f.bytesInFlightHistory ++ [f.now currentTime]) :=
  (forgetOld_spec currentTime _ 0).1

theorem update_maxBytesInFlight :
    (f.updateBytesInFlightHistory currentTime).maxBytesInFlight.toNat =
      peak sampleValue (f.updateBytesInFlightHistory currentTime).bytesInFlightHistory := by
  rw [update_history]
  exact ((forgetOld_spec currentTime _ 0).2).trans (Nat.zero_max _)

end Flight

end Tgvoip
