import Tgvoip.Net.JitterArray
import Tgvoip.Tools.HistoricBuffer

/-!
# JitterBuffer — audio packets wait until they are played

`controller/net/JitterBuffer.{h,cpp}`, `class JitterBuffer`. `HandleInput`
stores a packet under its timestamp, `HandleOutput` fetches what is stored
under `nextFetchTimestamp`, `Tick` adapts the delay. Each of them holds the
mutex, and is one event.

`nextFetchTimestamp` is an `int32_t` and the timestamps are `uint32_t`: the
source compares them, and passes one for the other, as `uint32_t`. The
doubles here are whole numbers or averages of such, but for the deviation of
the arrival times: what `Tick` makes of it is an argument. A double that is
out of the range of an `int32_t` is converted by `outOfRange`, any function.
The counters, `int` and `unsigned int` in the source, have no bound here: a
call moves each by 128 at most, so no run of fewer than 10⁷ calls tells the
difference.
-/

namespace Tgvoip

theorem neZero_history : NeZero 64 := ⟨by decide⟩

def noHistory : HistoricBuffer ℤ 64 := @HistoricBuffer.new ℤ 64 _ neZero_history

structure JitterBuffer (β : Type*) where
  slotsMain : JitterArray β := .new
  slotsEc : JitterArray β := .new
  nextFetchTimestamp : Int32 := 0
  minDelay : ℤ := 6
  minMinDelay : ℕ
  maxMinDelay : ℕ
  lastPutTimestamp : UInt32 := 0
  lossesToReset : ℕ
  resyncThreshold : ℚ
  lostCount : ℕ := 0
  lostSinceReset : ℕ := 0
  gotSinceReset : ℕ := 0
  wasReset : Bool := true
  needBuffering : Bool := true
  delayHistory : HistoricBuffer ℤ 64 := noHistory
  lateHistory : HistoricBuffer ℤ 64 := noHistory
  latePacketCount : ℕ := 0
  dontIncMinDelayFor : ℕ := 0
  dontDecMinDelayFor : ℕ := 0
  lostPackets : ℤ := 0
  outstandingDelayChange : ℤ := 0
  dontChangeDelayFor : ℕ := 0
  avgDelay : ℚ := 0
  first : Bool := true

/-- What the constructor asks of `ServerConfig`. -/
structure ServerConfig where
  getUInt : String → ℕ → ℕ
  getDouble : String → ℚ → ℚ

namespace JitterBuffer

variable {β : Type*} (s : JitterBuffer β)

def slots (isEC : Bool) : JitterArray β := if isEC then s.slotsEc else s.slotsMain

/-- The constructor, with the names that end in `_20`, `_40` or `_60`. -/
def new (config : ServerConfig) (step : ℕ) : JitterBuffer β :=
  let lossesToReset := config.getUInt "jitter_losses_to_reset" 20
  let resyncThreshold := config.getDouble "jitter_resync_threshold" 1
  if step < 30 then
    { minMinDelay := config.getUInt "jitter_min_delay_20" 6
      maxMinDelay := config.getUInt "jitter_max_delay_20" 25, lossesToReset, resyncThreshold }
  else if step < 50 then
    { minMinDelay := config.getUInt "jitter_min_delay_40" 4
      maxMinDelay := config.getUInt "jitter_max_delay_40" 15, lossesToReset, resyncThreshold }
  else
    { minMinDelay := config.getUInt "jitter_min_delay_60" 2
      maxMinDelay := config.getUInt "jitter_max_delay_60" 10, lossesToReset, resyncThreshold }

def setMinPacketCount (count : ℕ) : JitterBuffer β :=
  { s with minDelay := count, minMinDelay := count }

def getCurrentDelay : ℕ := max s.slotsEc.count s.slotsMain.count

/-- What is left of a `double` in an `int32_t`. -/
def toInt32 (outOfRange : ℤ → Int32) (value : ℤ) : Int32 :=
  if -2 ^ 31 ≤ value ∧ value < 2 ^ 31 then .ofInt value else outOfRange value

def getMinPacketCount (outOfRange : ℤ → Int32) : Int32 := toInt32 outOfRange s.minDelay

/-- Both arrays are advanced. -/
def advance (seq : UInt32) : JitterBuffer β :=
  { s with slotsMain := s.slotsMain.advance seq, slotsEc := s.slotsEc.advance seq }

def reset : JitterBuffer β :=
  { s with
    wasReset := true, needBuffering := true, lastPutTimestamp := 0
    slotsEc := s.slotsEc.clear, slotsMain := s.slotsMain.clear
    delayHistory := s.delayHistory.reset, lateHistory := s.lateHistory.reset
    lostSinceReset := 0, gotSinceReset := 0, outstandingDelayChange := 0
    dontChangeDelayFor := 0 }

/-! ## HandleInput -/

/-- The branch of `HandleInput` after a reset. -/
def resync (outOfRange : ℤ → Int32) (timestamp : UInt32) : JitterBuffer β :=
  if s.wasReset then
    { s with
      wasReset := false, outstandingDelayChange := 0, first := true
      nextFetchTimestamp := toInt32 outOfRange (timestamp.toNat - s.minDelay) }
  else s

/-- Clear packets older than the last packet pulled from the buffer. -/
def clearOld : JitterBuffer β := s.advance (s.nextFetchTimestamp - 1).toUInt32

def countLate : JitterBuffer β := { s with latePacketCount := s.latePacketCount + 1 }

/-- `slots.put`, and what it gave up is not fetched. -/
def putSlot (buf : β) (timestamp : UInt32) (isEC : Bool) : JitterBuffer β :=
  let put := (s.slots isEC).put timestamp buf
  let s := if isEC then { s with slotsEc := put.2 } else { s with slotsMain := put.2 }
  { s with nextFetchTimestamp := s.nextFetchTimestamp + put.1.toInt32 }

/-- What `HandleInput` does with a packet that is not dropped. -/
def store (buf : β) (timestamp : UInt32) (isEC : Bool) : JitterBuffer β :=
  let s := if timestamp > s.lastPutTimestamp then { s with lastPutTimestamp := timestamp } else s
  let s :=
    if s.getCurrentDelay > 5 then
      let s := { s with nextFetchTimestamp := s.nextFetchTimestamp + 1 }
      s.advance s.nextFetchTimestamp.toUInt32
    else s
  s.putSlot buf timestamp isEC

def handleInput (outOfRange : ℤ → Int32) (buf : β) (timestamp : UInt32) (isEC : Bool) :
    JitterBuffer β :=
  if (s.slots isEC).has timestamp then s
  else
    -- a packet that is dropped below counts as well
    let s := { s with gotSinceReset := s.gotSinceReset + 1 }
    let s := (s.resync outOfRange timestamp).clearOld
    if timestamp < s.nextFetchTimestamp.toUInt32 then
      -- "late but not hopelessly": it is stored all the same
      let s := if !isEC then { s.countLate with lostPackets := s.lostPackets - 1 } else s
      s.store buf timestamp isEC
    else if timestamp < (s.nextFetchTimestamp - 1).toUInt32 then
      -- only where `nextFetchTimestamp` is 0, as the branch above has the rest
      if !isEC then s.countLate else s
    else s.store buf timestamp isEC

/-! ## HandleOutput -/

/-- The first call after a resync drops what is too much. -/
def startUp (outOfRange : ℤ → Int32) : JitterBuffer β :=
  if s.first then
    let s := { s with first := false }
    let delay := s.getCurrentDelay
    if delay > 5 then
      -- `unsigned - int`, added to an `int32_t`
      let skipped := UInt32.ofNat delay - (s.getMinPacketCount outOfRange).toUInt32
      let s := { s with nextFetchTimestamp := s.nextFetchTimestamp + skipped.toInt32 }
      s.advance s.nextFetchTimestamp.toUInt32
    else s
  else s

/-- The playback duration, and what is left of the change of the delay. -/
def scaleDuration : ℕ × ℤ :=
  if s.outstandingDelayChange ≠ 0 then
    if s.outstandingDelayChange < 0 then (40, s.outstandingDelayChange + 20)
    else (80, s.outstandingDelayChange - 20)
  else if s.getCurrentDelay = 0 then (80, s.outstandingDelayChange)
  else (60, s.outstandingDelayChange)

/-- After too many losses the delay is made good and the buffer is reset. -/
def resetAfterLosses (outOfRange : ℤ → Int32) : JitterBuffer β :=
  if s.lostCount ≥ s.lossesToReset ∨
      ((s.gotSinceReset : ℤ) > s.minDelay * 25 ∧ s.lostSinceReset > s.gotSinceReset / 2) then
    let currentDelay : ℤ := s.getCurrentDelay
    let next :=
      if currentDelay < s.minDelay then
        toInt32 outOfRange (s.nextFetchTimestamp.toInt - (s.minDelay - currentDelay))
      else s.nextFetchTimestamp
    reset { s with
      dontIncMinDelayFor := 16, dontDecMinDelayFor := s.dontDecMinDelayFor + 128
      nextFetchTimestamp := next, lostCount := 0 }
  else s

/-- What is fetched from the two arrays. -/
structure Output (β : Type*) where
  main : Option β
  ec : Option β
  playbackScaledDuration : ℕ
  deriving DecidableEq

/-- `HandleOutput` behind the start. -/
def fetch (outOfRange : ℤ → Int32) : Output β × JitterBuffer β :=
  let (playbackScaledDuration, outstandingDelayChange) := s.scaleDuration
  let s := { s with outstandingDelayChange }
  let seq := s.nextFetchTimestamp.toUInt32
  let main := s.slotsMain.get seq
  let ec := s.slotsEc.get seq
  let output := { main, ec, playbackScaledDuration }
  let s := { s with nextFetchTimestamp := s.nextFetchTimestamp + 1 }
  if main.isSome || ec.isSome then
    (output, { s with
      lostCount := 0, needBuffering := false
      slotsMain := s.slotsMain.take seq, slotsEc := s.slotsEc.take seq })
  else if !s.needBuffering then
    (output, resetAfterLosses { s with
      lostCount := s.lostCount + 1, lostPackets := s.lostPackets + 1
      lostSinceReset := s.lostSinceReset + 1 } outOfRange)
  else (output, s)

def handleOutput (outOfRange : ℤ → Int32) : Output β × JitterBuffer β :=
  (s.startUp outOfRange).fetch outOfRange

variable {s} in
theorem startUp_of_first {outOfRange : ℤ → Int32} (h : s.first = false) :
    s.startUp outOfRange = s := by
  unfold startUp
  rw [h]
  rfl

/-- What is returned is what is stored under `nextFetchTimestamp`. -/
theorem fetch_fst (outOfRange : ℤ → Int32) : (s.fetch outOfRange).1 =
    { main := s.slotsMain.get s.nextFetchTimestamp.toUInt32
      ec := s.slotsEc.get s.nextFetchTimestamp.toUInt32
      playbackScaledDuration := s.scaleDuration.1 } := by
  unfold fetch
  dsimp only
  split_ifs <;> rfl

/-! ## Tick -/

/-- The branch of `Tick` for a measured delay that is not the present one. -/
def adjustMinDelay (outOfRange : ℤ → Int32) (stddevDelay : ℕ) : JitterBuffer β :=
  let diff := max (-1) (min (toInt32 outOfRange (stddevDelay - s.minDelay)).toInt 1)
  -- also where `dontIncMinDelayFor` keeps the delay from growing
  let s := if diff > 0 then { s with dontDecMinDelayFor := 100 } else s
  if (diff > 0 ∧ s.dontIncMinDelayFor = 0) ∨ (diff < 0 ∧ s.dontDecMinDelayFor = 0) then
    { s with
      minDelay := s.minDelay + diff
      outstandingDelayChange := s.outstandingDelayChange + diff * 60
      dontChangeDelayFor := s.dontChangeDelayFor + 32
      dontDecMinDelayFor := if diff < 0 then s.dontDecMinDelayFor + 25 else s.dontDecMinDelayFor
      dontIncMinDelayFor := if diff > 0 then 25 else s.dontIncMinDelayFor }
  else s

/-- The branch of `Tick` for an average delay that is not the wanted one. -/
def adjustPlayback : JitterBuffer β :=
  if s.dontChangeDelayFor ≠ 0 then { s with dontChangeDelayFor := s.dontChangeDelayFor - 1 }
  else if s.avgDelay > s.minDelay + 1 / 2 then
    { s with
      outstandingDelayChange :=
        s.outstandingDelayChange - if s.avgDelay > s.minDelay + 2 then 60 else 20
      dontChangeDelayFor := s.dontChangeDelayFor + 10 }
  else if s.avgDelay < s.minDelay - 3 / 10 then
    { s with
      outstandingDelayChange := s.outstandingDelayChange + 20
      dontChangeDelayFor := s.dontChangeDelayFor + 10 }
  else s

/-- `std::clamp`. -/
def clamp (value low high : ℕ) : ℕ :=
  if value < low then low else if high < value then high else value

/-- `Tick`, where the deviation of the arrival times is so many packets. -/
def tick (outOfRange : ℤ → Int32) (deviation : ℕ) : JitterBuffer β :=
  let s := { s with lateHistory := s.lateHistory.add s.latePacketCount, latePacketCount := 0 }
  let s := if s.lateHistory.average 16 ≥ s.resyncThreshold then { s with wasReset := true } else s
  let s :=
    if s.lateHistory.max = 0 then { s with dontDecMinDelayFor := s.dontDecMinDelayFor - 1 } else s
  let s := { s with delayHistory := s.delayHistory.add s.getCurrentDelay }
  let s := { s with avgDelay := s.delayHistory.average 32 }
  let stddevDelay := clamp deviation s.minMinDelay s.maxMinDelay
  let s := if (stddevDelay : ℤ) ≠ s.minDelay then s.adjustMinDelay outOfRange stddevDelay else s
  s.adjustPlayback

/-! ## Runs -/

inductive Call (β : Type*) where
  | setMinPacketCount (count : ℕ)
  | reset
  | handleInput (buf : β) (timestamp : UInt32) (isEC : Bool)
  | handleOutput
  | tick (deviation : ℕ)
  | getAndResetLostPacketCount
  deriving DecidableEq, Repr

def step (outOfRange : ℤ → Int32) (s : JitterBuffer β) : Call β → JitterBuffer β
  | .setMinPacketCount count => s.setMinPacketCount count
  | .reset => s.reset
  | .handleInput buf timestamp isEC => s.handleInput outOfRange buf timestamp isEC
  | .handleOutput => (s.handleOutput outOfRange).2
  | .tick deviation => s.tick outOfRange deviation
  | .getAndResetLostPacketCount => { s with lostPackets := 0 }

end JitterBuffer

end Tgvoip
