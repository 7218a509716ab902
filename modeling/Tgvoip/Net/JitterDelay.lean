import Tgvoip.Net.InTimePackets

/-!
# JitterDelay — the delay of the jitter buffer, and how it is paid

`Tick` moves `minDelay` towards the measured delay and notes in
`outstandingDelayChange` what playback has to be stretched or shortened by;
each `HandleOutput` pays 20 ms of it; a resync and a reset forget it.

`terms` is the part of the buffer that the delay depends on, and the first
sections say what each call does to it. `DelayLedger` keeps, beside the
buffer, what `Tick` has added and `HandleOutput` has paid since it was last
forgotten.

The measured delay is compared with `minDelay` as an `int32_t`. The result
is that of the numbers while the delays are below `2^31`.
-/

namespace Tgvoip

open Runs

/-- What the delay depends on. -/
structure DelayTerms where
  minDelay : ℤ
  minMinDelay : ℕ
  maxMinDelay : ℕ
  lateHistory : HistoricBuffer ℤ 64
  latePacketCount : ℕ
  dontIncMinDelayFor : ℕ
  dontDecMinDelayFor : ℕ
  outstandingDelayChange : ℤ

namespace JitterBuffer

variable {β : Type*} {outOfRange : ℤ → Int32} {s : JitterBuffer β} {buf : β} {timestamp : UInt32}
  {isEC : Bool} {deviation : ℕ}

def terms (s : JitterBuffer β) : DelayTerms :=
  { minDelay := s.minDelay, minMinDelay := s.minMinDelay, maxMinDelay := s.maxMinDelay
    lateHistory := s.lateHistory, latePacketCount := s.latePacketCount
    dontIncMinDelayFor := s.dontIncMinDelayFor, dontDecMinDelayFor := s.dontDecMinDelayFor
    outstandingDelayChange := s.outstandingDelayChange }

/-! ## HandleInput -/

theorem terms_store (s : JitterBuffer β) : (s.store buf timestamp isEC).terms = s.terms := by
  unfold store putSlot advance
  dsimp only
  split_ifs <;> rfl

theorem terms_settled (s : JitterBuffer β) : (s.settled outOfRange timestamp).terms =
    { s.terms with
      outstandingDelayChange := if s.wasReset then 0 else s.outstandingDelayChange } := by
  unfold settled clearOld advance resync
  dsimp only
  split_ifs <;> rfl

/-- `HandleInput` resyncs the buffer. -/
def Resyncs (s : JitterBuffer β) (timestamp : UInt32) (isEC : Bool) : Prop :=
  (s.slots isEC).has timestamp = false ∧ s.wasReset = true

instance (s : JitterBuffer β) (timestamp : UInt32) (isEC : Bool) :
    Decidable (s.Resyncs timestamp isEC) :=
  inferInstanceAs (Decidable (_ ∧ _))

/-- **HandleInput** forgets the change of the delay where it resyncs, and counts a late
packet at most. -/
theorem terms_handleInput (outOfRange : ℤ → Int32) (s : JitterBuffer β) (buf : β)
    (timestamp : UInt32) (isEC : Bool) :
    (s.handleInput outOfRange buf timestamp isEC).terms = { s.terms with
      latePacketCount := (s.handleInput outOfRange buf timestamp isEC).latePacketCount
      outstandingDelayChange :=
        if s.Resyncs timestamp isEC then 0 else s.outstandingDelayChange } := by
  cases hhas : (s.slots isEC).has timestamp with
  | true =>
      rw [handleInput_of_has hhas, if_neg (by simp [Resyncs, hhas])]
      rfl
  | false =>
      have hsettled : (s.settled outOfRange timestamp).terms = { s.terms with
          outstandingDelayChange :=
            if s.Resyncs timestamp isEC then 0 else s.outstandingDelayChange } := by
        simp [terms_settled, Resyncs, hhas]
      -- all that happens behind it is counting
      have hcounted : ∀ s' : JitterBuffer β, { s'.terms with latePacketCount := 0 } =
          { (s.settled outOfRange timestamp).terms with latePacketCount := 0 } →
          s'.terms = { s.terms with
            latePacketCount := s'.latePacketCount
            outstandingDelayChange :=
              if s.Resyncs timestamp isEC then 0 else s.outstandingDelayChange } := by
        intro s' hsame
        rw [hsettled] at hsame
        have hback := congrArg (fun t : DelayTerms =>
          { t with latePacketCount := s'.latePacketCount }) hsame
        exact hback
      apply hcounted
      rw [handleInput_eq outOfRange buf hhas]
      dsimp only
      split_ifs with hlate hmain hold hmain
      · rw [terms_store]
        rfl
      · rw [terms_store]
      · rfl
      · rfl
      · rw [terms_store]

/-! ## HandleOutput -/

/-- What is left of a change of the delay behind one payment. -/
def afterPayment (change : ℤ) : ℤ :=
  if change < 0 then change + 20 else if 0 < change then change - 20 else 0

theorem scaleDuration_snd (s : JitterBuffer β) :
    s.scaleDuration.2 = afterPayment s.outstandingDelayChange := by
  unfold scaleDuration afterPayment
  split_ifs <;> first | rfl | omega

/-- A payment is what the duration differs from 60 ms by. -/
theorem scaleDuration_fst (h : s.outstandingDelayChange ≠ 0) :
    (s.scaleDuration.1 : ℤ) - 60 = s.outstandingDelayChange - afterPayment s.outstandingDelayChange := by
  unfold scaleDuration afterPayment
  rw [if_pos h]
  split_ifs
  · simp
  · simp
  · omega

/-- `HandleOutput` resets the buffer, which then waits for packets again. -/
def Resets (outOfRange : ℤ → Int32) (s : JitterBuffer β) : Prop :=
  s.needBuffering = false ∧ (s.handleOutput outOfRange).2.needBuffering = true

instance (outOfRange : ℤ → Int32) (s : JitterBuffer β) : Decidable (s.Resets outOfRange) :=
  inferInstanceAs (Decidable (_ ∧ _))

theorem startUp_same (outOfRange : ℤ → Int32) (s : JitterBuffer β) :
    (s.startUp outOfRange).terms = s.terms ∧
      (s.startUp outOfRange).needBuffering = s.needBuffering := by
  unfold startUp advance
  dsimp only
  split_ifs <;> exact ⟨rfl, rfl⟩

/-- A reset after losses, if there is one. -/
theorem resetAfterLosses_cases (outOfRange : ℤ → Int32) (s : JitterBuffer β) :
    s.resetAfterLosses outOfRange = s ∨
      ((s.resetAfterLosses outOfRange).terms = { s.terms with
        lateHistory := s.lateHistory.reset, dontIncMinDelayFor := 16
        dontDecMinDelayFor := s.dontDecMinDelayFor + 128, outstandingDelayChange := 0 } ∧
      (s.resetAfterLosses outOfRange).needBuffering = true) := by
  unfold resetAfterLosses
  dsimp only
  split_ifs
  · exact .inr ⟨rfl, rfl⟩
  · exact .inr ⟨rfl, rfl⟩
  · exact .inl rfl

theorem fetch_terms (outOfRange : ℤ → Int32) (s : JitterBuffer β) :
    ((s.fetch outOfRange).2.needBuffering = true → s.needBuffering = true) ∧
        (s.fetch outOfRange).2.terms = { s.terms with
          outstandingDelayChange := afterPayment s.outstandingDelayChange } ∨
      s.needBuffering = false ∧ (s.fetch outOfRange).2.needBuffering = true ∧
        (s.fetch outOfRange).2.terms = { s.terms with
          lateHistory := s.lateHistory.reset, dontIncMinDelayFor := 16
          dontDecMinDelayFor := s.dontDecMinDelayFor + 128, outstandingDelayChange := 0 } := by
  unfold fetch
  rw [← scaleDuration_snd]
  dsimp only
  split_ifs with hfound hbuffering
  · refine .inl ⟨fun h => ?_, rfl⟩
    cases h
  · have hneed : s.needBuffering = false := by simpa using hbuffering
    rcases resetAfterLosses_cases outOfRange { s with
        outstandingDelayChange := s.scaleDuration.2
        nextFetchTimestamp := s.nextFetchTimestamp + 1
        lostCount := s.lostCount + 1, lostPackets := s.lostPackets + 1
        lostSinceReset := s.lostSinceReset + 1 } with hsame | ⟨hterms, hreset⟩
    · rw [hsame]
      exact .inl ⟨id, rfl⟩
    · exact .inr ⟨hneed, hreset, hterms⟩
  · exact .inl ⟨id, rfl⟩

/-- **HandleOutput** pays, or resets. -/
theorem terms_handleOutput (outOfRange : ℤ → Int32) (s : JitterBuffer β) :
    (s.handleOutput outOfRange).2.terms =
      if s.Resets outOfRange then { s.terms with
        lateHistory := s.lateHistory.reset, dontIncMinDelayFor := 16
        dontDecMinDelayFor := s.dontDecMinDelayFor + 128, outstandingDelayChange := 0 }
      else { s.terms with outstandingDelayChange := afterPayment s.outstandingDelayChange } := by
  obtain ⟨hterms, hneed⟩ := startUp_same outOfRange s
  have hlate : (s.startUp outOfRange).lateHistory = s.lateHistory :=
    congrArg DelayTerms.lateHistory hterms
  have hdec : (s.startUp outOfRange).dontDecMinDelayFor = s.dontDecMinDelayFor :=
    congrArg DelayTerms.dontDecMinDelayFor hterms
  have hchange : (s.startUp outOfRange).outstandingDelayChange = s.outstandingDelayChange :=
    congrArg DelayTerms.outstandingDelayChange hterms
  have hcases := fetch_terms outOfRange (s.startUp outOfRange)
  rw [hneed, hterms, hlate, hdec, hchange] at hcases
  rcases hcases with ⟨hkeeps, hpays⟩ | ⟨hbefore, hafter, hreset⟩
  · rw [if_neg]
    · exact hpays
    · rintro ⟨hbefore, hafter⟩
      rw [hkeeps hafter] at hbefore
      cases hbefore
  · rw [if_pos ⟨hbefore, hafter⟩]
    exact hreset

/-- What `HandleOutput` is in debt of is known before the start. -/
theorem handleOutput_duration (outOfRange : ℤ → Int32) (h : s.outstandingDelayChange ≠ 0) :
    ((s.handleOutput outOfRange).1.playbackScaledDuration : ℤ) - 60 =
      s.outstandingDelayChange - afterPayment s.outstandingDelayChange := by
  have hchange : (s.startUp outOfRange).outstandingDelayChange = s.outstandingDelayChange :=
    congrArg DelayTerms.outstandingDelayChange (startUp_same outOfRange s).1
  unfold handleOutput
  rw [fetch_fst, ← hchange]
  exact scaleDuration_fst (by rwa [hchange])

theorem outstandingDelayChange_handleOutput (outOfRange : ℤ → Int32) (s : JitterBuffer β) :
    (s.handleOutput outOfRange).2.outstandingDelayChange = 0 ∨
      (s.handleOutput outOfRange).2.outstandingDelayChange =
        afterPayment s.outstandingDelayChange := by
  have hterms := terms_handleOutput outOfRange s
  split_ifs at hterms
  · exact .inl (congrArg DelayTerms.outstandingDelayChange hterms)
  · exact .inr (congrArg DelayTerms.outstandingDelayChange hterms)

/-! ## Tick -/

/-- `Tick` before the delay is adapted. -/
def measured (s : JitterBuffer β) : JitterBuffer β :=
  let s := { s with lateHistory := s.lateHistory.add s.latePacketCount, latePacketCount := 0 }
  let s := if s.lateHistory.average 16 ≥ s.resyncThreshold then { s with wasReset := true } else s
  let s :=
    if s.lateHistory.max = 0 then { s with dontDecMinDelayFor := s.dontDecMinDelayFor - 1 } else s
  let s := { s with delayHistory := s.delayHistory.add s.getCurrentDelay }
  { s with avgDelay := s.delayHistory.average 32 }

theorem terms_measured (s : JitterBuffer β) : s.measured.terms = { s.terms with
    lateHistory := s.lateHistory.add s.latePacketCount, latePacketCount := 0
    dontDecMinDelayFor :=
      if (s.lateHistory.add s.latePacketCount).max = 0 then s.dontDecMinDelayFor - 1
      else s.dontDecMinDelayFor } := by
  unfold measured
  dsimp only
  split_ifs <;> rfl

/-- The measured delay. -/
def stddevDelay (s : JitterBuffer β) (deviation : ℕ) : ℕ :=
  clamp deviation s.minMinDelay s.maxMinDelay

theorem clamp_mem {low high : ℕ} (h : low ≤ high) (value : ℕ) :
    low ≤ clamp value low high ∧ clamp value low high ≤ high := by
  unfold clamp
  split_ifs <;> omega

/-- What the delay is pulled by. -/
def pull (outOfRange : ℤ → Int32) (s : JitterBuffer β) (deviation : ℕ) : ℤ :=
  max (-1) (min (toInt32 outOfRange (s.stddevDelay deviation - s.minDelay)).toInt 1)

/-- What is measured differs from the present delay by an `int32_t`. -/
def Measures (s : JitterBuffer β) (deviation : ℕ) : Prop :=
  -2 ^ 31 ≤ s.stddevDelay deviation - s.minDelay ∧ s.stddevDelay deviation - s.minDelay < 2 ^ 31

theorem toInt_toInt32 (outOfRange : ℤ → Int32) {value : ℤ} (hlow : -2 ^ 31 ≤ value)
    (hhigh : value < 2 ^ 31) : (toInt32 outOfRange value).toInt = value := by
  unfold toInt32
  rw [if_pos ⟨hlow, hhigh⟩]
  exact Int32.toInt_ofInt_of_le hlow hhigh

theorem Measures.pull_eq (h : s.Measures deviation) (outOfRange : ℤ → Int32) :
    s.pull outOfRange deviation = max (-1) (min (s.stddevDelay deviation - s.minDelay) 1) := by
  unfold pull
  rw [toInt_toInt32 outOfRange h.1 h.2]

/-- **The step of the delay.** It is not raised while `dontIncMinDelayFor` holds, and not
lowered while `dontDecMinDelayFor` does. -/
theorem terms_adjustMinDelay (outOfRange : ℤ → Int32) (s : JitterBuffer β) (deviation : ℕ) :
    (s.adjustMinDelay outOfRange (s.stddevDelay deviation)).terms =
      if 0 < s.pull outOfRange deviation then
        if s.dontIncMinDelayFor = 0 then { s.terms with
          minDelay := s.minDelay + 1
          outstandingDelayChange := s.outstandingDelayChange + 60
          dontDecMinDelayFor := 100, dontIncMinDelayFor := 25 }
        else { s.terms with dontDecMinDelayFor := 100 }
      else if s.pull outOfRange deviation < 0 ∧ s.dontDecMinDelayFor = 0 then { s.terms with
        minDelay := s.minDelay - 1
        outstandingDelayChange := s.outstandingDelayChange - 60
        dontDecMinDelayFor := 25 }
      else s.terms := by
  have hlow : -1 ≤ s.pull outOfRange deviation := le_max_left _ _
  have hhigh : s.pull outOfRange deviation ≤ 1 := max_le (by decide) (min_le_right _ _)
  unfold adjustMinDelay
  unfold pull at hlow hhigh ⊢
  dsimp only
  generalize max (-1) (min (toInt32 outOfRange (s.stddevDelay deviation - s.minDelay)).toInt 1) =
    diff at hlow hhigh ⊢
  rcases (by omega : diff = -1 ∨ diff = 0 ∨ diff = 1) with rfl | rfl | rfl
  · by_cases hdec : s.dontDecMinDelayFor = 0
    · simp [terms, hdec]
      omega
    · simp [hdec]
  · simp
  · by_cases hinc : s.dontIncMinDelayFor = 0 <;> simp [terms, hinc]

/-- What `Tick` adds for the average delay. -/
def averageAdjustment (s : JitterBuffer β) : ℤ :=
  if s.dontChangeDelayFor ≠ 0 then 0
  else if s.avgDelay > s.minDelay + 1 / 2 then if s.avgDelay > s.minDelay + 2 then -60 else -20
  else if s.avgDelay < s.minDelay - 3 / 10 then 20
  else 0

theorem terms_adjustPlayback (s : JitterBuffer β) : s.adjustPlayback.terms =
    { s.terms with
      outstandingDelayChange := s.outstandingDelayChange + s.averageAdjustment } := by
  unfold adjustPlayback averageAdjustment
  split_ifs <;> simp [terms] <;> rfl

/-- `Tick` before the average delay is looked at. -/
def moved (outOfRange : ℤ → Int32) (s : JitterBuffer β) (deviation : ℕ) : JitterBuffer β :=
  if (s.measured.stddevDelay deviation : ℤ) ≠ s.measured.minDelay then
    s.measured.adjustMinDelay outOfRange (s.measured.stddevDelay deviation)
  else s.measured

theorem tick_eq (outOfRange : ℤ → Int32) (s : JitterBuffer β) (deviation : ℕ) :
    s.tick outOfRange deviation = (s.moved outOfRange deviation).adjustPlayback := rfl

theorem terms_moved (outOfRange : ℤ → Int32) (s : JitterBuffer β) (deviation : ℕ) :
    (s.moved outOfRange deviation).terms =
      (s.measured.adjustMinDelay outOfRange (s.measured.stddevDelay deviation)).terms := by
  unfold moved
  split_ifs with h
  · rfl
  · rw [not_not] at h
    have hpull : s.measured.pull outOfRange deviation = 0 := by
      unfold pull
      rw [h, Int.sub_self, toInt_toInt32 outOfRange (by decide) (by decide)]
      rfl
    rw [terms_adjustMinDelay, hpull]
    rfl

theorem terms_tick (outOfRange : ℤ → Int32) (s : JitterBuffer β) (deviation : ℕ) :
    (s.tick outOfRange deviation).terms =
      { (s.measured.adjustMinDelay outOfRange (s.measured.stddevDelay deviation)).terms with
        outstandingDelayChange := (s.moved outOfRange deviation).outstandingDelayChange +
          (s.moved outOfRange deviation).averageAdjustment } := by
  rw [tick_eq, terms_adjustPlayback, terms_moved]

theorem bounds_measured (s : JitterBuffer β) : s.measured.minDelay = s.minDelay ∧
    s.measured.minMinDelay = s.minMinDelay ∧ s.measured.maxMinDelay = s.maxMinDelay :=
  have hterms := terms_measured s
  ⟨congrArg DelayTerms.minDelay hterms, congrArg DelayTerms.minMinDelay hterms,
    congrArg DelayTerms.maxMinDelay hterms⟩

theorem pull_measured (outOfRange : ℤ → Int32) (s : JitterBuffer β) (deviation : ℕ) :
    s.measured.pull outOfRange deviation = s.pull outOfRange deviation := by
  obtain ⟨hdelay, hmin, hmax⟩ := bounds_measured s
  unfold pull stddevDelay
  rw [hdelay, hmin, hmax]

/-- `Tick` moves the delay by one packet at most. -/
theorem moved_cases (outOfRange : ℤ → Int32) (s : JitterBuffer β) (deviation : ℕ) :
    ((s.moved outOfRange deviation).minDelay = s.minDelay ∧
        (s.moved outOfRange deviation).outstandingDelayChange = s.outstandingDelayChange) ∨
      (0 < s.pull outOfRange deviation ∧
        (s.moved outOfRange deviation).minDelay = s.minDelay + 1 ∧
        (s.moved outOfRange deviation).outstandingDelayChange = s.outstandingDelayChange + 60) ∨
      (s.pull outOfRange deviation < 0 ∧
        (s.moved outOfRange deviation).minDelay = s.minDelay - 1 ∧
        (s.moved outOfRange deviation).outstandingDelayChange =
          s.outstandingDelayChange - 60) := by
  have hterms := terms_moved outOfRange s deviation
  rw [terms_adjustMinDelay, pull_measured] at hterms
  have hbefore := terms_measured s
  have hdelay := congrArg DelayTerms.minDelay hbefore
  have hchange := congrArg DelayTerms.outstandingDelayChange hbefore
  have hdelay' := congrArg DelayTerms.minDelay hterms
  have hchange' := congrArg DelayTerms.outstandingDelayChange hterms
  simp only [terms] at hdelay hchange hdelay' hchange'
  split_ifs at hdelay' hchange' with hup hinc hdown <;> dsimp only at hdelay' hchange'
  · exact .inr (.inl ⟨hup, by omega, by omega⟩)
  · exact .inl ⟨by omega, by omega⟩
  · exact .inr (.inr ⟨hdown.1, by omega, by omega⟩)
  · exact .inl ⟨by omega, by omega⟩

/-- What `Tick` adds to the change of the delay: 60 ms for a packet of the delay, and what the
average delay asks for. -/
def tickAdjustment (outOfRange : ℤ → Int32) (s : JitterBuffer β) (deviation : ℕ) : ℤ :=
  60 * ((s.moved outOfRange deviation).minDelay - s.minDelay) +
    (s.moved outOfRange deviation).averageAdjustment

theorem minDelay_tick (outOfRange : ℤ → Int32) (s : JitterBuffer β) (deviation : ℕ) :
    (s.tick outOfRange deviation).minDelay = (s.moved outOfRange deviation).minDelay :=
  congrArg DelayTerms.minDelay (terms_adjustPlayback (s.moved outOfRange deviation))

theorem bounds_tick (outOfRange : ℤ → Int32) (s : JitterBuffer β) (deviation : ℕ) :
    (s.tick outOfRange deviation).minMinDelay = s.minMinDelay ∧
      (s.tick outOfRange deviation).maxMinDelay = s.maxMinDelay := by
  obtain ⟨-, hmin, hmax⟩ := bounds_measured s
  have hterms := terms_tick outOfRange s deviation
  rw [terms_adjustMinDelay] at hterms
  have hmin' := congrArg DelayTerms.minMinDelay hterms
  have hmax' := congrArg DelayTerms.maxMinDelay hterms
  refine ⟨hmin'.trans (Eq.trans ?_ hmin), hmax'.trans (Eq.trans ?_ hmax)⟩
  · dsimp only
    split_ifs <;> rfl
  · dsimp only
    split_ifs <;> rfl

theorem outstandingDelayChange_tick (outOfRange : ℤ → Int32) (s : JitterBuffer β)
    (deviation : ℕ) : (s.tick outOfRange deviation).outstandingDelayChange =
      s.outstandingDelayChange + s.tickAdjustment outOfRange deviation := by
  have hplayback : (s.tick outOfRange deviation).outstandingDelayChange =
      (s.moved outOfRange deviation).outstandingDelayChange +
        (s.moved outOfRange deviation).averageAdjustment :=
    congrArg DelayTerms.outstandingDelayChange
      (terms_adjustPlayback (s.moved outOfRange deviation))
  unfold tickAdjustment
  rcases moved_cases outOfRange s deviation with
    ⟨hdelay, hchange⟩ | ⟨-, hdelay, hchange⟩ | ⟨-, hdelay, hchange⟩ <;> omega

/-- The delay is not moved away from what is measured. -/
theorem Measures.minDelay_tick (h : s.Measures deviation) (outOfRange : ℤ → Int32) :
    let minDelay := (s.tick outOfRange deviation).minDelay
    let stddevDelay := s.stddevDelay deviation
    minDelay = s.minDelay ∨
      (s.minDelay < stddevDelay ∧ minDelay = s.minDelay + 1) ∨
      (stddevDelay < s.minDelay ∧ minDelay = s.minDelay - 1) := by
  have hpull := h.pull_eq outOfRange
  dsimp only
  rw [JitterBuffer.minDelay_tick]
  rcases moved_cases outOfRange s deviation with ⟨hsame, -⟩ | ⟨hup, hdelay, -⟩ | ⟨hdown, hdelay, -⟩
  · exact .inl hsame
  · exact .inr (.inl ⟨by omega, hdelay⟩)
  · exact .inr (.inr ⟨by omega, hdelay⟩)

/-! ## The balance -/

/-- The buffer, and what its `outstandingDelayChange` is made of since it was last set
to zero. -/
structure DelayLedger (β : Type*) where
  buffer : JitterBuffer β
  opening : ℤ
  adjusted : ℤ := 0
  paid : ℤ := 0

namespace DelayLedger

variable {l : DelayLedger β}

def new (buffer : JitterBuffer β) : DelayLedger β :=
  { buffer, opening := buffer.outstandingDelayChange }

/-- Behind a resync or a reset nothing is outstanding. -/
def zeroed (buffer : JitterBuffer β) : DelayLedger β := { buffer, opening := 0 }

def step (outOfRange : ℤ → Int32) (l : DelayLedger β) (call : Call β) : DelayLedger β :=
  let buffer := l.buffer.step outOfRange call
  match call with
  | .reset => zeroed buffer
  | .handleInput _ timestamp isEC =>
      if l.buffer.Resyncs timestamp isEC then zeroed buffer else { l with buffer }
  | .handleOutput =>
      if l.buffer.Resets outOfRange then zeroed buffer
      else if l.buffer.outstandingDelayChange ≠ 0 then
        let duration := (l.buffer.handleOutput outOfRange).1.playbackScaledDuration
        { l with buffer, paid := l.paid + (duration - 60) }
      else { l with buffer }
  | .tick deviation =>
      { l with
        buffer, adjusted := l.adjusted + l.buffer.tickAdjustment outOfRange deviation }
  | .setMinPacketCount _ => { l with buffer }
  | .getAndResetLostPacketCount => { l with buffer }

/-- What holds of every ledger. -/
structure Balanced (l : DelayLedger β) : Prop where
  low : l.buffer.minMinDelay ≤ l.buffer.minDelay
  high : l.buffer.minDelay ≤ l.buffer.maxMinDelay
  multiple : 20 ∣ l.buffer.outstandingDelayChange
  balance : l.buffer.outstandingDelayChange = l.opening + l.adjusted - l.paid

/-- What a call does to a ledger. -/
structure Conserved (outOfRange : ℤ → Int32) (l : DelayLedger β) (call : Call β) : Prop where
  balanced : (l.step outOfRange call).Balanced
  tick : ∀ deviation, call = .tick deviation →
    let minDelay := (l.buffer.step outOfRange call).minDelay
    let stddevDelay := l.buffer.stddevDelay deviation
    minDelay = l.buffer.minDelay ∨
      (l.buffer.minDelay < stddevDelay ∧ minDelay = l.buffer.minDelay + 1) ∨
      (stddevDelay < l.buffer.minDelay ∧ minDelay = l.buffer.minDelay - 1)
  paid : call = .handleOutput →
    let change := (l.buffer.step outOfRange call).outstandingDelayChange
    (0 < l.buffer.outstandingDelayChange →
        0 ≤ change ∧ change < l.buffer.outstandingDelayChange) ∧
      (l.buffer.outstandingDelayChange < 0 →
        l.buffer.outstandingDelayChange < change ∧ change ≤ 0)

/-- The count that is set is a delay, and what is measured differs from the delay by
an `int32_t`. -/
def Admits (l : DelayLedger β) : Call β → Prop
  | .setMinPacketCount count => count ≤ l.buffer.maxMinDelay
  | .tick deviation => l.buffer.Measures deviation
  | _ => True

instance (l : DelayLedger β) : ∀ call, Decidable (l.Admits call)
  | .setMinPacketCount _ => inferInstanceAs (Decidable (_ ≤ _))
  | .tick _ => inferInstanceAs (Decidable (_ ∧ _))
  | .reset => .isTrue trivial
  | .handleInput _ _ _ => .isTrue trivial
  | .handleOutput => .isTrue trivial
  | .getAndResetLostPacketCount => .isTrue trivial

theorem balanced_new (hlow : s.minMinDelay ≤ s.minDelay) (hhigh : s.minDelay ≤ s.maxMinDelay)
    (hmultiple : 20 ∣ s.outstandingDelayChange) : (new s).Balanced where
  low := hlow
  high := hhigh
  multiple := hmultiple
  balance := by simp [new]

/-- Where the delay and its bounds stay, the ledger has to balance. -/
theorem Balanced.of_same {l' : DelayLedger β} (h : l.Balanced)
    (hdelay : l'.buffer.minDelay = l.buffer.minDelay)
    (hmin : l'.buffer.minMinDelay = l.buffer.minMinDelay)
    (hmax : l'.buffer.maxMinDelay = l.buffer.maxMinDelay)
    (hmultiple : 20 ∣ l'.buffer.outstandingDelayChange)
    (hbalance : l'.buffer.outstandingDelayChange = l'.opening + l'.adjusted - l'.paid) :
    l'.Balanced where
  low := by rw [hdelay, hmin]; exact h.low
  high := by rw [hdelay, hmax]; exact h.high
  multiple := hmultiple
  balance := hbalance

theorem afterPayment_multiple {change : ℤ} (h : 20 ∣ change) : 20 ∣ afterPayment change := by
  unfold afterPayment
  split_ifs <;> omega

/-- A payment does not cross zero. -/
theorem afterPayment_between {change change' : ℤ} (h : 20 ∣ change)
    (hcases : change' = 0 ∨ change' = afterPayment change) :
    (0 < change → 0 ≤ change' ∧ change' < change) ∧
      (change < 0 → change < change' ∧ change' ≤ 0) := by
  unfold afterPayment at hcases
  split_ifs at hcases <;> omega

theorem averageAdjustment_multiple (s : JitterBuffer β) : 20 ∣ s.averageAdjustment := by
  unfold averageAdjustment
  split_ifs <;> decide

theorem Balanced.handleInput (h : l.Balanced) (buf : β) (timestamp : UInt32) (isEC : Bool) :
    (l.step outOfRange (.handleInput buf timestamp isEC)).Balanced := by
  have hterms := terms_handleInput outOfRange l.buffer buf timestamp isEC
  have hdelay := congrArg DelayTerms.minDelay hterms
  have hmin := congrArg DelayTerms.minMinDelay hterms
  have hmax := congrArg DelayTerms.maxMinDelay hterms
  have hchange : (l.buffer.handleInput outOfRange buf timestamp isEC).outstandingDelayChange =
      if l.buffer.Resyncs timestamp isEC then 0 else l.buffer.outstandingDelayChange :=
    congrArg DelayTerms.outstandingDelayChange hterms
  unfold DelayLedger.step
  dsimp only
  split_ifs at hchange ⊢ with hresyncs
  · refine h.of_same hdelay hmin hmax ?_ (hchange.trans (by simp [zeroed]))
    exact hchange ▸ Int.dvd_zero 20
  · refine h.of_same hdelay hmin hmax ?_ (hchange.trans h.balance)
    exact hchange ▸ h.multiple

theorem Balanced.handleOutput (h : l.Balanced) :
    (l.step outOfRange .handleOutput).Balanced := by
  have hterms := terms_handleOutput outOfRange l.buffer
  unfold DelayLedger.step
  dsimp only
  split_ifs at hterms ⊢ with hresets howes
  · have hchange : (l.buffer.handleOutput outOfRange).2.outstandingDelayChange = 0 :=
      congrArg DelayTerms.outstandingDelayChange hterms
    refine h.of_same (congrArg DelayTerms.minDelay hterms) (congrArg DelayTerms.minMinDelay hterms)
      (congrArg DelayTerms.maxMinDelay hterms) ?_ (hchange.trans (by simp [zeroed]))
    exact hchange ▸ Int.dvd_zero 20
  · have hchange : (l.buffer.handleOutput outOfRange).2.outstandingDelayChange =
        afterPayment l.buffer.outstandingDelayChange :=
      congrArg DelayTerms.outstandingDelayChange hterms
    refine h.of_same (congrArg DelayTerms.minDelay hterms) (congrArg DelayTerms.minMinDelay hterms)
      (congrArg DelayTerms.maxMinDelay hterms) ?_ ?_
    · exact hchange ▸ afterPayment_multiple h.multiple
    · have hduration := handleOutput_duration outOfRange howes
      have hbalance := h.balance
      show (l.buffer.handleOutput outOfRange).2.outstandingDelayChange = _
      dsimp only
      omega
  · have hchange : (l.buffer.handleOutput outOfRange).2.outstandingDelayChange =
        afterPayment l.buffer.outstandingDelayChange :=
      congrArg DelayTerms.outstandingDelayChange hterms
    rw [not_not] at howes
    rw [howes] at hchange
    refine h.of_same (congrArg DelayTerms.minDelay hterms) (congrArg DelayTerms.minMinDelay hterms)
      (congrArg DelayTerms.maxMinDelay hterms) ?_ ?_
    · exact hchange ▸ Int.dvd_zero 20
    · exact hchange.trans (howes.symm.trans h.balance)

theorem Balanced.tick (h : l.Balanced) {deviation : ℕ}
    (hmeasures : l.buffer.Measures deviation) :
    (l.step outOfRange (.tick deviation)).Balanced := by
  obtain ⟨hmin, hmax⟩ := bounds_tick outOfRange l.buffer deviation
  have hmoves := hmeasures.minDelay_tick outOfRange
  have hchange := outstandingDelayChange_tick outOfRange l.buffer deviation
  obtain ⟨hlow, hhigh⟩ := clamp_mem (Int.ofNat_le.mp (h.low.trans h.high)) deviation
  have hlow' := h.low
  have hhigh' := h.high
  have hbalance := h.balance
  unfold stddevDelay at hmoves
  unfold DelayLedger.step
  refine ⟨?_, ?_, ?_, ?_⟩
  · show ((l.buffer.tick outOfRange deviation).minMinDelay : ℤ) ≤
      (l.buffer.tick outOfRange deviation).minDelay
    omega
  · show (l.buffer.tick outOfRange deviation).minDelay ≤
      (l.buffer.tick outOfRange deviation).maxMinDelay
    omega
  · show 20 ∣ (l.buffer.tick outOfRange deviation).outstandingDelayChange
    have haverage := averageAdjustment_multiple (l.buffer.moved outOfRange deviation)
    have hmultiple := h.multiple
    rw [hchange]
    unfold tickAdjustment
    omega
  · show (l.buffer.tick outOfRange deviation).outstandingDelayChange =
      l.opening + (l.adjusted + l.buffer.tickAdjustment outOfRange deviation) - l.paid
    omega

/-- **The step lemma.** -/
theorem Balanced.step (h : l.Balanced) {call : Call β} (hadmits : l.Admits call) :
    (l.step outOfRange call).Balanced := by
  cases call with
  | setMinPacketCount count => exact ⟨le_refl _, Int.ofNat_le.mpr hadmits, h.multiple, h.balance⟩
  | reset => exact ⟨h.low, h.high, Int.dvd_zero 20, rfl⟩
  | handleInput buf timestamp isEC => exact h.handleInput buf timestamp isEC
  | handleOutput => exact h.handleOutput
  | tick deviation => exact h.tick hadmits
  | getAndResetLostPacketCount => exact ⟨h.low, h.high, h.multiple, h.balance⟩

theorem Balanced.conserved (h : l.Balanced) {call : Call β} (hadmits : l.Admits call) :
    l.Conserved outOfRange call where
  balanced := h.step hadmits
  tick deviation hcall := by
    subst hcall
    exact Measures.minDelay_tick hadmits outOfRange
  paid hcall := by
    subst hcall
    exact afterPayment_between h.multiple (outstandingDelayChange_handleOutput outOfRange l.buffer)

/-- **The balance of the delay.** It holds behind every call of a run, from any buffer with a
delay between its bounds. -/
theorem delay_conserved (outOfRange : ℤ → Int32) {s : JitterBuffer β}
    (hlow : s.minMinDelay ≤ s.minDelay) (hhigh : s.minDelay ≤ s.maxMinDelay)
    (hmultiple : 20 ∣ s.outstandingDelayChange) {calls : List (Call β)}
    (hrun : Along (DelayLedger.step outOfRange) Admits (.new s) calls) :
    Along (DelayLedger.step outOfRange) (Conserved outOfRange) (.new s) calls :=
  hrun.strengthen (I := Balanced) (fun _ _ h => h.step) (fun _ _ h => h.conserved)
    (balanced_new hlow hhigh hmultiple)

/-- A call of each kind. -/
theorem delay_conserved_calls :
    Along (DelayLedger.step fun _ => Int32.minValue) (Conserved fun _ => Int32.minValue)
      (.new (.new noConfig 20 : JitterBuffer ℕ))
      [.tick 8, .handleInput 7 10 false, .setMinPacketCount 8, .handleOutput, .tick 0] :=
  delay_conserved _ (by decide) (by decide) (by decide) (by decide +kernel)

/-- A server that does not bound the delay. -/
def unboundedConfig : ServerConfig where
  getUInt name fallback := if name = "jitter_max_delay_20" then 2 ^ 32 - 1 else fallback
  getDouble _ fallback := fallback

/-- What is measured is too far above the delay for an `int32_t`. -/
theorem delay_conserved_fails :
    let s := (.new unboundedConfig 20 : JitterBuffer ℕ)
    (s.minMinDelay ≤ s.minDelay ∧ s.minDelay ≤ s.maxMinDelay) ∧
      ¬ Conserved (fun _ => Int32.minValue) (.new s) (.tick (2 ^ 31 + 6)) := by
  refine ⟨by decide +kernel, fun h => ?_⟩
  exact absurd h.balanced.low (by decide +kernel)

end DelayLedger

end JitterBuffer

end Tgvoip
