import Tgvoip.Net.JitterDelay

/-!
# PlaysForward — whether playback goes back

`nextFetchTimestamp` is moved by `HandleInput`, where the delay is above 5
and by what `put` gives up, and by `HandleOutput`, at the start and for each
packet (the model is in `Net/JitterBuffer`). `Playback` keeps what was
fetched since the last resync beside the buffer.

What `put` gives up lies between `nextFetchTimestamp` and the timestamp. At
the start the position is moved by the delay less the minimum delay, which
is negative where the minimum is the greater of the two: the check before it
asks for a delay above 5 only. The positions are `int32_t`; `Room` asks for
the start to go forward, and for each step to be below `2^31`.
-/

namespace Tgvoip

open Runs

/-! ## Sums of timestamps -/

theorem toNat_add_toInt32 (n : Int32) (x : UInt32) :
    (n + x.toInt32).toUInt32.toNat = (n.toUInt32.toNat + x.toNat) % 2 ^ 32 := by
  rw [Int32.toUInt32_add, UInt32.toNat_add]
  rfl

theorem toNat_succ (n : Int32) :
    (n + 1).toUInt32.toNat = (n.toUInt32.toNat + 1) % 2 ^ 32 :=
  toNat_add_toInt32 n 1

theorem toInt_succ (n : Int32) :
    (n + 1).toInt = if n.toInt = 2 ^ 31 - 1 then -2 ^ 31 else n.toInt + 1 := by
  have hbefore := toInt_eq_toNat n
  have hafter := toInt_eq_toNat (n + 1)
  have hlt := n.toUInt32.toNat_lt
  rw [toNat_succ] at hafter
  split_ifs at hbefore hafter ⊢ <;> omega

/-! ## Puts -/

namespace JitterArray

variable {β : Type*} {a : JitterArray β} {seq : UInt32} {b : β}

theorem count_le_slots (a : JitterArray β) : a.count ≤ jitterSlotCount := by
  unfold count
  split_ifs
  · exact Nat.zero_le _
  · decide
  · exact Ring.filled_le _ _ _ _

/-- What is given up lies between the oldest seq and the one that is put. -/
theorem put_fst (a : JitterArray β) (seq : UInt32) (b : β) :
    (a.put seq b).1 = 0 ∨ (a.empty = false ∧
      (a.put seq b).1.toNat + jitterSlotCount + a.backSeq.toNat = seq.toNat) := by
  unfold put
  split_ifs with hempty hold
  · exact .inl rfl
  · exact .inl rfl
  · dsimp only
    split_ifs with hfar
    · right
      have h64 : (64 : UInt32).toNat = jitterSlotCount := rfl
      have hdiff := toNat_sub_of_ge hold
      rw [gt_iff_lt, UInt32.lt_iff_toNat_lt, h64] at hfar
      have hgiven : (seq - a.backSeq - 64).toNat = (seq - a.backSeq).toNat - jitterSlotCount :=
        UInt32.toNat_sub_of_le _ _ (by rw [UInt32.le_iff_toNat_le, h64]; omega)
      exact ⟨by simpa using hempty, by omega⟩
    · exact .inl rfl

end JitterArray

namespace JitterBuffer

variable {β : Type*} {outOfRange : ℤ → Int32} {s : JitterBuffer β} {buf : β} {timestamp : UInt32}
  {isEC : Bool}

/-! ## HandleInput -/

/-- Nothing in the array is older than `seq`. -/
def From (s : JitterBuffer β) (seq : UInt32) (isEC : Bool) : Prop :=
  (s.slots isEC).empty = false → seq ≤ (s.slots isEC).backSeq

theorem from_advance (s : JitterBuffer β) (seq : UInt32) (isEC : Bool) :
    (s.advance seq).From seq isEC := by
  intro hleft
  rw [slots_advance] at hleft ⊢
  exact JitterArray.le_backSeq_advance hleft

/-- **The put** goes forward, and not round. -/
theorem next_putSlot {seq : UInt32} (buf : β) (hsmall : timestamp.toNat < 2 ^ 31)
    (hseq : seq = s.nextFetchTimestamp.toUInt32 ∨ seq = (s.nextFetchTimestamp - 1).toUInt32)
    (hfrom : s.From seq isEC) :
    ∃ given : ℕ, given < 2 ^ 31 ∧ (s.putSlot buf timestamp isEC).nextFetchTimestamp.toInt =
      s.nextFetchTimestamp.toInt + given := by
  have hnext : (s.putSlot buf timestamp isEC).nextFetchTimestamp =
      s.nextFetchTimestamp + ((s.slots isEC).put timestamp buf).1.toInt32 := by
    unfold putSlot
    cases isEC <;> rfl
  rw [hnext]
  rcases (s.slots isEC).put_fst timestamp buf with hzero | ⟨hleft, hgiven⟩
  · refine ⟨0, by decide, ?_⟩
    rw [hzero]
    exact (congrArg Int32.toInt (Int32.add_zero s.nextFetchTimestamp)).trans (Int.add_zero _).symm
  · have hback := UInt32.le_iff_toNat_le.mp (hfrom hleft)
    have hpred := toNat_pred s.nextFetchTimestamp
    have hsum := toNat_add_toInt32 s.nextFetchTimestamp ((s.slots isEC).put timestamp buf).1
    have hbefore := toInt_eq_toNat s.nextFetchTimestamp
    have hafter := toInt_eq_toNat
      (s.nextFetchTimestamp + ((s.slots isEC).put timestamp buf).1.toInt32)
    have hlt := s.nextFetchTimestamp.toUInt32.toNat_lt
    have hcount : jitterSlotCount = 64 := rfl
    refine ⟨((s.slots isEC).put timestamp buf).1.toNat, by omega, ?_⟩
    rw [hsum] at hafter
    rcases hseq with rfl | rfl <;> split_ifs at hbefore hafter <;> omega

theorem next_store (hsmall : timestamp.toNat < 2 ^ 31)
    (hfrom : s.From (s.nextFetchTimestamp - 1).toUInt32 isEC) :
    s.nextFetchTimestamp.toInt ≤ (s.store buf timestamp isEC).nextFetchTimestamp.toInt ↔
      (5 < s.getCurrentDelay → s.nextFetchTimestamp.toInt ≠ 2 ^ 31 - 1) := by
  have hlast : ∃ lastPutTimestamp, (if timestamp > s.lastPutTimestamp then
      { s with lastPutTimestamp := timestamp } else s) = { s with lastPutTimestamp } := by
    split_ifs
    · exact ⟨_, rfl⟩
    · exact ⟨s.lastPutTimestamp, rfl⟩
  obtain ⟨lastPutTimestamp, hlast⟩ := hlast
  unfold store
  rw [hlast]
  dsimp only
  split_ifs with hdelay
  · have hdelay' : 5 < s.getCurrentDelay := hdelay
    obtain ⟨given, hgiven, hnext⟩ := next_putSlot buf hsmall (.inl rfl)
      (from_advance { s with
        lastPutTimestamp, nextFetchTimestamp := s.nextFetchTimestamp + 1 }
        (s.nextFetchTimestamp + 1).toUInt32 isEC)
    have hsucc := toInt_succ s.nextFetchTimestamp
    have hnext' : (putSlot (advance { s with
        lastPutTimestamp, nextFetchTimestamp := s.nextFetchTimestamp + 1 }
        (s.nextFetchTimestamp + 1).toUInt32) buf timestamp isEC).nextFetchTimestamp.toInt =
        (s.nextFetchTimestamp + 1).toInt + given := hnext
    rw [hnext', hsucc]
    split_ifs with hmax
    · refine iff_of_false (by omega) fun h => h hdelay' hmax
    · refine iff_of_true (by omega) fun _ => hmax
  · have hdelay' : ¬ 5 < s.getCurrentDelay := hdelay
    obtain ⟨given, hgiven, hnext⟩ := next_putSlot (s := { s with lastPutTimestamp }) buf
      hsmall (.inr rfl) hfrom
    have hforward : s.nextFetchTimestamp.toInt ≤ s.nextFetchTimestamp.toInt + given := by omega
    exact iff_of_true (hforward.trans_eq hnext.symm) fun h => absurd h hdelay'

/-- **HandleInput** goes forward from where it resyncs to, or is, unless a drop takes it beyond
the greatest `int32_t`. -/
theorem next_handleInput (outOfRange : ℤ → Int32) (buf : β) (hsmall : timestamp.toNat < 2 ^ 31)
    (hfree : (s.slots isEC).has timestamp = false) :
    (s.settled outOfRange timestamp).nextFetchTimestamp.toInt ≤
        (s.handleInput outOfRange buf timestamp isEC).nextFetchTimestamp.toInt ↔
      (5 < (s.settled outOfRange timestamp).getCurrentDelay →
        (s.settled outOfRange timestamp).nextFetchTimestamp.toInt ≠ 2 ^ 31 - 1) := by
  have hfrom : (s.settled outOfRange timestamp).From
      ((s.settled outOfRange timestamp).nextFetchTimestamp - 1).toUInt32 isEC :=
    from_advance _ _ isEC
  -- a packet is too late at the position 0 only
  have hzero : ¬ timestamp < (s.settled outOfRange timestamp).nextFetchTimestamp.toUInt32 →
      timestamp < ((s.settled outOfRange timestamp).nextFetchTimestamp - 1).toUInt32 →
      (s.settled outOfRange timestamp).nextFetchTimestamp.toInt ≠ 2 ^ 31 - 1 := by
    intro hlate hold
    have hpred := toNat_pred (s.settled outOfRange timestamp).nextFetchTimestamp
    have hint := toInt_eq_toNat (s.settled outOfRange timestamp).nextFetchTimestamp
    rw [UInt32.lt_iff_toNat_lt] at hlate hold
    split_ifs at hint <;> omega
  rw [handleInput_eq outOfRange buf hfree]
  dsimp only
  split_ifs with hlate hmain hold hmain
  · exact next_store (s := { (s.settled outOfRange timestamp).countLate with
      lostPackets := (s.settled outOfRange timestamp).lostPackets - 1 }) hsmall hfrom
  · exact next_store hsmall hfrom
  · exact iff_of_true (le_refl _) fun _ => hzero hlate hold
  · exact iff_of_true (le_refl _) fun _ => hzero hlate hold
  · exact next_store hsmall hfrom

theorem next_settled (outOfRange : ℤ → Int32) (s : JitterBuffer β) (timestamp : UInt32) :
    (s.settled outOfRange timestamp).nextFetchTimestamp =
      if s.wasReset = true then toInt32 outOfRange (timestamp.toNat - s.minDelay)
      else s.nextFetchTimestamp := by
  unfold settled resync
  dsimp only
  split_ifs <;> rfl

/-! ## HandleOutput -/

/-- How many timestamps the first call after a resync drops. -/
def dropped (outOfRange : ℤ → Int32) (s : JitterBuffer β) : ℤ :=
  if s.first = true ∧ 5 < s.getCurrentDelay then
    s.getCurrentDelay - (s.getMinPacketCount outOfRange).toInt
  else 0

/-- **The start** drops so many where they are not negative, and there is room for them. -/
theorem next_startUp (outOfRange : ℤ → Int32) (s : JitterBuffer β) :
    (s.nextFetchTimestamp.toInt ≤ (s.startUp outOfRange).nextFetchTimestamp.toInt ∧
        (s.startUp outOfRange).nextFetchTimestamp.toInt =
          s.nextFetchTimestamp.toInt + s.dropped outOfRange) ↔
      0 ≤ s.dropped outOfRange ∧ s.nextFetchTimestamp.toInt + s.dropped outOfRange < 2 ^ 31 := by
  have hbefore := toInt_eq_toNat s.nextFetchTimestamp
  have hlt := s.nextFetchTimestamp.toUInt32.toNat_lt
  by_cases hdrops : s.first = true ∧ 5 < s.getCurrentDelay
  · have hdropped : s.dropped outOfRange =
        s.getCurrentDelay - (s.getMinPacketCount outOfRange).toInt := if_pos hdrops
    have hnext : (s.startUp outOfRange).nextFetchTimestamp = s.nextFetchTimestamp +
        (UInt32.ofNat s.getCurrentDelay -
          (s.getMinPacketCount outOfRange).toUInt32).toInt32 := by
      unfold startUp
      rw [if_pos hdrops.1]
      dsimp only
      split_ifs with hdelay
      · rfl
      · exact absurd hdrops.2 hdelay
    have hsum := toNat_add_toInt32 s.nextFetchTimestamp
      (UInt32.ofNat s.getCurrentDelay - (s.getMinPacketCount outOfRange).toUInt32)
    have hafter := toInt_eq_toNat (s.startUp outOfRange).nextFetchTimestamp
    have hmin := toInt_eq_toNat (s.getMinPacketCount outOfRange)
    have hminlt := (s.getMinPacketCount outOfRange).toUInt32.toNat_lt
    have hdelay : s.getCurrentDelay ≤ 64 :=
      max_le s.slotsEc.count_le_slots s.slotsMain.count_le_slots
    have hsize : s.getCurrentDelay < UInt32.size := Nat.lt_of_le_of_lt hdelay (by decide)
    rw [← hnext, UInt32.toNat_sub, UInt32.toNat_ofNat_of_lt' hsize] at hsum
    rw [hsum] at hafter
    rw [hdropped]
    split_ifs at hbefore hafter hmin <;> omega
  · have hdropped : s.dropped outOfRange = 0 := if_neg hdrops
    have hnext : (s.startUp outOfRange).nextFetchTimestamp = s.nextFetchTimestamp := by
      unfold startUp
      dsimp only
      split_ifs with hfirst hdelay
      · exact absurd ⟨hfirst, hdelay⟩ hdrops
      · rfl
      · rfl
    rw [hnext, hdropped]
    split_ifs at hbefore <;> omega

/-- Behind a packet, or none, is the next timestamp, but for a reset. -/
theorem next_handleOutput (h : ¬ s.Resets outOfRange) :
    (s.handleOutput outOfRange).2.nextFetchTimestamp =
      (s.startUp outOfRange).nextFetchTimestamp + 1 := by
  have hneed := (startUp_same outOfRange s).2
  unfold Resets handleOutput at h
  unfold handleOutput
  rw [← hneed] at h
  generalize s.startUp outOfRange = s' at h
  unfold fetch at h ⊢
  dsimp only at h ⊢
  split_ifs at h ⊢ with hfound hbuffering
  · rfl
  · have hbefore : s'.needBuffering = false := by simpa using hbuffering
    rcases resetAfterLosses_cases outOfRange { s' with
        outstandingDelayChange := s'.scaleDuration.2
        nextFetchTimestamp := s'.nextFetchTimestamp + 1
        lostCount := s'.lostCount + 1, lostPackets := s'.lostPackets + 1
        lostSinceReset := s'.lostSinceReset + 1 } with hsame | ⟨-, hafter⟩
    · rw [hsame]
    · exact absurd ⟨hbefore, hafter⟩ h
  · rfl

/-! ## Tick -/

theorem next_adjustMinDelay (s : JitterBuffer β) (stddevDelay : ℕ) :
    (s.adjustMinDelay outOfRange stddevDelay).nextFetchTimestamp = s.nextFetchTimestamp := by
  unfold adjustMinDelay
  dsimp only
  split_ifs <;> rfl

theorem next_adjustPlayback (s : JitterBuffer β) :
    s.adjustPlayback.nextFetchTimestamp = s.nextFetchTimestamp := by
  unfold adjustPlayback
  split_ifs <;> rfl

theorem next_measured (s : JitterBuffer β) :
    s.measured.nextFetchTimestamp = s.nextFetchTimestamp := by
  unfold measured
  dsimp only
  split_ifs <;> rfl

theorem next_tick (outOfRange : ℤ → Int32) (s : JitterBuffer β) (deviation : ℕ) :
    (s.tick outOfRange deviation).nextFetchTimestamp = s.nextFetchTimestamp := by
  rw [tick_eq, next_adjustPlayback]
  unfold moved
  split_ifs
  · exact (next_adjustMinDelay s.measured _).trans (next_measured s)
  · exact next_measured s

/-! ## What is played -/

/-- The buffer, and the timestamps that were fetched since the last resync. -/
structure Playback (β : Type*) where
  buffer : JitterBuffer β
  fetched : List ℤ := []

namespace Playback

variable {p : Playback β}

def step (outOfRange : ℤ → Int32) (p : Playback β) (call : Call β) : Playback β :=
  let buffer := p.buffer.step outOfRange call
  match call with
  | .handleInput _ timestamp isEC =>
      if p.buffer.Resyncs timestamp isEC then { buffer } else { p with buffer }
  | .handleOutput =>
      if p.buffer.Resets outOfRange then { buffer }
      else
        let timestamp := (p.buffer.startUp outOfRange).nextFetchTimestamp.toInt
        { buffer, fetched := timestamp :: p.fetched }
  | .tick _ => { p with buffer }
  | .reset => { p with buffer }
  | .setMinPacketCount _ => { p with buffer }
  | .getAndResetLostPacketCount => { p with buffer }

/-- **What a call may do to the position.** -/
def Forward (outOfRange : ℤ → Int32) (p : Playback β) (call : Call β) : Prop :=
  let s := p.buffer
  let next := (s.step outOfRange call).nextFetchTimestamp.toInt
  match call with
  | .handleInput _ timestamp isEC =>
      if s.Resyncs timestamp isEC then
        (toInt32 outOfRange (timestamp.toNat - s.minDelay)).toInt ≤ next
      else s.nextFetchTimestamp.toInt ≤ next
  | .handleOutput =>
      let fetches := (s.startUp outOfRange).nextFetchTimestamp.toInt
      (s.nextFetchTimestamp.toInt ≤ fetches ∧
          fetches = s.nextFetchTimestamp.toInt + s.dropped outOfRange) ∧
        fetches ∉ p.fetched ∧
        (¬ s.Resets outOfRange → next = fetches + 1)
  | _ => s.nextFetchTimestamp.toInt ≤ next

/-- What was fetched is passed. -/
def Passed (p : Playback β) : Prop := ∀ x ∈ p.fetched, x < p.buffer.nextFetchTimestamp.toInt

/-- The timestamps that arrive are below `2^31`. -/
def Small (_ : Playback β) : Call β → Prop
  | .handleInput _ timestamp _ => timestamp.toNat < 2 ^ 31
  | _ => True

instance (p : Playback β) : ∀ call, Decidable (Small p call)
  | .handleInput _ timestamp _ => inferInstanceAs (Decidable (timestamp.toNat < 2 ^ 31))
  | .handleOutput => .isTrue trivial
  | .tick _ => .isTrue trivial
  | .setMinPacketCount _ => .isTrue trivial
  | .reset => .isTrue trivial
  | .getAndResetLostPacketCount => .isTrue trivial

/-- **There is room for the step.** A drop upon put is not at the greatest `int32_t`; one at the
start does not drop less than nothing, and it and the fetch stay below `2^31`. -/
def Room (outOfRange : ℤ → Int32) (p : Playback β) : Call β → Prop
  | .handleInput _ timestamp isEC =>
      (p.buffer.slots isEC).has timestamp = false →
        5 < (p.buffer.settled outOfRange timestamp).getCurrentDelay →
          (p.buffer.settled outOfRange timestamp).nextFetchTimestamp.toInt ≠ 2 ^ 31 - 1
  | .handleOutput =>
      0 ≤ p.buffer.dropped outOfRange ∧
        p.buffer.nextFetchTimestamp.toInt + p.buffer.dropped outOfRange +
          (if p.buffer.Resets outOfRange then 0 else 1) < 2 ^ 31
  | _ => True

instance (outOfRange : ℤ → Int32) (p : Playback β) : ∀ call, Decidable (Room outOfRange p call)
  | .handleInput _ timestamp isEC =>
    inferInstanceAs (Decidable ((p.buffer.slots isEC).has timestamp = false →
      5 < (p.buffer.settled outOfRange timestamp).getCurrentDelay →
        (p.buffer.settled outOfRange timestamp).nextFetchTimestamp.toInt ≠ 2 ^ 31 - 1))
  | .handleOutput => inferInstanceAs (Decidable (_ ∧ _))
  | .tick _ => .isTrue trivial
  | .setMinPacketCount _ => .isTrue trivial
  | .reset => .isTrue trivial
  | .getAndResetLostPacketCount => .isTrue trivial

theorem forward_handleInput_iff (hsmall : timestamp.toNat < 2 ^ 31) :
    p.Forward outOfRange (.handleInput buf timestamp isEC) ↔
      p.Room outOfRange (.handleInput buf timestamp isEC) := by
  cases hfree : (p.buffer.slots isEC).has timestamp with
  | true =>
      have hresyncs : ¬ p.buffer.Resyncs timestamp isEC := fun h =>
        Bool.noConfusion (hfree.symm.trans h.1)
      have hstep : p.buffer.step outOfRange (.handleInput buf timestamp isEC) = p.buffer :=
        handleInput_of_has hfree
      refine iff_of_true ?_ fun h => ?_
      · unfold Forward
        dsimp only
        rw [if_neg hresyncs, hstep]
      · rw [hfree] at h
        cases h
  | false =>
      have hiff := next_handleInput (s := p.buffer) outOfRange buf hsmall hfree
      have hforward : p.Forward outOfRange (.handleInput buf timestamp isEC) ↔
          (p.buffer.settled outOfRange timestamp).nextFetchTimestamp.toInt ≤
            (p.buffer.handleInput outOfRange buf timestamp isEC).nextFetchTimestamp.toInt := by
        have hsettled := next_settled outOfRange p.buffer timestamp
        unfold Forward
        dsimp only
        by_cases hresyncs : p.buffer.Resyncs timestamp isEC
        · rw [if_pos hresyncs, hsettled, if_pos hresyncs.2]
          exact Iff.rfl
        · rw [if_neg hresyncs, hsettled, if_neg fun hwas => hresyncs ⟨hfree, hwas⟩]
          exact Iff.rfl
      exact (hforward.trans hiff).trans ⟨fun h _ => h, fun h => h hfree⟩

theorem forward_handleOutput_iff (hpassed : p.Passed) :
    p.Forward outOfRange .handleOutput ↔ p.Room outOfRange .handleOutput := by
  have hstart := next_startUp outOfRange p.buffer
  have hsucc := toInt_succ (p.buffer.startUp outOfRange).nextFetchTimestamp
  have hnew : p.buffer.nextFetchTimestamp.toInt ≤
      (p.buffer.startUp outOfRange).nextFetchTimestamp.toInt →
      (p.buffer.startUp outOfRange).nextFetchTimestamp.toInt ∉ p.fetched := by
    intro hle hmem
    have hlt := hpassed _ hmem
    omega
  unfold Forward Room
  dsimp only
  by_cases hresets : p.buffer.Resets outOfRange
  · rw [if_pos hresets, Int.add_zero, ← hstart]
    exact ⟨fun h => h.1, fun h => ⟨h, hnew h.1, fun hno => absurd hresets hno⟩⟩
  · have hnext : (p.buffer.step outOfRange .handleOutput).nextFetchTimestamp =
        (p.buffer.startUp outOfRange).nextFetchTimestamp + 1 := next_handleOutput hresets
    rw [if_neg hresets, hnext]
    constructor
    · rintro ⟨hforward, -, hafter⟩
      have hroom := hstart.mp hforward
      have hfetched := hafter hresets
      rw [hsucc] at hfetched
      split_ifs at hfetched with hmax
      · omega
      · exact ⟨hroom.1, by omega⟩
    · rintro ⟨hzero, hlt⟩
      have hforward := hstart.mpr ⟨hzero, by omega⟩
      refine ⟨hforward, hnew hforward.1, fun _ => ?_⟩
      rw [hsucc, if_neg (by omega)]

theorem forward_iff_room (hpassed : p.Passed) {call : Call β} (hsmall : p.Small call) :
    p.Forward outOfRange call ↔ p.Room outOfRange call := by
  cases call with
  | handleInput buf timestamp isEC => exact forward_handleInput_iff hsmall
  | handleOutput => exact forward_handleOutput_iff hpassed
  | tick deviation =>
      refine iff_of_true ?_ trivial
      exact le_of_eq (congrArg Int32.toInt (next_tick outOfRange _ deviation).symm)
  | setMinPacketCount count => exact iff_of_true (le_refl _) trivial
  | reset => exact iff_of_true (le_refl _) trivial
  | getAndResetLostPacketCount => exact iff_of_true (le_refl _) trivial

/-- **The step lemma.** -/
theorem Passed.step (hpassed : p.Passed) {call : Call β} (hforward : p.Forward outOfRange call) :
    (p.step outOfRange call).Passed := by
  have hkeeps : p.buffer.nextFetchTimestamp.toInt ≤
      (p.buffer.step outOfRange call).nextFetchTimestamp.toInt →
      Passed { p with buffer := p.buffer.step outOfRange call } :=
    fun hle x hx => (hpassed x hx).trans_le hle
  unfold Playback.step
  cases call with
  | handleInput buf timestamp isEC =>
      unfold Forward at hforward
      dsimp only at hforward ⊢
      split_ifs at hforward ⊢ with hresyncs
      · exact fun x hx => absurd hx List.not_mem_nil
      · exact hkeeps hforward
  | handleOutput =>
      obtain ⟨hstart, -, hafter⟩ := hforward
      dsimp only
      split_ifs with hresets
      · exact fun x hx => absurd hx List.not_mem_nil
      · have hnext := hafter hresets
        intro x hx
        rcases List.mem_cons.mp hx with rfl | hx
        · dsimp only
          omega
        · have hlt := hpassed x hx
          dsimp only
          omega
  | tick deviation => exact hkeeps hforward
  | setMinPacketCount count => exact hkeeps hforward
  | reset => exact hkeeps hforward
  | getAndResetLostPacketCount => exact hkeeps hforward

/-- **When playback goes forward.** In every run the position does what the calls may do to it
exactly as long as there is room. -/
theorem forward_iff (outOfRange : ℤ → Int32) (s : JitterBuffer β) {calls : List (Call β)}
    (hsmall : Along (step outOfRange) Small { buffer := s } calls) :
    Along (step outOfRange) (Forward outOfRange) { buffer := s } calls ↔
      Along (step outOfRange) (Room outOfRange) { buffer := s } calls :=
  along_congr (I := Passed) (fun _ _ h hsmall => forward_iff_room h hsmall)
    (fun _ _ h hsmall hroom => h.step ((forward_iff_room h hsmall).mpr hroom))
    (fun _ hx => absurd hx List.not_mem_nil) hsmall

/-- The buffer fills, the seventh packet comes as a copy only, the ninth drops what is too much,
and the buffer plays on until nothing is left. -/
def forwardRun : List (Call ℕ) :=
  [.handleInput 0 100 false, .handleInput 1 101 false, .handleInput 2 102 false,
    .handleInput 3 103 false, .handleInput 4 104 false, .handleInput 5 105 false, .handleOutput,
    .tick 3, .handleInput 6 106 true, .handleInput 7 107 false, .handleInput 8 108 false] ++
    .replicate 16 .handleOutput

theorem forward_run :
    Along (step fun _ => Int32.minValue) (Forward fun _ => Int32.minValue)
      { buffer := .new noConfig 20 } forwardRun :=
  (forward_iff _ _ (by decide +kernel)).mpr (by decide +kernel)

/-- The delay was raised to 7, and seven packets in order count as 6: the start goes back. -/
theorem forward_fails :
    let calls : List (Call ℕ) := [.tick 25, .handleInput 0 100 false, .handleInput 1 101 false,
      .handleInput 2 102 false, .handleInput 3 103 false, .handleInput 4 104 false,
      .handleInput 5 105 false, .handleInput 6 106 false, .handleOutput]
    Along (step fun _ => Int32.minValue) Small { buffer := .new noConfig 20 } calls ∧
      ¬ Along (step fun _ => Int32.minValue) (Forward fun _ => Int32.minValue)
        { buffer := .new noConfig 20 } calls := by
  refine ⟨?_, fun h => ?_⟩
  · refine ⟨trivial, ?_, ?_, ?_, ?_, ?_, ?_, ?_, trivial, trivial⟩ <;> simp only [Small] <;> decide
  · obtain ⟨-, -, -, -, -, -, -, -, ⟨⟨hback, -⟩, -⟩, -⟩ := h
    exact absurd hback (by decide +kernel)

end Playback

end JitterBuffer

end Tgvoip
