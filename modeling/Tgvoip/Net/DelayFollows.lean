import Tgvoip.Net.JitterDelay

/-!
# DelayFollows — whether the delay reaches the one that is measured

`Tick` moves `minDelay` by one packet towards the measured delay, unless a
hold-off counter keeps it (`Net/JitterDelay`). `dontDecMinDelayFor` is
counted down while no packet is late, so a delay that is too large is
lowered in the end: `Above` counts the ticks that this takes. Nothing counts
down `dontIncMinDelayFor`, which every raise sets: a delay that is too small
is raised once at most (`Apart`).

A reset for losses holds the delay for longer each time. The runs here start
behind the last one.
-/

namespace Tgvoip

open Runs

namespace JitterBuffer

variable {β : Type*} {outOfRange : ℤ → Int32} {s : JitterBuffer β} {target n k : ℕ}
  {deviation : ℕ}

/-! ## A tick -/

/-- What `Tick` leaves of the hold-off of a decrease. -/
def heldOff (t : DelayTerms) : ℕ :=
  if (t.lateHistory.add t.latePacketCount).max = 0 then t.dontDecMinDelayFor - 1
  else t.dontDecMinDelayFor

/-- `Tick`, but for the change of the delay. -/
theorem terms_tick_gates (outOfRange : ℤ → Int32) (s : JitterBuffer β) (deviation : ℕ) :
    { (s.tick outOfRange deviation).terms with outstandingDelayChange := 0 } =
      let t : DelayTerms := { s.terms with
        lateHistory := s.lateHistory.add s.latePacketCount, latePacketCount := 0
        dontDecMinDelayFor := heldOff s.terms, outstandingDelayChange := 0 }
      if 0 < s.pull outOfRange deviation then
        if s.dontIncMinDelayFor = 0 then { t with
          minDelay := s.minDelay + 1, dontDecMinDelayFor := 100, dontIncMinDelayFor := 25 }
        else { t with dontDecMinDelayFor := 100 }
      else if s.pull outOfRange deviation < 0 ∧ heldOff s.terms = 0 then { t with
        minDelay := s.minDelay - 1, dontDecMinDelayFor := 25 }
      else t := by
  have hbefore : s.measured.terms = { s.terms with
      lateHistory := s.lateHistory.add s.latePacketCount, latePacketCount := 0
      dontDecMinDelayFor := heldOff s.terms } := terms_measured s
  have hdelay : s.measured.minDelay = s.minDelay := congrArg DelayTerms.minDelay hbefore
  have hinc : s.measured.dontIncMinDelayFor = s.dontIncMinDelayFor :=
    congrArg DelayTerms.dontIncMinDelayFor hbefore
  have hdec : s.measured.dontDecMinDelayFor = heldOff s.terms :=
    congrArg DelayTerms.dontDecMinDelayFor hbefore
  rw [terms_tick, terms_adjustMinDelay, pull_measured, hbefore, hdelay, hinc, hdec]
  dsimp only
  split_ifs <;> rfl

theorem pull_pos (h : s.minDelay < s.stddevDelay deviation)
    (hraises : s.stddevDelay deviation < s.minDelay + 2 ^ 31 ∨
      ∀ value, 0 < (outOfRange value).toInt) : 0 < s.pull outOfRange deviation := by
  have hpos : 0 < (toInt32 outOfRange (s.stddevDelay deviation - s.minDelay)).toInt := by
    unfold toInt32
    split_ifs with hrange
    · rw [Int32.toInt_ofInt_of_le hrange.1 hrange.2]
      omega
    · exact hraises.resolve_left (by omega) _
  unfold pull
  omega

/-- What is too large for an `int32_t` may be taken for a delay to raise. -/
theorem pull_wraps (h : s.stddevDelay deviation + 2 ^ 31 < s.minDelay)
    (hraises : ∀ value, 0 < (outOfRange value).toInt) : 0 < s.pull outOfRange deviation := by
  have hpos : 0 < (toInt32 outOfRange (s.stddevDelay deviation - s.minDelay)).toInt := by
    unfold toInt32
    rw [if_neg (by omega)]
    exact hraises _
  unfold pull
  omega

/-! ## A delay that is lowered -/

/-- So many of the newest counts of late packets are zero, where `Tick` is next. -/
def Calm (k : ℕ) (t : DelayTerms) : Prop :=
  ∀ i < k, (t.lateHistory.add t.latePacketCount).get i = 0

theorem Calm.heldOff_eq {t : DelayTerms} (h : Calm 64 t) :
    heldOff t = t.dontDecMinDelayFor - 1 :=
  if_pos (HistoricBuffer.max_eq_zero h)

theorem heldOff_le (t : DelayTerms) : heldOff t ≤ t.dontDecMinDelayFor := by
  unfold heldOff
  split_ifs <;> omega

/-- The counts of `t` move one back, and the newest is zero. -/
theorem Calm.next {t t' : DelayTerms} (h : Calm k t)
    (hhistory : t'.lateHistory = t.lateHistory.add t.latePacketCount)
    (hlate : t'.latePacketCount = 0) (hk : k < 64) : Calm (k + 1) t' := by
  intro i hi
  rw [hhistory, hlate]
  cases i with
  | zero => exact HistoricBuffer.get_add_zero _ _
  | succ i => exact (HistoricBuffer.get_add_succ _ _ (by omega)).trans (h i (by omega))

/-- The delay is above the target, and at most so many ticks lower it there. -/
structure Above (target n : ℕ) (t : DelayTerms) : Prop where
  above : target < t.minDelay
  near : t.minDelay ≤ target + 2 ^ 31
  rank : ∃ k ≤ 64, Calm k t ∧
    64 - k + 26 * (t.minDelay - target).toNat + t.dontDecMinDelayFor ≤ n

/-- At most so many ticks lead to the target. -/
def Near (target n : ℕ) (t : DelayTerms) : Prop :=
  t.minDelay = target ∨
    (t.minDelay + 1 = target ∧ t.dontIncMinDelayFor = 0 ∧ 0 < n) ∨
    Above target n t

theorem Near.minDelay_eq {t : DelayTerms} (h : Near target 0 t) : t.minDelay = target := by
  rcases h with heq | ⟨-, -, hpos⟩ | ⟨habove, -, k, -, -, hrank⟩
  · exact heq
  · omega
  · omega

/-- The change of the delay does not matter. -/
theorem near_settled {t : DelayTerms} :
    Near target n { t with outstandingDelayChange := 0 } ↔ Near target n t :=
  or_congr Iff.rfl (or_congr Iff.rfl
    ⟨fun h => ⟨h.above, h.near, h.rank⟩, fun h => ⟨h.above, h.near, h.rank⟩⟩)

theorem pull_neg (h : s.stddevDelay deviation < s.minDelay)
    (hnear : s.minDelay ≤ s.stddevDelay deviation + 2 ^ 31) :
    s.pull outOfRange deviation = -1 := by
  have hmeasures : s.Measures deviation := ⟨by omega, by omega⟩
  rw [hmeasures.pull_eq]
  omega

/-- What is waited for is a calm history, and then, for each packet of the delay, the end of
the hold-off. -/
theorem Above.tick (h : Above target n s.terms) (hmeasured : s.stddevDelay deviation = target) :
    Near target (n - 1) (s.tick outOfRange deviation).terms := by
  obtain ⟨habove, hnear, k, hk, hcalm, hrank⟩ := h
  have habove' : (target : ℤ) < s.minDelay := habove
  have hnear' : s.minDelay ≤ target + 2 ^ 31 := hnear
  have hrank' : 64 - k + 26 * (s.minDelay - target).toNat + s.dontDecMinDelayFor ≤ n := hrank
  have hpull : s.pull outOfRange deviation = -1 :=
    pull_neg (by rwa [hmeasured]) (by rwa [hmeasured])
  have hheld : heldOff s.terms ≤ s.dontDecMinDelayFor := heldOff_le s.terms
  have hcounted : k = 64 → heldOff s.terms = s.dontDecMinDelayFor - 1 := by
    rintro rfl
    exact hcalm.heldOff_eq
  -- the history does not get calmer than it is long
  have hshorter : Calm (min k 63) s.terms := fun i hi => hcalm i (by omega)
  rw [← near_settled, terms_tick_gates, hpull]
  dsimp only
  rw [if_neg (by decide)]
  by_cases hzero : heldOff s.terms = 0
  · rw [if_pos ⟨by decide, hzero⟩]
    by_cases hlast : s.minDelay - 1 = target
    · exact .inl hlast
    · refine .inr (.inr ⟨?_, ?_, min k 63 + 1, by omega, ?_, ?_⟩)
      · dsimp only
        omega
      · dsimp only
        omega
      · exact hshorter.next rfl rfl (by omega)
      · dsimp only
        omega
  · rw [if_neg fun hlowers => hzero hlowers.2]
    refine .inr (.inr ⟨habove, hnear, min k 63 + 1, by omega, ?_, ?_⟩)
    · exact hshorter.next rfl rfl (by omega)
    · show 64 - (min k 63 + 1) + 26 * (s.minDelay - target).toNat + heldOff s.terms ≤ n - 1
      omega

theorem Near.tick (h : Near target n s.terms) (hmeasured : s.stddevDelay deviation = target) :
    Near target (n - 1) (s.tick outOfRange deviation).terms := by
  rcases h with heq | ⟨hnext, hinc, -⟩ | habove
  · have heq' : s.minDelay = target := heq
    have hmeasures : s.Measures deviation := by
      unfold Measures
      omega
    have hpull : s.pull outOfRange deviation = 0 := by
      rw [hmeasures.pull_eq]
      omega
    have hgates := congrArg DelayTerms.minDelay (terms_tick_gates outOfRange s deviation)
    rw [hpull] at hgates
    exact .inl (hgates.trans heq)
  · have hnext' : s.minDelay + 1 = target := hnext
    have hpull : 0 < s.pull outOfRange deviation := pull_pos (by omega) (.inl (by omega))
    have hgates := congrArg DelayTerms.minDelay (terms_tick_gates outOfRange s deviation)
    have hinc' : s.dontIncMinDelayFor = 0 := hinc
    dsimp only at hgates
    rw [if_pos hpull, if_pos hinc'] at hgates
    exact .inl (hgates.trans hnext)
  · exact habove.tick hmeasured

/-! ## Runs -/

/-- `Tick` measures the target, no packet is late, and there is no reset for losses. -/
def Steady (outOfRange : ℤ → Int32) (target : ℕ) (s : JitterBuffer β) : Call β → Prop
  | .setMinPacketCount _ => False
  | .reset => True
  | .handleInput buf timestamp isEC =>
      (s.handleInput outOfRange buf timestamp isEC).latePacketCount = s.latePacketCount
  | .handleOutput => ¬ s.Resets outOfRange
  | .tick deviation => s.stddevDelay deviation = target
  | .getAndResetLostPacketCount => True

def Call.isTick : Call β → Bool
  | .tick _ => true
  | _ => false

theorem Near.reset (h : Near target n s.terms) : Near target n s.reset.terms := by
  rcases h with heq | hraised | ⟨habove, hnear, k, hk, hcalm, hrank⟩
  · exact .inl heq
  · exact .inr (.inl hraised)
  · refine .inr (.inr ⟨habove, hnear, k, hk, ?_, hrank⟩)
    intro i hi
    have hbefore := hcalm i hi
    cases i with
    | zero =>
        rw [HistoricBuffer.get_add_zero] at hbefore ⊢
        exact hbefore
    | succ i =>
        exact HistoricBuffer.get_add_succ s.lateHistory.reset _ (by omega)

/-- **The step lemma.** -/
theorem Near.step (h : Near target n s.terms) {call : Call β}
    (hsteady : s.Steady outOfRange target call) :
    Near target (if call.isTick then n - 1 else n) (s.step outOfRange call).terms := by
  cases call with
  | setMinPacketCount count => exact hsteady.elim
  | reset => exact h.reset
  | handleInput buf timestamp isEC =>
      have hterms := terms_handleInput outOfRange s buf timestamp isEC
      have hlate : (s.handleInput outOfRange buf timestamp isEC).latePacketCount =
          s.latePacketCount := hsteady
      rw [← near_settled] at h ⊢
      show Near target n
        { (s.handleInput outOfRange buf timestamp isEC).terms with outstandingDelayChange := 0 }
      rw [hterms, hlate]
      exact h
  | handleOutput =>
      have hterms := terms_handleOutput outOfRange s
      rw [if_neg hsteady] at hterms
      rw [← near_settled] at h ⊢
      show Near target n
        { (s.handleOutput outOfRange).2.terms with outstandingDelayChange := 0 }
      rw [hterms]
      exact h
  | tick deviation => exact h.tick hsteady
  | getAndResetLostPacketCount => exact h

/-- Behind a number of ticks the delay is the target, for as long as the ticks measure it. -/
def Follows (outOfRange : ℤ → Int32) (s : JitterBuffer β) (target : ℕ) : Prop :=
  ∃ n, ∀ calls, Along (step outOfRange) (Steady outOfRange target) s calls →
    n ≤ calls.countP Call.isTick → (exec (step outOfRange) s calls).minDelay = target

/-- The delay is to be lowered, or to be raised by one packet while nothing holds it. -/
def Reaches (s : JitterBuffer β) (target : ℕ) : Prop :=
  (target ≤ s.minDelay ∧ s.minDelay ≤ target + 2 ^ 31) ∨
    (s.minDelay + 1 = target ∧ s.dontIncMinDelayFor = 0)

theorem Reaches.near (h : s.Reaches target) : ∃ n, Near target n s.terms := by
  rcases h with ⟨hlow, hhigh⟩ | ⟨hnext, hinc⟩
  · rcases eq_or_lt_of_le hlow with heq | hlt
    · exact ⟨0, .inl heq.symm⟩
    · exact ⟨_, .inr (.inr ⟨hlt, hhigh, 0, by omega, fun i hi => absurd hi (by omega), le_refl _⟩)⟩
  · exact ⟨1, .inr (.inl ⟨hnext, hinc, Nat.one_pos⟩)⟩

theorem Reaches.follows (h : s.Reaches target) (outOfRange : ℤ → Int32) :
    s.Follows outOfRange target := by
  obtain ⟨n, hn⟩ := h.near
  refine ⟨n, fun calls hrun hticks => ?_⟩
  have hend := hrun.countdown (I := fun n (s : JitterBuffer β) => Near target n s.terms)
    (fun _ _ _ h hsteady => h.step hsteady) hn
  rw [Nat.sub_eq_zero_of_le hticks] at hend
  exact hend.minDelay_eq

/-! ## A delay that is not raised -/

/-- The delay is too small, and what is left of it is not raised; or it is so large that it is
taken for too small. -/
def Apart (outOfRange : ℤ → Int32) (target : ℕ) (s : JitterBuffer β) : Prop :=
  (s.minDelay < target ∧ (s.dontIncMinDelayFor = 0 → s.minDelay + 1 < target) ∧
      (target < s.minDelay + 2 ^ 31 ∨ ∀ value, 0 < (outOfRange value).toInt)) ∨
    (target + 2 ^ 31 < s.minDelay ∧ ∀ value, 0 < (outOfRange value).toInt)

theorem Apart.ne (h : s.Apart outOfRange target) : s.minDelay ≠ target := by
  rcases h with ⟨hbelow, -, -⟩ | ⟨habove, -⟩
  · exact hbelow.ne
  · intro heq
    omega

/-- The raise sets the counter that nothing counts down. -/
theorem Apart.tick (h : s.Apart outOfRange target) (hmeasured : s.stddevDelay deviation = target) :
    (s.tick outOfRange deviation).Apart outOfRange target := by
  have hpull : 0 < s.pull outOfRange deviation := by
    rcases h with ⟨hbelow, -, hraises⟩ | ⟨habove, hraises⟩
    · exact pull_pos (by rwa [hmeasured]) (by rwa [hmeasured])
    · exact pull_wraps (by omega) hraises
  have hgates := terms_tick_gates outOfRange s deviation
  have hdelay := congrArg DelayTerms.minDelay hgates
  have hinc := congrArg DelayTerms.dontIncMinDelayFor hgates
  simp only [hpull, if_true, terms] at hdelay hinc
  by_cases hheld : s.dontIncMinDelayFor = 0
  · rw [if_pos hheld] at hdelay hinc
    dsimp only at hdelay hinc
    rcases h with ⟨hbelow, hnext, hraises⟩ | ⟨habove, hraises⟩
    · have hlt := hnext hheld
      refine .inl ⟨by omega, fun h => by omega, hraises.imp_left fun h => by omega⟩
    · exact .inr ⟨by omega, hraises⟩
  · rw [if_neg hheld] at hdelay hinc
    dsimp only at hdelay hinc
    rcases h with ⟨hbelow, hnext, hraises⟩ | ⟨habove, hraises⟩
    · refine .inl ⟨by omega, fun h => by omega, hraises.imp_left fun h => by omega⟩
    · exact .inr ⟨by omega, hraises⟩

/-- Ticks that measure the target do not lead to it. -/
theorem Apart.ticks (n : ℕ) (h : s.Apart outOfRange target) (hlow : s.minMinDelay ≤ target)
    (hhigh : target ≤ s.maxMinDelay) :
    Along (step outOfRange) (Steady outOfRange target) s (List.replicate n (.tick target)) ∧
      (exec (step outOfRange) s (List.replicate n (.tick target))).Apart outOfRange target := by
  induction n generalizing s with
  | zero => exact ⟨trivial, h⟩
  | succ n ih =>
      obtain ⟨hmin, hmax⟩ := bounds_tick outOfRange s target
      have hmeasured : s.stddevDelay target = target := by
        unfold stddevDelay clamp
        rw [if_neg (by omega), if_neg (by omega)]
      obtain ⟨hrun, hend⟩ := ih (h.tick hmeasured) (by omega) (by omega)
      exact ⟨⟨hmeasured, hrun⟩, hend⟩

theorem Apart.not_follows (h : s.Apart outOfRange target) (hlow : s.minMinDelay ≤ target)
    (hhigh : target ≤ s.maxMinDelay) : ¬ s.Follows outOfRange target := by
  rintro ⟨n, hfollows⟩
  obtain ⟨hrun, hend⟩ := h.ticks n hlow hhigh
  refine hend.ne (hfollows _ hrun ?_)
  rw [List.countP_replicate]
  exact le_refl n

/-- **When the delay follows what is measured.** From any state, and for any target between its
bounds: where the delay is to be lowered, or to be raised by one packet and was not
raised before. -/
theorem delay_follows_iff (hlow : s.minMinDelay ≤ target) (hhigh : target ≤ s.maxMinDelay) :
    (∀ outOfRange, s.Follows outOfRange target) ↔ s.Reaches target := by
  refine ⟨fun hfollows => ?_, fun h => h.follows⟩
  by_contra hreaches
  have hmax : 0 < Int32.maxValue.toInt := by decide
  have hraises : ∀ value, 0 < ((fun _ => Int32.maxValue : ℤ → Int32) value).toInt := fun _ => hmax
  have hapart : s.Apart (fun _ => Int32.maxValue) target := by
    unfold Reaches at hreaches
    rw [not_or] at hreaches
    obtain ⟨hdown, hup⟩ := hreaches
    rcases lt_or_ge s.minDelay target with hbelow | habove
    · refine .inl ⟨hbelow, fun hinc => ?_, .inr hraises⟩
      have hne : s.minDelay + 1 ≠ target := fun heq => hup ⟨heq, hinc⟩
      omega
    · refine .inr ⟨?_, hraises⟩
      by_contra hnear
      exact hdown ⟨habove, by omega⟩
  exact hapart.not_follows hlow hhigh (hfollows _)

/-- A delay that is lowered. -/
theorem delay_follows_six :
    let s : JitterBuffer ℕ := { (.new noConfig 20 : JitterBuffer ℕ) with minDelay := 10 }
    (∀ outOfRange, s.Follows outOfRange 6) ↔ s.Reaches 6 :=
  delay_follows_iff (by decide) (by decide)

/-- A new buffer is not raised by two packets. -/
theorem delay_follows_fails :
    let s : JitterBuffer ℕ := .new noConfig 20
    (s.minMinDelay ≤ 8 ∧ 8 ≤ s.maxMinDelay) ∧ ∀ outOfRange, ¬ s.Follows outOfRange 8 := by
  intro s
  refine ⟨by decide, fun outOfRange => Apart.not_follows (.inl ⟨?_, ?_, ?_⟩) ?_ ?_⟩
  · decide
  · exact fun _ => by decide
  · exact .inl (by decide)
  · decide
  · decide

end JitterBuffer

end Tgvoip
