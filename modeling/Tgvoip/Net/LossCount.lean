import Mathlib.Data.Finset.Card
import Tgvoip.Net.PlaysForward

/-!
# LossCount — what the count of lost packets counts

`HandleOutput` adds one to `lostPackets` for a timestamp that it finds no
packet for, once the buffering is over. `HandleInput` takes one away for a
main packet that is late, and `GetAndResetLostPacketCount` hands the count
out (the model is in `Net/JitterBuffer`). `Losses` keeps beside the buffer
what was handed out, the timestamps that were missed and whose main packets
have not arrived since, and how playback went past each timestamp.

A late packet need not be one that was missed: it may have been played,
skipped or missed while buffering, it may come twice, and every packet is
late while `nextFetchTimestamp` is negative, since the two are compared as
`uint32_t`. `Expected` excludes this.
-/

namespace Tgvoip

open Runs

namespace JitterBuffer

variable {β : Type*} {outOfRange : ℤ → Int32} {s : JitterBuffer β} {buf : β} {timestamp : UInt32}
  {isEC : Bool}

/-! ## What the calls do to the count -/

/-- The packet is behind the position, once the buffer is resynced. -/
def Late (outOfRange : ℤ → Int32) (s : JitterBuffer β) (timestamp : UInt32) : Prop :=
  timestamp < (if s.wasReset = true then toInt32 outOfRange (timestamp.toNat - s.minDelay)
    else s.nextFetchTimestamp).toUInt32

instance (outOfRange : ℤ → Int32) (s : JitterBuffer β) (timestamp : UInt32) :
    Decidable (s.Late outOfRange timestamp) :=
  inferInstanceAs (Decidable (_ < _))

theorem lostPackets_store (s : JitterBuffer β) :
    (s.store buf timestamp isEC).lostPackets = s.lostPackets := by
  unfold store putSlot advance
  dsimp only
  split_ifs <;> rfl

theorem lostPackets_handleInput (outOfRange : ℤ → Int32) (s : JitterBuffer β) (buf : β)
    (timestamp : UInt32) (isEC : Bool) :
    (s.handleInput outOfRange buf timestamp isEC).lostPackets = s.lostPackets -
      if isEC = false ∧ (s.slots isEC).has timestamp = false ∧ s.Late outOfRange timestamp then 1
      else 0 := by
  cases hhas : (s.slots isEC).has timestamp with
  | true =>
      rw [handleInput_of_has hhas, if_neg (by simp)]
      exact (Int.sub_zero _).symm
  | false =>
      have hsettled := (counts_settled outOfRange s timestamp).2
      have hlate : timestamp < (s.settled outOfRange timestamp).nextFetchTimestamp.toUInt32 ↔
          s.Late outOfRange timestamp := by
        rw [next_settled]
        exact Iff.rfl
      rw [handleInput_eq outOfRange buf hhas]
      dsimp only
      by_cases hbehind : s.Late outOfRange timestamp
      · rw [if_pos (hlate.mpr hbehind), lostPackets_store]
        cases isEC with
        | true => simpa using hsettled
        | false => simpa [hbehind, countLate] using hsettled
      · have hkept : ¬ (isEC = false ∧ false = false ∧ s.Late outOfRange timestamp) :=
          fun h => hbehind h.2.2
        rw [if_neg fun h => hbehind (hlate.mp h), if_neg hkept, Int.sub_zero]
        split_ifs
        · exact hsettled
        · exact hsettled
        · rw [lostPackets_store]
          exact hsettled

/-- `HandleOutput` finds no packet, and is not waiting for packets. -/
def Misses (outOfRange : ℤ → Int32) (s : JitterBuffer β) : Prop :=
  s.needBuffering = false ∧
    (s.handleOutput outOfRange).1.main.isSome = false ∧
    (s.handleOutput outOfRange).1.ec.isSome = false

instance (outOfRange : ℤ → Int32) (s : JitterBuffer β) : Decidable (s.Misses outOfRange) :=
  inferInstanceAs (Decidable (_ ∧ _))

theorem lostPackets_startUp (outOfRange : ℤ → Int32) (s : JitterBuffer β) :
    (s.startUp outOfRange).lostPackets = s.lostPackets := by
  unfold startUp advance
  dsimp only
  split_ifs <;> rfl

theorem lostPackets_resetAfterLosses (outOfRange : ℤ → Int32) (s : JitterBuffer β) :
    (s.resetAfterLosses outOfRange).lostPackets = s.lostPackets := by
  unfold resetAfterLosses
  dsimp only
  split_ifs <;> rfl

theorem lostPackets_fetch (outOfRange : ℤ → Int32) (s : JitterBuffer β) :
    (s.fetch outOfRange).2.lostPackets = s.lostPackets +
      if s.needBuffering = false ∧ (s.fetch outOfRange).1.main.isSome = false ∧
        (s.fetch outOfRange).1.ec.isSome = false then 1 else 0 := by
  rw [fetch_fst]
  unfold fetch
  cases hmain : (s.slotsMain.get s.nextFetchTimestamp.toUInt32).isSome
  · cases hec : (s.slotsEc.get s.nextFetchTimestamp.toUInt32).isSome
    · cases hneed : s.needBuffering
      · simp [hmain, hec, lostPackets_resetAfterLosses]
      · simp [hmain, hec]
    · simp [hmain, hec]
  · simp [hmain]

theorem lostPackets_handleOutput (outOfRange : ℤ → Int32) (s : JitterBuffer β) :
    (s.handleOutput outOfRange).2.lostPackets =
      s.lostPackets + if s.Misses outOfRange then 1 else 0 := by
  have hfetch := lostPackets_fetch outOfRange (s.startUp outOfRange)
  rw [(startUp_same outOfRange s).2, lostPackets_startUp] at hfetch
  exact hfetch

/-- The count does not depend on the delay. -/
theorem lostPackets_tick (s : JitterBuffer β) (deviation : ℕ) :
    (s.tick outOfRange deviation).lostPackets = s.lostPackets := by
  have hplayback : ∀ s' : JitterBuffer β, s'.adjustPlayback.lostPackets = s'.lostPackets := by
    intro s'
    unfold adjustPlayback
    split_ifs <;> rfl
  have hmeasured : s.measured.lostPackets = s.lostPackets := by
    unfold measured
    dsimp only
    split_ifs <;> rfl
  rw [tick_eq, hplayback, ← hmeasured]
  unfold moved adjustMinDelay
  dsimp only
  split_ifs <;> rfl

/-! ## What was lost -/

/-- How playback went past a timestamp: it was played or missed, it came up while the buffering
went on, or it was skipped. `arrived` is any of these, once the main packet has come behind it. -/
inductive Passing where
  | played
  | missed
  | buffering
  | skipped
  | arrived
  deriving DecidableEq, Repr

/-- The buffer, the sum of the counts that were handed out, and the timestamps that were missed
and have not arrived since; where the position was last set, and what it has passed from there. -/
structure Losses (β : Type*) where
  buffer : JitterBuffer β
  returned : ℤ := 0
  missing : Finset UInt32 := ∅
  start : ℤ := 0
  passed : List (ℤ × Passing) := []

namespace Losses

variable {l : Losses β}

/-- An arrival is that of a main packet. -/
def missingAfter (outOfRange : ℤ → Int32) (l : Losses β) : Call β → Finset UInt32
  | .handleInput _ timestamp false => l.missing.erase timestamp
  | .handleOutput =>
      if l.buffer.Misses outOfRange then
        insert (l.buffer.startUp outOfRange).nextFetchTimestamp.toUInt32 l.missing
      else l.missing
  | _ => l.missing

def returnedAfter (l : Losses β) : Call β → ℤ
  | .getAndResetLostPacketCount => l.returned + l.buffer.lostPackets
  | _ => l.returned

/-- The position is set: by a resync, or where it goes back. -/
def setsPosition (outOfRange : ℤ → Int32) (l : Losses β) (call : Call β) : Bool :=
  (match call with
    | .handleInput _ timestamp isEC => !(l.buffer.slots isEC).has timestamp && l.buffer.wasReset
    | _ => false) ||
  (l.buffer.step outOfRange call).nextFetchTimestamp < l.buffer.nextFetchTimestamp

/-- How a call goes past a timestamp. `HandleOutput` fetches one, and skips what it drops. -/
def passing (outOfRange : ℤ → Int32) (l : Losses β) (x : ℤ) : Call β → Passing
  | .handleOutput =>
      let output := (l.buffer.handleOutput outOfRange).1
      if x ≠ (l.buffer.startUp outOfRange).nextFetchTimestamp.toInt then .skipped
      else if output.main.isSome || output.ec.isSome then .played
      else if l.buffer.needBuffering then .buffering
      else .missed
  | _ => .skipped

/-- The main packet comes behind what was passed. -/
def arrive (timestamp : UInt32) (x : ℤ × Passing) : ℤ × Passing :=
  (x.1, if x.1 = timestamp.toNat then .arrived else x.2)

def arrivedAfter (l : Losses β) : Call β → List (ℤ × Passing)
  | .handleInput _ timestamp false => l.passed.map (arrive timestamp)
  | _ => l.passed

/-- The timestamps from the position up to the next one. -/
def newlyPassed (outOfRange : ℤ → Int32) (l : Losses β) (call : Call β) : List (ℤ × Passing) :=
  (List.range ((l.buffer.step outOfRange call).nextFetchTimestamp.toInt -
      l.buffer.nextFetchTimestamp.toInt).toNat).map fun i : ℕ =>
    (l.buffer.nextFetchTimestamp.toInt + i,
      l.passing outOfRange (l.buffer.nextFetchTimestamp.toInt + i) call)

def passedAfter (outOfRange : ℤ → Int32) (l : Losses β) (call : Call β) : List (ℤ × Passing) :=
  if l.setsPosition outOfRange call then []
  else l.arrivedAfter call ++ l.newlyPassed outOfRange call

def step (outOfRange : ℤ → Int32) (l : Losses β) (call : Call β) : Losses β where
  buffer := l.buffer.step outOfRange call
  returned := l.returnedAfter call
  missing := l.missingAfter outOfRange call
  start :=
    if l.setsPosition outOfRange call then (l.buffer.step outOfRange call).nextFetchTimestamp.toInt
    else l.start
  passed := l.passedAfter outOfRange call

/-- What was counted is what is missing. -/
def Balanced (l : Losses β) : Prop := l.returned + l.buffer.lostPackets = l.missing.card

/-- **What the count must do.** A packet is taken from it that was missed, and has not arrived
since; and behind the call the count is that of the missing timestamps. -/
structure Counts (outOfRange : ℤ → Int32) (l : Losses β) (call : Call β) : Prop where
  matched : ∀ buf timestamp isEC, call = .handleInput buf timestamp isEC →
    (l.step outOfRange call).buffer.lostPackets < l.buffer.lostPackets → timestamp ∈ l.missing
  balanced : (l.step outOfRange call).Balanced

/-- A packet is behind the position. One that sets it is, if it sets it below 0. Below 0 about
every packet is behind; from there on, those from before the start, and those that were passed. -/
def Behind (outOfRange : ℤ → Int32) (l : Losses β) (timestamp : UInt32) (how : Passing → Prop) :
    Prop :=
  if l.buffer.wasReset = true then
    timestamp < (toInt32 outOfRange (timestamp.toNat - l.buffer.minDelay)).toUInt32
  else if l.buffer.nextFetchTimestamp.toInt < 0 then
    timestamp.toNat < 2 ^ 32 + l.buffer.nextFetchTimestamp.toInt
  else timestamp.toNat < l.start ∨ ∃ p, ((timestamp.toNat : ℤ), p) ∈ l.passed ∧ how p

/-- **What may arrive.** A main packet that is missing is new and behind the position. One that is
not, and is new, is not behind it: it was not played, skipped, or missed while buffering, it has
not come before, and the position is not below 0. And no timestamp is missed that is missing
already. -/
def Expected (outOfRange : ℤ → Int32) (l : Losses β) : Call β → Prop
  | .handleInput _ timestamp false =>
      if timestamp ∈ l.missing then
        (l.buffer.slots false).has timestamp = false ∧ l.Behind outOfRange timestamp fun _ => True
      else
        (l.buffer.slots false).has timestamp = false → ¬ l.Behind outOfRange timestamp (· ≠ .missed)
  | .handleOutput =>
      l.buffer.Misses outOfRange →
        (l.buffer.startUp outOfRange).nextFetchTimestamp.toUInt32 ∉ l.missing
  | _ => True

/-! ## What was passed -/

/-- What is before the position was passed, or is before the start; and what was missed and has
not arrived since is missing. -/
structure Traced (l : Losses β) : Prop where
  behind : ∀ x : ℤ, x < l.buffer.nextFetchTimestamp.toInt ↔ x < l.start ∨ ∃ p, (x, p) ∈ l.passed
  missed : ∀ timestamp : UInt32, ((timestamp.toNat : ℤ), Passing.missed) ∈ l.passed →
    timestamp ∈ l.missing

theorem mem_arrivedAfter (call : Call β) (x : ℤ) :
    (∃ p, (x, p) ∈ l.arrivedAfter call) ↔ ∃ p, (x, p) ∈ l.passed := by
  unfold arrivedAfter
  split
  · rename_i timestamp
    constructor
    · rintro ⟨p, hp⟩
      obtain ⟨y, hy, heq⟩ := List.mem_map.mp hp
      have hx : y.1 = x := congrArg Prod.fst heq
      exact ⟨y.2, hx ▸ hy⟩
    · rintro ⟨p, hp⟩
      exact ⟨_, List.mem_map.mpr ⟨_, hp, rfl⟩⟩
  · exact Iff.rfl

theorem mem_newlyPassed {call : Call β} {x : ℤ} {p : Passing} :
    (x, p) ∈ l.newlyPassed outOfRange call ↔ l.buffer.nextFetchTimestamp.toInt ≤ x ∧
      x < (l.buffer.step outOfRange call).nextFetchTimestamp.toInt ∧
      l.passing outOfRange x call = p := by
  rw [newlyPassed, List.mem_map]
  constructor
  · rintro ⟨i, hi, heq⟩
    obtain ⟨rfl, rfl⟩ := Prod.mk.inj heq
    rw [List.mem_range] at hi
    exact ⟨by omega, by omega, rfl⟩
  · rintro ⟨hle, hlt, rfl⟩
    have hx : l.buffer.nextFetchTimestamp.toInt +
        ((x - l.buffer.nextFetchTimestamp.toInt).toNat : ℤ) = x := by omega
    refine ⟨(x - l.buffer.nextFetchTimestamp.toInt).toNat, List.mem_range.mpr ?_, by rw [hx]⟩
    omega

/-- What is missed by a call is missing behind it. -/
theorem missed_passing {call : Call β} {timestamp : UInt32}
    (h : l.passing outOfRange timestamp.toNat call = .missed) :
    timestamp ∈ l.missingAfter outOfRange call := by
  cases call with
  | handleOutput =>
      unfold passing at h
      dsimp only at h
      split_ifs at h with hfetched hfound hneed
      have hfetched : (timestamp.toNat : ℤ) =
          (l.buffer.startUp outOfRange).nextFetchTimestamp.toInt := not_not.mp hfetched
      have hmisses : l.buffer.Misses outOfRange := by
        simp only [Bool.or_eq_true, not_or, Bool.not_eq_true] at hfound
        exact ⟨Bool.eq_false_of_not_eq_true hneed, hfound⟩
      have htimestamp : (l.buffer.startUp outOfRange).nextFetchTimestamp.toUInt32 = timestamp := by
        have hint := toInt_eq_toNat (l.buffer.startUp outOfRange).nextFetchTimestamp
        have hlt := (l.buffer.startUp outOfRange).nextFetchTimestamp.toUInt32.toNat_lt
        apply UInt32.toNat_inj.mp
        split_ifs at hint <;> omega
      rw [missingAfter, if_pos hmisses, htimestamp]
      exact Finset.mem_insert_self ..
  | handleInput buf t isEC => cases h
  | setMinPacketCount count => cases h
  | reset => cases h
  | tick deviation => cases h
  | getAndResetLostPacketCount => cases h

/-- What was missed before is missing still, if it has not arrived. -/
theorem Traced.missed_arrivedAfter (h : l.Traced) {call : Call β} {timestamp : UInt32}
    (hpassed : ((timestamp.toNat : ℤ), Passing.missed) ∈ l.arrivedAfter call) :
    timestamp ∈ l.missingAfter outOfRange call := by
  cases call with
  | handleInput buf t isEC =>
      cases isEC with
      | true => exact h.missed timestamp hpassed
      | false =>
          obtain ⟨⟨y, q⟩, hy, heq⟩ := List.mem_map.mp hpassed
          obtain ⟨rfl, hq⟩ := Prod.mk.inj heq
          dsimp only at hq
          split_ifs at hq with hsame
          subst hq
          exact Finset.mem_erase.mpr ⟨fun ht => hsame (by rw [ht]), h.missed timestamp hy⟩
  | handleOutput =>
      have hmissing := h.missed timestamp hpassed
      unfold missingAfter
      dsimp only
      split_ifs
      · exact Finset.mem_insert_of_mem hmissing
      · exact hmissing
  | setMinPacketCount count => exact h.missed timestamp hpassed
  | reset => exact h.missed timestamp hpassed
  | tick deviation => exact h.missed timestamp hpassed
  | getAndResetLostPacketCount => exact h.missed timestamp hpassed

/-- Every call keeps the trace. -/
theorem Traced.step (h : l.Traced) (call : Call β) : (l.step outOfRange call).Traced := by
  cases hset : l.setsPosition outOfRange call with
  | true =>
      refine ⟨fun x => ?_, fun timestamp hpassed => ?_⟩
      · simp [Losses.step, passedAfter, hset]
      · simp [Losses.step, passedAfter, hset] at hpassed
  | false =>
      have hforward : l.buffer.nextFetchTimestamp.toInt ≤
          (l.buffer.step outOfRange call).nextFetchTimestamp.toInt := by
        unfold setsPosition at hset
        obtain ⟨-, hback⟩ := Bool.or_eq_false_iff.mp hset
        exact not_lt.mp fun hlt => of_decide_eq_false hback (Int32.lt_iff_toInt_lt.mpr hlt)
      have hpassed : (l.step outOfRange call).passed =
          l.arrivedAfter call ++ l.newlyPassed outOfRange call := by
        show l.passedAfter outOfRange call = _
        rw [passedAfter, hset, if_neg Bool.false_ne_true]
      have hstart : (l.step outOfRange call).start = l.start := by
        simp [Losses.step, hset]
      refine ⟨fun x => ?_, fun timestamp hmem => ?_⟩
      · have hold := (h.behind x).trans (or_congr_right (mem_arrivedAfter call x).symm)
        rw [hpassed, hstart]
        simp only [List.mem_append, exists_or, mem_newlyPassed]
        rw [← or_assoc, ← hold]
        show x < (l.buffer.step outOfRange call).nextFetchTimestamp.toInt ↔ _
        constructor
        · intro hx
          by_cases hbefore : x < l.buffer.nextFetchTimestamp.toInt
          · exact .inl hbefore
          · exact .inr ⟨_, not_lt.mp hbefore, hx, rfl⟩
        · rintro (hx | ⟨_, -, hx, -⟩)
          · exact hx.trans_le hforward
          · exact hx
      · rw [hpassed] at hmem
        rcases List.mem_append.mp hmem with hold | hnew
        · exact h.missed_arrivedAfter hold
        · exact missed_passing (mem_newlyPassed.mp hnew).2.2

/-- **Behind are the late ones.** -/
theorem Traced.behind_iff (h : l.Traced) (timestamp : UInt32) :
    l.Behind outOfRange timestamp (fun _ => True) ↔ l.buffer.Late outOfRange timestamp := by
  unfold Behind Late
  split_ifs with hreset hneg
  · exact Iff.rfl
  all_goals
    have hint := toInt_eq_toNat l.buffer.nextFetchTimestamp
    have hlt := l.buffer.nextFetchTimestamp.toUInt32.toNat_lt
    rw [UInt32.lt_iff_toNat_lt]
  · split_ifs at hint <;> omega
  · simp only [and_true]
    rw [← h.behind]
    split_ifs at hint <;> omega

/-- What is late and not missing was not missed. -/
theorem Traced.behind_iff_of_notMem (h : l.Traced) {timestamp : UInt32}
    (hnot : timestamp ∉ l.missing) :
    l.Behind outOfRange timestamp (· ≠ .missed) ↔ l.buffer.Late outOfRange timestamp := by
  rw [← h.behind_iff]
  unfold Behind
  split_ifs
  · exact Iff.rfl
  · exact Iff.rfl
  refine or_congr_right (exists_congr fun p => and_congr_right fun hp => iff_of_true ?_ trivial)
  rintro rfl
  exact hnot (h.missed timestamp hp)

theorem Traced.expected_main_iff (h : l.Traced) (buf : β) (timestamp : UInt32) :
    l.Expected outOfRange (.handleInput buf timestamp false) ↔
      (((l.buffer.slots false).has timestamp = false ∧ l.buffer.Late outOfRange timestamp) ↔
        timestamp ∈ l.missing) := by
  unfold Expected
  dsimp only
  split_ifs with hmem
  · rw [h.behind_iff]
    simp [hmem]
  · rw [h.behind_iff_of_notMem hmem]
    simp [hmem]

/-! ## The count -/

/-- An EC packet does not matter. -/
theorem Balanced.handleInput_ec (h : l.Balanced) :
    l.Counts outOfRange (.handleInput buf timestamp true) := by
  have hcount := lostPackets_handleInput outOfRange l.buffer buf timestamp true
  rw [if_neg (by simp), Int.sub_zero] at hcount
  refine ⟨?_, ?_⟩
  · intro _ _ _ _ hless
    exact absurd hless (le_of_eq hcount.symm).not_gt
  · exact (congrArg (l.returned + ·) hcount).trans h

theorem Balanced.handleInput_main_iff (h : l.Balanced) :
    l.Counts outOfRange (.handleInput buf timestamp false) ↔
      (((l.buffer.slots false).has timestamp = false ∧ l.buffer.Late outOfRange timestamp) ↔
        timestamp ∈ l.missing) := by
  have hcount := lostPackets_handleInput outOfRange l.buffer buf timestamp false
  have hbalance : l.returned + l.buffer.lostPackets = l.missing.card := h
  have hcard : (l.missing.erase timestamp).card + (if timestamp ∈ l.missing then 1 else 0) =
      l.missing.card := by
    split_ifs with hmem
    · exact Finset.card_erase_add_one hmem
    · rw [Finset.erase_eq_of_notMem hmem]
      rfl
  have hbalanced : (l.step outOfRange (.handleInput buf timestamp false)).Balanced ↔
      (((l.buffer.slots false).has timestamp = false ∧ l.buffer.Late outOfRange timestamp) ↔
        timestamp ∈ l.missing) := by
    show l.returned + (l.buffer.handleInput outOfRange buf timestamp false).lostPackets =
      (l.missing.erase timestamp).card ↔ (_ ↔ _)
    simp only [true_and] at hcount
    split_ifs at hcount hcard with hlate hmem hmem
    · exact iff_of_true (by omega) (iff_of_true hlate hmem)
    · exact iff_of_false (by omega) fun hiff => hmem (hiff.mp hlate)
    · exact iff_of_false (by omega) fun hiff => hlate (hiff.mpr hmem)
    · exact iff_of_true (by omega) (iff_of_false hlate hmem)
  refine ⟨fun hcounts => hbalanced.mp hcounts.balanced, fun hexpected => ?_⟩
  refine ⟨?_, hbalanced.mpr hexpected⟩
  intro _ _ _ hcall hless
  cases hcall
  by_contra hfound
  have hkept := fun hlate => hfound (hexpected.mp hlate)
  rw [if_neg fun hlate => hkept hlate.2, Int.sub_zero] at hcount
  exact absurd hless (le_of_eq hcount.symm).not_gt

theorem Balanced.handleOutput_iff (h : l.Balanced) :
    l.Counts outOfRange .handleOutput ↔ l.Expected outOfRange .handleOutput := by
  have hcount := lostPackets_handleOutput outOfRange l.buffer
  have hbalance : l.returned + l.buffer.lostPackets = l.missing.card := h
  have hbalanced : (l.step outOfRange .handleOutput).Balanced ↔
      l.Expected outOfRange .handleOutput := by
    show l.returned + (l.buffer.handleOutput outOfRange).2.lostPackets =
      (l.missingAfter outOfRange .handleOutput).card ↔ (_ → _)
    unfold missingAfter
    dsimp only
    split_ifs at hcount ⊢ with hmisses
    · by_cases hmem : (l.buffer.startUp outOfRange).nextFetchTimestamp.toUInt32 ∈ l.missing
      · rw [Finset.insert_eq_of_mem hmem]
        exact iff_of_false (by omega) fun hnew => hnew hmisses hmem
      · rw [Finset.card_insert_of_notMem hmem]
        exact iff_of_true (by omega) fun _ => hmem
    · exact iff_of_true (by omega) fun hmiss => absurd hmiss hmisses
  refine ⟨fun hcounts => hbalanced.mp hcounts.balanced, fun hexpected => ?_⟩
  refine ⟨?_, hbalanced.mpr hexpected⟩
  intro _ _ _ hcall
  cases hcall

/-- Where the count and what is missing stay, the count is right. -/
theorem Balanced.same (h : l.Balanced) {call : Call β}
    (hinput : ∀ buf timestamp isEC, call ≠ .handleInput buf timestamp isEC)
    (hcount : l.returnedAfter call + (l.buffer.step outOfRange call).lostPackets =
      l.returned + l.buffer.lostPackets)
    (hmissing : l.missingAfter outOfRange call = l.missing) : l.Counts outOfRange call where
  matched _ _ _ hcall := absurd hcall (hinput _ _ _)
  balanced := by
    show l.returnedAfter call + (l.buffer.step outOfRange call).lostPackets =
      (l.missingAfter outOfRange call).card
    rw [hcount, hmissing]
    exact h

/-- **The step lemma.** -/
theorem Balanced.counts_iff (h : l.Balanced) (htraced : l.Traced) (call : Call β) :
    l.Counts outOfRange call ↔ l.Expected outOfRange call := by
  cases call with
  | handleInput buf timestamp isEC =>
      cases isEC with
      | true => exact iff_of_true h.handleInput_ec trivial
      | false => exact h.handleInput_main_iff.trans (htraced.expected_main_iff buf timestamp).symm
  | handleOutput => exact h.handleOutput_iff
  | tick deviation =>
      refine iff_of_true (h.same (by simp) ?_ rfl) trivial
      exact congrArg (l.returned + ·) (lostPackets_tick l.buffer deviation)
  | setMinPacketCount count => exact iff_of_true (h.same (by simp) rfl rfl) trivial
  | reset => exact iff_of_true (h.same (by simp) rfl rfl) trivial
  | getAndResetLostPacketCount =>
      exact iff_of_true (h.same (by simp) (Int.add_zero _) rfl) trivial

/-- **When the losses are counted.** In every run the count is that of the missing timestamps, and
no packet is taken from it for another, exactly as long as the expected packets arrive. -/
theorem losses_counted_iff (config : ServerConfig) (packetStep : ℕ) (outOfRange : ℤ → Int32)
    (calls : List (Call β)) :
    Along (step outOfRange) (Counts outOfRange) { buffer := .new config packetStep } calls ↔
      Along (step outOfRange) (Expected outOfRange) { buffer := .new config packetStep } calls := by
  have hnew : Balanced { buffer := (.new config packetStep : JitterBuffer β) } := by
    show 0 + (JitterBuffer.new config packetStep : JitterBuffer β).lostPackets = 0
    unfold JitterBuffer.new
    dsimp only
    split_ifs <;> rfl
  have htraced : Traced { buffer := (.new config packetStep : JitterBuffer β) } := by
    have hstart : (.new config packetStep : JitterBuffer β).nextFetchTimestamp = 0 := by
      unfold JitterBuffer.new
      dsimp only
      split_ifs <;> rfl
    refine ⟨fun x => ?_, fun _ hpassed => absurd hpassed List.not_mem_nil⟩
    rw [hstart]
    simp
  exact along_congr (I := fun l => Balanced l ∧ Traced l) (A := fun _ _ => True)
    (fun _ call h _ => h.1.counts_iff h.2 call)
    (fun _ call h _ hexpected =>
      ⟨((h.1.counts_iff h.2 call).mpr hexpected).balanced, h.2.step call⟩) ⟨hnew, htraced⟩
    (along_of_forall fun _ _ _ => trivial)

/-- The first packet of a call, with timestamp 0, is late: it was never missed. -/
theorem losses_counted_fails :
    ¬ Along (step fun _ => Int32.minValue) (Counts fun _ => Int32.minValue)
      { buffer := (.new noConfig 20 : JitterBuffer ℕ) } [.handleInput 7 0 false] := by
  rintro ⟨hcounts, -⟩
  exact absurd hcounts.balanced (by unfold Balanced; decide +kernel)

end Losses

end JitterBuffer

end Tgvoip
