import Tgvoip.Net.JitterBuffer

/-!
# InTimePackets — whether an in-time audio packet is kept

`HandleInput` (the model is in `Net/JitterBuffer`) with a timestamp from
`nextFetchTimestamp` to 60 above it. `Kept` is what the packet and those that
wait can expect of the call, `Fits` is when they get it.

The array of the packet may hold no other slot than one that is not newer
(`JitterArray.Fits`), and `nextFetchTimestamp` must be positive: passed as a
`uint32_t`, it is otherwise beyond every timestamp. Where all packets so far
fitted, an array holds two packets at most (`Tidy`).
-/

namespace Tgvoip

open Ring

namespace JitterArray

variable {β : Type*} {a : JitterArray β} {seq x : UInt32} {b : β}

/-- Only the ends are filled. -/
structure Tidy (a : JitterArray β) : Prop where
  aligned : a.Aligned
  ends : ∀ i, (a.slots i).isSome → i = a.back ∨ i = a.front

theorem tidy_clear (a : JitterArray β) : a.clear.Tidy where
  aligned := .inl a.idle_clear
  ends i h := by cases h

theorem Tidy.count_le (h : a.Tidy) : a.count ≤ 1 := by
  unfold count
  split_ifs with hempty hone
  · exact Nat.zero_le 1
  · exact Nat.le_refl 1
  · have hrest : ∀ k < jitterSlotCount - 1, pos (a.back + 1) k ≠ a.front →
        a.slots (pos (a.back + 1) k) = none := by
      intro k hk hfront
      have hne : pos (a.back + 1) k ≠ a.back := by
        have hstep : a.back + 1 = pos a.back 1 := rfl
        have hinj := pos_inj a.back (j := 1 + k) (k := 0) (by omega) (by decide)
        rw [pos_zero] at hinj
        rw [hstep, pos_add, Ne, hinj]
        omega
      rw [← Option.not_isSome_iff_eq_none]
      intro hsome
      rcases h.ends _ hsome with hback | hfront'
      · exact hne hback
      · exact hfront hfront'
    show filled a.front a.slots (jitterSlotCount - 1 + 1) a.back ≤ 1
    rw [filled, filled_eq_zero _ _ hrest]
    split_ifs <;> omega

theorem Aligned.get_advance (h : a.Aligned) (x : UInt32) :
    (a.advance seq).get x = if seq ≤ x then a.get x else none := by
  rcases h with hidle | hlive
  · have hadvance : a.advance seq = a := by simp [JitterArray.advance, hidle.frontSeq]
    rw [hadvance, hidle.get_eq, ite_self]
  · exact hlive.advance.2 x

theorem Tidy.advance (h : a.Tidy) (seq : UInt32) : (a.advance seq).Tidy := by
  rcases h.aligned with hidle | hlive
  · have hadvance : a.advance seq = a := by simp [JitterArray.advance, hidle.frontSeq]
    rw [hadvance]
    exact h
  · refine ⟨hlive.advance.1, ?_⟩
    by_cases hbeyond : a.frontSeq < seq
    · -- everything is cleared
      rw [advance_beyond hlive.valid hbeyond]
      exact a.tidy_clear.ends
    · by_cases hbelow : seq < a.backSeq
      · have hadvance : a.advance seq = a := by
          simp [JitterArray.advance, hlive.valid, hbeyond, hbelow]
        rw [hadvance]
        exact h.ends
      · intro i hsome
        have hcleared := hlive.cleared hbeyond hbelow i
        rw [hcleared] at hsome
        rw [advance_within hlive.valid hbeyond hbelow]
        dsimp only
        split_ifs at hsome with hpassed
        · cases hsome
        · rcases h.ends i hsome with rfl | hfront
          · -- the old back is left only where nothing was passed
            left
            have hzero : seq.toNat - a.backSeq.toNat = 0 := by
              by_contra hpos
              exact hpassed ⟨0, Nat.pos_of_ne_zero hpos, pos_zero _⟩
            rw [hzero, pos_zero]
          · exact .inr hfront

theorem Tidy.take (h : a.Tidy) (seq : UInt32) : (a.take seq).Tidy := by
  have hsub : ∀ i, ((a.take seq).slots i).isSome → (a.slots i).isSome := by
    intro i
    unfold JitterArray.take
    split_ifs
    · dsimp only
      by_cases hi : i = a.getOffset seq
      · rw [hi, Function.update_self]
        intro hsome
        cases hsome
      · rw [Function.update_of_ne hi]
        exact id
    · exact id
  have hback : (a.take seq).back = a.back := by
    unfold JitterArray.take
    split_ifs <;> rfl
  have hfront : (a.take seq).front = a.front := by
    unfold JitterArray.take
    split_ifs <;> rfl
  refine ⟨?_, ?_⟩
  · rcases h.aligned with hidle | hlive
    · have htake : a.take seq = a := by simp [JitterArray.take, hidle.get_eq]
      rw [htake]
      exact h.aligned
    · exact .inr hlive.take.1
  · intro i hsome
    rw [hback, hfront]
    exact h.ends i (hsub i hsome)

/-- A fitting put gives up no slot. -/
theorem Fits.put_fst (h : a.Fits seq) : (a.put seq b).1 = 0 := by
  unfold JitterArray.put
  split_ifs with hempty hold
  · rfl
  · rfl
  · rcases h with hempty' | hold' | ⟨-, hdiff⟩
    · exact absurd hempty' hempty
    · exact absurd hold' hold
    · have hnear : ¬ seq - a.backSeq > 64 := by
        have h64 : (64 : UInt32).toNat = jitterSlotCount := rfl
        rw [gt_iff_lt, UInt32.lt_iff_toNat_lt, toNat_sub_of_ge hold, h64]
        omega
      exact if_neg hnear

theorem Tidy.put (h : a.Tidy) (hvalid : seq ≠ invalidSeq) (hfits : a.Fits seq) :
    (a.put seq b).2.Tidy := by
  rcases h.aligned with hidle | hlive
  · have hput : (a.put seq b).2 = { a with
        backSeq := seq, frontSeq := seq, back := 0, front := 0
        slots := Function.update a.slots 0 (some b) } := by
      simp [JitterArray.put, hidle.frontSeq]
    refine ⟨.inr (hidle.put hvalid).1, ?_⟩
    rw [hput]
    intro i hsome
    dsimp only at hsome ⊢
    by_cases hi : i = 0
    · exact .inl hi
    · rw [Function.update_of_ne hi, hidle.slots] at hsome
      cases hsome
  · rcases hfits with hempty | hold | ⟨hone, hdiff⟩
    · exact absurd (empty_eq_true.mp hempty) hlive.valid
    · rw [put_rejects ⟨empty_eq_false.mpr hlive.valid, hold⟩]
      exact h
    · -- one slot before, two behind
      by_cases hold : seq < a.backSeq
      · rw [put_rejects ⟨empty_eq_false.mpr hlive.valid, hold⟩]
        exact h
      · refine ⟨.inr (hlive.put hvalid hold hone hdiff).1, ?_⟩
        rw [put_near hlive.valid hold (Nat.le_of_lt hdiff)]
        intro i hsome
        dsimp only at hsome ⊢
        by_cases hi : i = pos a.front (seq.toNat - a.backSeq.toNat)
        · exact .inr hi
        · rw [Function.update_of_ne hi] at hsome
          rcases h.ends i hsome with hback | hfront
          · exact .inl hback
          · exact .inl (hfront.trans hone)

/-- A packet that fits and is not too old is stored, and no other is touched. -/
theorem Tidy.get_put (h : a.Tidy) (hvalid : seq ≠ invalidSeq) (hfits : a.Fits seq)
    (hnew : ¬ a.Rejects seq) (x : UInt32) :
    (a.put seq b).2.get x = if x = seq then some b else a.get x := by
  rcases h.aligned with hidle | hlive
  · exact (hidle.put hvalid).2 x
  · have hold : ¬ seq < a.backSeq := fun hold => hnew ⟨empty_eq_false.mpr hlive.valid, hold⟩
    rcases hfits with hempty | hold' | ⟨hone, hdiff⟩
    · exact absurd (empty_eq_true.mp hempty) hlive.valid
    · exact absurd hold' hold
    · exact (hlive.put hvalid hold hone hdiff).2 x

/-- **Beside a newer slot a packet is not stored**: the front moves from where it is. -/
theorem Live.get_put_misfit (h : a.Live) (hvalid : seq ≠ invalidSeq) (hold : ¬ seq < a.backSeq)
    (hdiff : seq.toNat - a.backSeq.toNat < jitterSlotCount) (hmore : a.front ≠ a.back)
    (hfree : a.get seq = none) : (a.put seq b).2.get seq = none := by
  have hle : a.backSeq ≤ seq := UInt32.not_lt.mp hold
  rw [put_near h.valid hold (Nat.le_of_lt hdiff), get_of_valid hvalid]
  dsimp only
  rw [if_pos ⟨hle, UInt32.le_refl seq⟩,
    Function.update_of_ne fun heq => hmore ((pos_left_inj _).mp heq).symm]
  by_cases hfront : seq ≤ a.frontSeq
  · rwa [get_of_valid h.valid, if_pos ⟨hle, hfront⟩] at hfree
  · have horder := h.order
    rw [UInt32.le_iff_toNat_le] at hle hfront horder
    exact h.inside _ (by omega) hdiff

end JitterArray

/-! ## Signed timestamps -/

theorem toInt_eq_toNat (n : Int32) :
    n.toInt = if n.toUInt32.toNat < 2 ^ 31 then (n.toUInt32.toNat : ℤ)
      else n.toUInt32.toNat - 2 ^ 32 := by
  have hcond := BitVec.toInt_eq_toNat_cond n.toBitVec
  rw [Int32.toInt_toBitVec, Int32.toNat_toBitVec] at hcond
  split_ifs at hcond ⊢ <;> omega

theorem toNat_pred (n : Int32) :
    (n - 1).toUInt32.toNat = (n.toUInt32.toNat + (2 ^ 32 - 1)) % 2 ^ 32 := by
  rw [Int32.toUInt32_sub, UInt32.toNat_sub]
  have hone : (1 : Int32).toUInt32.toNat = 1 := rfl
  rw [hone]
  omega

/-- A positive timestamp and the one before it are what they are. -/
theorem toNat_of_pos {n : Int32} (hpos : 0 < n.toInt) :
    (n.toUInt32.toNat : ℤ) = n.toInt ∧ ((n - 1).toUInt32.toNat : ℤ) = n.toInt - 1 := by
  have hint := toInt_eq_toNat n
  have hlt := n.toUInt32.toNat_lt
  rw [toNat_pred]
  split_ifs at hint <;> omega

/-- A negative one is far ahead as a `uint32_t`. -/
theorem toNat_of_neg {n : Int32} (hneg : n.toInt < 0) (hmin : -2 ^ 31 < n.toInt) :
    (n.toUInt32.toNat : ℤ) = n.toInt + 2 ^ 32 ∧
      ((n - 1).toUInt32.toNat : ℤ) = n.toInt + 2 ^ 32 - 1 := by
  have hint := toInt_eq_toNat n
  have hlt := n.toUInt32.toNat_lt
  rw [toNat_pred]
  split_ifs at hint <;> omega

/-! ## What a packet can expect -/

namespace JitterBuffer

variable {β : Type*}

def Output.pick (output : Output β) (isEC : Bool) : Option β :=
  if isEC then output.ec else output.main

section
variable (outOfRange : ℤ → Int32) (s : JitterBuffer β)

/-- What `HandleOutput` returns when it has come to the timestamp. -/
def outputAt (timestamp : UInt32) : Output β :=
  (({ s with first := false, nextFetchTimestamp := timestamp.toInt32 } : JitterBuffer β).handleOutput
    outOfRange).1

/-- The packet is not passed yet, and is returned when its time comes. -/
def Waiting (isEC : Bool) (timestamp : UInt32) (buf : β) : Prop :=
  s.nextFetchTimestamp.toInt ≤ timestamp.toNat ∧
    (s.outputAt outOfRange timestamp).pick isEC = some buf

/-- The buffer is not awaiting a resync, and the packet is neither late nor far ahead. -/
def InTime (timestamp : UInt32) (isEC : Bool) : Prop :=
  s.wasReset = false ∧ timestamp.toNat < 2 ^ 31 ∧ (s.slots isEC).has timestamp = false ∧
    s.nextFetchTimestamp.toInt ≤ timestamp.toNat ∧
    timestamp.toNat ≤ s.nextFetchTimestamp.toInt + 60

instance (timestamp : UInt32) (isEC : Bool) : Decidable (s.InTime timestamp isEC) :=
  inferInstanceAs (Decidable (_ ∧ _))

/-- `nextFetchTimestamp` was at the timestamp, and the delay made the call go past it. -/
def Skipped (s s' : JitterBuffer β) (timestamp : UInt32) : Prop :=
  s.clearOld.getCurrentDelay > 5 ∧ s.nextFetchTimestamp.toInt = timestamp.toNat ∧
    s.nextFetchTimestamp.toInt < s'.nextFetchTimestamp.toInt

/-- **An in-time packet is kept**, and so are those that wait. -/
structure Kept (buf : β) (timestamp : UInt32) (isEC : Bool) (s' : JitterBuffer β) : Prop where
  notLate : s'.latePacketCount = s.latePacketCount ∧ s'.lostPackets = s.lostPackets
  stored : s'.Waiting outOfRange isEC timestamp buf ∨ Skipped s s' timestamp
  others : ∀ ec x b, s.Waiting outOfRange ec x b →
    s'.Waiting outOfRange ec x b ∨ Skipped s s' x

/-- Every call keeps the in-time packets. -/
def KeptBy : Call β → Prop
  | .handleInput buf timestamp isEC =>
    s.InTime timestamp isEC →
      s.Kept outOfRange buf timestamp isEC (s.handleInput outOfRange buf timestamp isEC)
  | _ => True

/-! ## When it is -/

/-- The buffer when `HandleInput` looks at the timestamp. -/
def settled (timestamp : UInt32) : JitterBuffer β :=
  (({ s with gotSinceReset := s.gotSinceReset + 1 } : JitterBuffer β).resync outOfRange
    timestamp).clearOld

/-- `HandleInput` returns with the packet too late. -/
def TooLate (timestamp : UInt32) : Prop :=
  s.nextFetchTimestamp.toUInt32 ≤ timestamp ∧ timestamp < (s.nextFetchTimestamp - 1).toUInt32

instance (timestamp : UInt32) : Decidable (s.TooLate timestamp) :=
  inferInstanceAs (Decidable (_ ∧ _))

/-- As a `uint32_t`, `nextFetchTimestamp` is not ahead of the timestamps; or it is, but late EC
packets do not count, and nothing waits that is cleared as too old. -/
def InReach (isEC : Bool) : Prop :=
  0 < s.nextFetchTimestamp.toInt ∨
    (isEC = true ∧ s.nextFetchTimestamp.toInt < 0 ∧
      ∀ ec x b, (s.slots ec).get x = some b → (s.nextFetchTimestamp - 1).toUInt32 ≤ x)

structure FitsInput (timestamp : UInt32) (isEC : Bool) : Prop where
  /-- A packet that is put fits into its array. -/
  slot : (s.slots isEC).has timestamp = false → ¬ (s.settled outOfRange timestamp).TooLate timestamp →
    timestamp ≠ invalidSeq ∧ ((s.settled outOfRange timestamp).slots isEC).Fits timestamp
  /-- One that is in time is not older than what is in the array. -/
  inTime : s.InTime timestamp isEC →
    ¬ ((s.settled outOfRange timestamp).slots isEC).Rejects timestamp ∧ s.InReach isEC

def Fits : Call β → Prop
  | .handleInput _ timestamp isEC => s.FitsInput outOfRange timestamp isEC
  | _ => True

end

variable {outOfRange : ℤ → Int32} {s : JitterBuffer β} {buf : β} {timestamp : UInt32} {isEC : Bool}

theorem outputAt_pick : (s.outputAt outOfRange timestamp).pick isEC = (s.slots isEC).get timestamp := by
  unfold outputAt handleOutput
  rw [startUp_of_first rfl, fetch_fst]
  cases isEC <;> rfl

theorem waiting_iff : s.Waiting outOfRange isEC timestamp buf ↔
    s.nextFetchTimestamp.toInt ≤ timestamp.toNat ∧ (s.slots isEC).get timestamp = some buf := by
  unfold Waiting
  rw [outputAt_pick]

/-! ## What the calls do with the arrays -/

theorem slots_advance (s : JitterBuffer β) (seq : UInt32) (ec : Bool) :
    (s.advance seq).slots ec = (s.slots ec).advance seq := by
  cases ec <;> rfl

theorem slots_resync (s : JitterBuffer β) (timestamp : UInt32) (ec : Bool) :
    (s.resync outOfRange timestamp).slots ec = s.slots ec := by
  unfold resync
  split_ifs <;> rfl

theorem slots_putSlot (s : JitterBuffer β) (ec : Bool) :
    (s.putSlot buf timestamp isEC).slots ec =
      if ec = isEC then ((s.slots isEC).put timestamp buf).2 else s.slots ec := by
  cases isEC <;> cases ec <;> rfl

/-- Both arrays are tidy. -/
def Tidy (s : JitterBuffer β) : Prop := ∀ ec, (s.slots ec).Tidy

theorem Tidy.delay_le (h : s.Tidy) : ¬ s.getCurrentDelay > 5 := by
  have hmain := (h false).count_le
  have hec := (h true).count_le
  change s.slotsMain.count ≤ 1 at hmain
  change s.slotsEc.count ≤ 1 at hec
  unfold getCurrentDelay
  omega

theorem Tidy.advance (h : s.Tidy) (seq : UInt32) : (s.advance seq).Tidy := by
  intro ec
  rw [slots_advance]
  exact (h ec).advance seq

/-- Nothing is skipped while the arrays are tidy. -/
theorem Tidy.not_skipped (h : s.Tidy) {s' : JitterBuffer β} : ¬ Skipped s s' timestamp :=
  fun hskipped => (h.advance _).delay_le hskipped.1

theorem slots_settled (s : JitterBuffer β) (ec : Bool) :
    (s.settled outOfRange timestamp).slots ec =
      (s.slots ec).advance ((s.settled outOfRange timestamp).nextFetchTimestamp - 1).toUInt32 := by
  unfold settled clearOld
  rw [slots_advance, slots_resync]
  rfl

theorem Tidy.settled (h : s.Tidy) : (s.settled outOfRange timestamp).Tidy := by
  intro ec
  rw [slots_settled]
  exact (h ec).advance _

theorem counts_settled (outOfRange : ℤ → Int32) (s : JitterBuffer β) (timestamp : UInt32) :
    (s.settled outOfRange timestamp).latePacketCount = s.latePacketCount ∧
      (s.settled outOfRange timestamp).lostPackets = s.lostPackets := by
  unfold JitterBuffer.settled clearOld JitterBuffer.advance resync
  split_ifs <;> exact ⟨rfl, rfl⟩

/-- Where nothing is skipped, `store` is the put. -/
theorem Tidy.store_eq (h : s.Tidy) (buf : β) (timestamp : UInt32) (isEC : Bool) : ∃ lastPutTimestamp,
    s.store buf timestamp isEC =
      ({ s with lastPutTimestamp } : JitterBuffer β).putSlot buf timestamp isEC := by
  have hdelay := h.delay_le
  unfold store
  dsimp only
  by_cases hlast : timestamp > s.lastPutTimestamp
  · rw [if_pos hlast]
    exact ⟨timestamp, by rw [if_neg]; exact hdelay⟩
  · rw [if_neg hlast]
    exact ⟨s.lastPutTimestamp, by rw [if_neg]; exact hdelay⟩

theorem Tidy.slots_store (h : s.Tidy) (ec : Bool) :
    (s.store buf timestamp isEC).slots ec =
      if ec = isEC then ((s.slots isEC).put timestamp buf).2 else s.slots ec := by
  obtain ⟨lastPutTimestamp, hstore⟩ := h.store_eq buf timestamp isEC
  rw [hstore, slots_putSlot]
  rfl

theorem Tidy.counts_store (h : s.Tidy) (buf : β) (timestamp : UInt32) (isEC : Bool) :
    (s.store buf timestamp isEC).latePacketCount = s.latePacketCount ∧
      (s.store buf timestamp isEC).lostPackets = s.lostPackets := by
  obtain ⟨lastPutTimestamp, hstore⟩ := h.store_eq buf timestamp isEC
  rw [hstore]
  cases isEC <;> exact ⟨rfl, rfl⟩

theorem Tidy.next_store (h : s.Tidy) (hfits : (s.slots isEC).Fits timestamp) :
    (s.store buf timestamp isEC).nextFetchTimestamp = s.nextFetchTimestamp := by
  obtain ⟨lastPutTimestamp, hstore⟩ := h.store_eq buf timestamp isEC
  have hnext : (({ s with lastPutTimestamp } : JitterBuffer β).putSlot buf timestamp
      isEC).nextFetchTimestamp =
        s.nextFetchTimestamp + ((s.slots isEC).put timestamp buf).1.toInt32 := by
    cases isEC <;> rfl
  rw [hstore, hnext, hfits.put_fst]
  exact Int32.add_zero _

theorem Tidy.store (h : s.Tidy) (hvalid : timestamp ≠ invalidSeq)
    (hfits : (s.slots isEC).Fits timestamp) : (s.store buf timestamp isEC).Tidy := by
  intro ec
  rw [h.slots_store]
  split_ifs
  · exact (h isEC).put hvalid hfits
  · exact h ec

/-! ## HandleInput in a tidy buffer -/

theorem handleInput_of_has (h : (s.slots isEC).has timestamp = true) :
    s.handleInput outOfRange buf timestamp isEC = s := if_pos h

theorem handleInput_eq (outOfRange : ℤ → Int32) (buf : β)
    (hfree : (s.slots isEC).has timestamp = false) :
    s.handleInput outOfRange buf timestamp isEC =
      let s' := s.settled outOfRange timestamp
      if timestamp < s'.nextFetchTimestamp.toUInt32 then
        (if !isEC then { s'.countLate with lostPackets := s'.lostPackets - 1 } else s').store buf
          timestamp isEC
      else if timestamp < (s'.nextFetchTimestamp - 1).toUInt32 then
        if !isEC then s'.countLate else s'
      else s'.store buf timestamp isEC := by
  unfold handleInput
  rw [hfree]
  rfl

theorem Tidy.handleInput (h : s.Tidy) (hfits : s.FitsInput outOfRange timestamp isEC) :
    (s.handleInput outOfRange buf timestamp isEC).Tidy := by
  cases hfree : (s.slots isEC).has timestamp with
  | true =>
    rw [handleInput_of_has hfree]
    exact h
  | false =>
    have hsettled : (s.settled outOfRange timestamp).Tidy := h.settled
    have hcounted : ({ (s.settled outOfRange timestamp).countLate with
        lostPackets := (s.settled outOfRange timestamp).lostPackets - 1 } : JitterBuffer β).Tidy :=
      hsettled
    rw [handleInput_eq outOfRange buf hfree]
    dsimp only
    split_ifs with hlate hmain hold hmain
    · obtain ⟨hvalid, hslot⟩ := hfits.slot hfree fun htooLate => absurd hlate
        (UInt32.not_lt.mpr htooLate.1)
      exact hcounted.store hvalid hslot
    · obtain ⟨hvalid, hslot⟩ := hfits.slot hfree fun htooLate => absurd hlate
        (UInt32.not_lt.mpr htooLate.1)
      exact hsettled.store hvalid hslot
    · exact hsettled
    · exact hsettled
    · obtain ⟨hvalid, hslot⟩ := hfits.slot hfree fun htooLate => absurd htooLate.2 hold
      exact hsettled.store hvalid hslot

/-! ## An in-time packet -/

theorem Tidy.get_settled (h : s.Tidy) (ec : Bool) (x : UInt32) :
    ((s.settled outOfRange timestamp).slots ec).get x =
      if ((s.settled outOfRange timestamp).nextFetchTimestamp - 1).toUInt32 ≤ x then
        (s.slots ec).get x
      else none := by
  rw [slots_settled]
  exact (h ec).aligned.get_advance x

/-- What is not stored is not stored after old packets are cleared. -/
theorem Tidy.get_free (h : s.Tidy) (hfree : (s.slots isEC).has timestamp = false) :
    ((s.settled outOfRange timestamp).slots isEC).get timestamp = none := by
  have hnone : (s.slots isEC).get timestamp = none := Option.isNone_iff_eq_none.mp (by
    rw [← Option.not_isSome, Bool.not_eq_true']
    exact hfree)
  rw [h.get_settled, hnone, ite_self]

theorem InTime.next_settled (h : s.InTime timestamp isEC) (outOfRange : ℤ → Int32) :
    (s.settled outOfRange timestamp).nextFetchTimestamp = s.nextFetchTimestamp := by
  have hwas := h.1
  unfold JitterBuffer.settled resync
  rw [if_neg (by rw [hwas]; decide)]
  rfl

/-- The checks for late packets let the packet pass. -/
def Accepts (s : JitterBuffer β) (isEC : Bool) : Prop :=
  0 < s.nextFetchTimestamp.toInt ∨ (isEC = true ∧ s.nextFetchTimestamp.toInt < 0)

theorem InReach.accepts (h : s.InReach isEC) : s.Accepts isEC :=
  h.imp_right fun h => ⟨h.1, h.2.1⟩

/-- The packet is put and not counted. -/
theorem InTime.handleInput_eq_store (h : s.InTime timestamp isEC) (haccepts : s.Accepts isEC)
    (outOfRange : ℤ → Int32) (buf : β) :
    ¬ (s.settled outOfRange timestamp).TooLate timestamp ∧
      s.handleInput outOfRange buf timestamp isEC =
        (s.settled outOfRange timestamp).store buf timestamp isEC := by
  have hnext := h.next_settled outOfRange
  obtain ⟨hwas, hsmall, hfree, hfrom, hto⟩ := h
  unfold TooLate
  rw [handleInput_eq outOfRange buf hfree, hnext]
  dsimp only
  rcases haccepts with hpos | ⟨rfl, hneg⟩
  · obtain ⟨hself, hpred⟩ := toNat_of_pos hpos
    have hnotLate : ¬ timestamp < s.nextFetchTimestamp.toUInt32 := by
      rw [UInt32.lt_iff_toNat_lt]
      omega
    have hnotOld : ¬ timestamp < (s.nextFetchTimestamp - 1).toUInt32 := by
      rw [UInt32.lt_iff_toNat_lt]
      omega
    rw [hnext, if_neg hnotLate, if_neg hnotOld]
    exact ⟨fun htooLate => hnotOld htooLate.2, rfl⟩
  · obtain ⟨hself, -⟩ := toNat_of_neg hneg (by omega)
    have hlate : timestamp < s.nextFetchTimestamp.toUInt32 := by
      rw [UInt32.lt_iff_toNat_lt]
      omega
    rw [hnext, if_pos hlate]
    exact ⟨fun htooLate => absurd hlate (UInt32.not_lt.mpr htooLate.1), rfl⟩

/-- Otherwise a main packet is counted as late, and at zero an EC packet is dropped. -/
theorem InTime.next_of_kept (h : s.InTime timestamp isEC) (htidy : s.Tidy)
    (hkept : s.Kept outOfRange buf timestamp isEC (s.handleInput outOfRange buf timestamp isEC)) :
    s.Accepts isEC := by
  have hnext := h.next_settled outOfRange
  have hsettled : (s.settled outOfRange timestamp).Tidy := htidy.settled
  have hcounts := counts_settled outOfRange s timestamp
  obtain ⟨hwas, hsmall, hfree, hfrom, hto⟩ := h
  have heq := handleInput_eq outOfRange buf hfree
  dsimp only at heq
  rw [hnext] at heq
  rcases lt_trichotomy s.nextFetchTimestamp.toInt 0 with hneg | hzero | hpos
  · -- negative: as a `uint32_t` it is beyond every timestamp
    obtain ⟨hself, -⟩ := toNat_of_neg hneg (by omega)
    have hlate : timestamp < s.nextFetchTimestamp.toUInt32 := by
      rw [UInt32.lt_iff_toNat_lt]
      omega
    rw [if_pos hlate] at heq
    cases isEC with
    | true => exact .inr ⟨rfl, hneg⟩
    | false =>
      have hcounted : ({ (s.settled outOfRange timestamp).countLate with
          lostPackets := (s.settled outOfRange timestamp).lostPackets - 1 } :
            JitterBuffer β).Tidy := hsettled
      have hstore := (hcounted.counts_store buf timestamp false).1
      have hcount : (s.handleInput outOfRange buf timestamp false).latePacketCount =
          (s.settled outOfRange timestamp).latePacketCount + 1 := by
        rw [heq]
        exact hstore
      have hnot := hkept.notLate.1
      omega
  · -- zero: the timestamp before it is `0xFFFFFFFF`
    have hself : s.nextFetchTimestamp.toUInt32.toNat = 0 := by
      have hint := toInt_eq_toNat s.nextFetchTimestamp
      have hlt := s.nextFetchTimestamp.toUInt32.toNat_lt
      split_ifs at hint <;> omega
    have hpred : (s.nextFetchTimestamp - 1).toUInt32.toNat = 2 ^ 32 - 1 := by
      rw [toNat_pred, hself]
      rfl
    rw [if_neg (by rw [UInt32.lt_iff_toNat_lt]; omega),
      if_pos (by rw [UInt32.lt_iff_toNat_lt]; omega)] at heq
    cases isEC with
    | false =>
      have hcount : (s.handleInput outOfRange buf timestamp false).latePacketCount =
          (s.settled outOfRange timestamp).latePacketCount + 1 := by
        rw [heq]
        rfl
      have hnot := hkept.notLate.1
      omega
    | true =>
      -- the EC packet is dropped
      rcases hkept.stored with hwaiting | hskipped
      · have hget := (waiting_iff.mp hwaiting).2
        have hdropped : (s.handleInput outOfRange buf timestamp true) =
            s.settled outOfRange timestamp := heq
        rw [hdropped, htidy.get_free hfree] at hget
        cases hget
      · exact absurd hskipped htidy.not_skipped
  · exact .inl hpos

/-- What waits is not cleared as too old. -/
theorem InReach.not_cleared (h : s.InReach isEC) {ec : Bool} {x : UInt32} {b : β}
    (hfrom : s.nextFetchTimestamp.toInt ≤ x.toNat) (hget : (s.slots ec).get x = some b) :
    (s.nextFetchTimestamp - 1).toUInt32 ≤ x := by
  rcases h with hpos | ⟨-, -, hnone⟩
  · have hpred := (toNat_of_pos hpos).2
    rw [UInt32.le_iff_toNat_le]
    omega
  · exact hnone ec x b hget

theorem Tidy.kept_of_fits (h : s.Tidy) (hin : s.InTime timestamp isEC)
    (hfits : s.FitsInput outOfRange timestamp isEC) :
    s.Kept outOfRange buf timestamp isEC (s.handleInput outOfRange buf timestamp isEC) := by
  obtain ⟨hnew, hreach⟩ := hfits.inTime hin
  obtain ⟨hnotLate, hstore⟩ :=
    hin.handleInput_eq_store hreach.accepts outOfRange buf
  have hnext := hin.next_settled outOfRange
  have hcounts := counts_settled outOfRange s timestamp
  have hsettled : (s.settled outOfRange timestamp).Tidy := h.settled
  obtain ⟨hwas, hsmall, hfree, hfrom, hto⟩ := hin
  obtain ⟨hvalid, hslot⟩ := hfits.slot hfree hnotLate
  have hput := (hsettled isEC).get_put (b := buf) hvalid hslot hnew
  rw [hstore]
  refine ⟨?_, .inl ?_, ?_⟩
  · rw [(hsettled.counts_store buf timestamp isEC).1, (hsettled.counts_store buf timestamp isEC).2]
    exact hcounts
  · rw [waiting_iff, hsettled.next_store hslot, hnext, hsettled.slots_store, if_pos rfl, hput,
      if_pos rfl]
    exact ⟨hfrom, rfl⟩
  · intro ec x b hwaiting
    obtain ⟨hle, hget⟩ := waiting_iff.mp hwaiting
    have hstays : ((s.settled outOfRange timestamp).slots ec).get x = some b := by
      rw [h.get_settled, hnext, if_pos (hreach.not_cleared hle hget)]
      exact hget
    left
    rw [waiting_iff, hsettled.next_store hslot, hnext, hsettled.slots_store]
    refine ⟨hle, ?_⟩
    split_ifs with hec
    · subst hec
      have hne : x ≠ timestamp := by
        rintro rfl
        rw [JitterArray.has, hget] at hfree
        cases hfree
      rw [hput, if_neg hne]
      exact hstays
    · exact hstays

/-- The oldest seq of the array is at most 61 below an in-time packet, or above it. -/
theorem InTime.near (hin : s.InTime timestamp isEC) (haccepts : s.Accepts isEC)
    (hlive : ((s.settled outOfRange timestamp).slots isEC).Live)
    (hold : ¬ timestamp < ((s.settled outOfRange timestamp).slots isEC).backSeq) :
    timestamp.toNat - ((s.settled outOfRange timestamp).slots isEC).backSeq.toNat <
      jitterSlotCount := by
  have hback : (s.nextFetchTimestamp - 1).toUInt32 ≤
      ((s.settled outOfRange timestamp).slots isEC).backSeq := by
    rw [slots_settled, hin.next_settled outOfRange] at hlive ⊢
    exact JitterArray.le_backSeq_advance (beq_false_of_ne hlive.valid)
  obtain ⟨hwas, hsmall, hfree, hfrom, hto⟩ := hin
  rw [UInt32.lt_iff_toNat_lt] at hold
  rw [UInt32.le_iff_toNat_le] at hback
  have hcount : jitterSlotCount = 64 := rfl
  rcases haccepts with hpos | ⟨-, hneg⟩
  · have hpred := (toNat_of_pos hpos).2
    omega
  · have hpred := (toNat_of_neg hneg (by omega)).2
    omega

theorem Tidy.fits_of_kept (h : s.Tidy) (hin : s.InTime timestamp isEC)
    (hkept : s.Kept outOfRange buf timestamp isEC
      (s.handleInput outOfRange buf timestamp isEC)) :
    s.FitsInput outOfRange timestamp isEC := by
  have haccepts := hin.next_of_kept h hkept
  have hsettled : (s.settled outOfRange timestamp).Tidy := h.settled
  have hvalid : timestamp ≠ invalidSeq := JitterArray.ne_invalid_of_lt hin.2.1
  have hfree : ((s.settled outOfRange timestamp).slots isEC).get timestamp = none :=
    h.get_free hin.2.2.1
  have hstore := (hin.handleInput_eq_store haccepts outOfRange buf).2
  have hstored : (((s.settled outOfRange timestamp).slots isEC).put timestamp buf).2.get
      timestamp = some buf := by
    rcases hkept.stored with hwaiting | hskipped
    · have hget := (waiting_iff.mp hwaiting).2
      rwa [hstore, hsettled.slots_store, if_pos rfl] at hget
    · exact absurd hskipped h.not_skipped
  -- a refused packet is not found
  have hnew : ¬ ((s.settled outOfRange timestamp).slots isEC).Rejects timestamp := by
    intro hrejects
    rw [JitterArray.put_rejects hrejects, hfree] at hstored
    cases hstored
  have hslot : ((s.settled outOfRange timestamp).slots isEC).Fits timestamp := by
    rcases (hsettled isEC).aligned with hidle | hlive
    · exact .inl (JitterArray.empty_eq_true.mpr hidle.frontSeq)
    · have hold : ¬ timestamp < ((s.settled outOfRange timestamp).slots isEC).backSeq :=
        fun hold => hnew ⟨JitterArray.empty_eq_false.mpr hlive.valid, hold⟩
      have hnear := hin.near haccepts hlive hold
      by_cases hone : ((s.settled outOfRange timestamp).slots isEC).front =
          ((s.settled outOfRange timestamp).slots isEC).back
      · exact .inr (.inr ⟨hone, hnear⟩)
      · rw [hlive.get_put_misfit hvalid hold hnear hone hfree] at hstored
        cases hstored
  have hreach : s.InReach isEC := by
    refine haccepts.imp_right fun hneg => ⟨hneg.1, hneg.2, ?_⟩
    intro ec x b hget
    -- with a negative `nextFetchTimestamp` whatever is stored waits
    have hwaiting : s.Waiting outOfRange ec x b := waiting_iff.mpr ⟨by omega, hget⟩
    have hkeeps : ((s.settled outOfRange timestamp).slots ec).get x = some b := by
      rcases hkept.others ec x b hwaiting with hwaiting' | hskipped
      · have hget' := (waiting_iff.mp hwaiting').2
        rw [hstore, hsettled.slots_store] at hget'
        split_ifs at hget' with hec
        · subst hec
          have hne : x ≠ timestamp := by
            rintro rfl
            have hhas := hin.2.2.1
            rw [JitterArray.has, hget] at hhas
            cases hhas
          rwa [(hsettled ec).get_put hvalid hslot hnew, if_neg hne] at hget'
        · exact hget'
      · exact absurd hskipped h.not_skipped
    rw [h.get_settled, hin.next_settled outOfRange] at hkeeps
    split_ifs at hkeeps with hle
    · exact hle
  exact ⟨fun _ _ => ⟨hvalid, hslot⟩, fun _ => ⟨hnew, hreach⟩⟩

theorem Tidy.kept_iff_fits (h : s.Tidy) (hin : s.InTime timestamp isEC) :
    s.Kept outOfRange buf timestamp isEC (s.handleInput outOfRange buf timestamp isEC) ↔
      s.FitsInput outOfRange timestamp isEC :=
  ⟨h.fits_of_kept hin, h.kept_of_fits hin⟩

/-! ## Runs -/

theorem Tidy.startUp (h : s.Tidy) : (s.startUp outOfRange).Tidy := by
  unfold JitterBuffer.startUp
  dsimp only
  split_ifs
  · exact Tidy.advance (s := { s with
      first := false, nextFetchTimestamp := s.nextFetchTimestamp +
        (UInt32.ofNat (({ s with first := false } : JitterBuffer β).getCurrentDelay) -
          (({ s with first := false } : JitterBuffer β).getMinPacketCount
            outOfRange).toUInt32).toInt32 }) h _
  · exact h
  · exact h

theorem tidy_reset (s : JitterBuffer β) : s.reset.Tidy
  | false => s.slotsMain.tidy_clear
  | true => s.slotsEc.tidy_clear

theorem Tidy.resetAfterLosses (h : s.Tidy) : (s.resetAfterLosses outOfRange).Tidy := by
  unfold JitterBuffer.resetAfterLosses
  dsimp only
  split_ifs
  · exact tidy_reset _
  · exact tidy_reset _
  · exact h

theorem Tidy.fetch (h : s.Tidy) : (s.fetch outOfRange).2.Tidy := by
  unfold JitterBuffer.fetch
  dsimp only
  split_ifs
  · intro ec
    cases ec with
    | false => exact (h false).take _
    | true => exact (h true).take _
  · exact Tidy.resetAfterLosses (s := { s with
      outstandingDelayChange := s.scaleDuration.2, nextFetchTimestamp := s.nextFetchTimestamp + 1
      lostCount := s.lostCount + 1, lostPackets := s.lostPackets + 1
      lostSinceReset := s.lostSinceReset + 1 }) h
  · exact h

theorem slots_adjustMinDelay (s : JitterBuffer β) (stddevDelay : ℕ) :
    (s.adjustMinDelay outOfRange stddevDelay).slots = s.slots := by
  unfold adjustMinDelay
  dsimp only
  split_ifs <;> rfl

theorem slots_adjustPlayback (s : JitterBuffer β) : s.adjustPlayback.slots = s.slots := by
  unfold adjustPlayback
  split_ifs <;> rfl

theorem slots_tick (s : JitterBuffer β) (deviation : ℕ) :
    (s.tick outOfRange deviation).slots = s.slots := by
  unfold tick
  dsimp only
  rw [slots_adjustPlayback]
  split_ifs <;> first | rfl | exact slots_adjustMinDelay _ _

/-- **The step lemma.** -/
theorem Tidy.step (h : s.Tidy) {call : Call β} (hfits : s.Fits outOfRange call) :
    (s.step outOfRange call).Tidy := by
  cases call with
  | setMinPacketCount count => exact h
  | reset => exact tidy_reset s
  | handleInput buf timestamp isEC => exact h.handleInput hfits
  | handleOutput => exact h.startUp.fetch
  | tick deviation =>
    intro ec
    show ((s.tick outOfRange deviation).slots ec).Tidy
    rw [slots_tick]
    exact h ec
  | getAndResetLostPacketCount => exact h

theorem tidy_new (config : ServerConfig) (step : ℕ) : (new config step : JitterBuffer β).Tidy := by
  intro ec
  have hslots : (new config step : JitterBuffer β).slots ec = .new := by
    unfold new
    dsimp only
    split_ifs <;> cases ec <;> rfl
  rw [hslots]
  exact JitterArray.tidy_clear {}

/-- **When in-time packets are kept.** In every run in which all packets fitted so far, each
in-time one was kept, and the next is exactly when it fits. -/
theorem in_time_kept_iff (config : ServerConfig) (packetStep : ℕ) (outOfRange : ℤ → Int32)
    (calls : List (Call β))
    (hrun : Runs.Along (step outOfRange) (Fits outOfRange) (new config packetStep) calls) :
    Runs.Along (step outOfRange) (KeptBy outOfRange) (new config packetStep) calls ∧
      ∀ (buf : β) (timestamp : UInt32) (isEC : Bool),
        let s := Runs.exec (step outOfRange) (new config packetStep) calls
        s.InTime timestamp isEC →
          (s.Kept outOfRange buf timestamp isEC (s.handleInput outOfRange buf timestamp isEC) ↔
            s.FitsInput outOfRange timestamp isEC) := by
  have hnew : (new config packetStep : JitterBuffer β).Tidy := tidy_new config packetStep
  refine ⟨?_, ?_⟩
  · refine hrun.strengthen (I := Tidy) (fun _ _ h => h.step) ?_ hnew
    intro s call h hfits
    cases call with
    | handleInput buf timestamp isEC => exact fun hin => (h.kept_iff_fits hin).mpr hfits
    | setMinPacketCount count => trivial
    | reset => trivial
    | handleOutput => trivial
    | tick deviation => trivial
    | getAndResetLostPacketCount => trivial
  · intro buf timestamp isEC s hin
    exact (hrun.invariant (I := Tidy) (fun _ _ h => h.step) hnew).kept_iff_fits hin

/-- A server without a configuration. -/
def noConfig : ServerConfig where
  getUInt _ fallback := fallback
  getDouble _ fallback := fallback

/-- A second packet is kept. -/
theorem in_time_kept_second :
    let s := Runs.exec (step fun _ => Int32.minValue) (new noConfig 60 : JitterBuffer ℕ)
      [.handleInput 7 10 false]
    s.Kept (fun _ => Int32.minValue) 8 11 false
      (s.handleInput (fun _ => Int32.minValue) 8 11 false) :=
  ((in_time_kept_iff noConfig 60 (fun _ => Int32.minValue) [.handleInput 7 10 false]
    ⟨⟨by decide +kernel, fun hin => absurd hin (by decide +kernel)⟩, trivial⟩).2 8 11 false
      (by decide +kernel)).mpr
    ⟨by decide +kernel, fun _ => ⟨by decide +kernel, .inl (by decide +kernel)⟩⟩

/-- The third of three packets in order is not found, and one that comes after the packet
with timestamp 0 is counted as late. -/
theorem in_time_kept_fails :
    ¬ KeptBy (fun _ => Int32.minValue)
        (Runs.exec (step fun _ => Int32.minValue) (new noConfig 60 : JitterBuffer ℕ)
          [.handleInput 7 10 false, .handleInput 8 11 false])
        (.handleInput 9 12 false) ∧
      ¬ KeptBy (fun _ => Int32.minValue)
        (Runs.exec (step fun _ => Int32.minValue) (new noConfig 60 : JitterBuffer ℕ)
          [.handleInput 7 0 false])
        (.handleInput 8 1 false) := by
  refine ⟨fun hkept => ?_, fun hkept => ?_⟩
  · rcases (hkept (by decide +kernel)).stored with hwaiting | hskipped
    · exact absurd (waiting_iff.mp hwaiting) (by decide +kernel)
    · exact absurd hskipped.1 (by decide +kernel)
  · exact absurd (hkept (by decide +kernel)).notLate (by decide +kernel)

end JitterBuffer

end Tgvoip
