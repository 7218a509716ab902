import Mathlib.Data.Rat.Floor
import Mathlib.Tactic.Linarith
import Tgvoip.Lib.AccessLog

/-!
# Resampler — changing the sample rate by interpolation

`audio/Resampler.cpp`, `Convert` and the two functions with fixed rates.
Each output sample lies at `offset * denom / num` in the input and is
interpolated between the sample below and the one above. The position is an
exact rational here.

The number of output samples is computed in a `size_t` and rounded down,
the loop counts in an `unsigned int`, and the sample above the last position
may be one behind the input: `Fits` says when none of this matters.
-/

namespace Tgvoip

open AccessLog

namespace Resampler

/-- An access to `from` or to `to`. -/
inductive SampleAccess where
  | read (i : ℕ)
  | write (i : ℕ) (sample : Int16)
  deriving DecidableEq, Repr

/-- The cast of a number to an integer type. -/
def truncate (x : ℚ) : ℤ := if 0 ≤ x then ⌊x⌋ else ⌈x⌉

/-- `offsetf`. -/
def position (num denom : UInt64) (offset : ℕ) : ℚ := (offset * denom.toNat : ℚ) / num.toNat

/-- One round of the loop. -/
def interpolate (input : ℕ → Int16) (num denom : UInt64) (offset : UInt32) :
    Noted SampleAccess Unit := do
  let offsetf := position num denom offset.toNat
  let factor : ℚ := offsetf - ⌊offsetf⌋
  note (.read ⌊offsetf⌋.toNat)
  note (.read ⌈offsetf⌉.toNat)
  let below : ℚ := (input ⌊offsetf⌋.toNat).toInt
  let above : ℚ := (input ⌈offsetf⌉.toNat).toInt
  note (.write offset.toNat (Int16.ofInt (truncate (below * (1 - factor) + above * factor))))

/-- The loop over the output samples, for so many rounds at most; whether it
has come to its end. -/
def convertLoop (round : UInt32 → Noted SampleAccess Unit) (outLen : UInt64) :
    ℕ → UInt32 → Noted SampleAccess Bool
  | 0, _ => pure false
  | rounds + 1, offset =>
      if offset.toUInt64 < outLen then do
        round offset
        convertLoop round outLen rounds (offset + 1)
      else pure true

/-- How many samples there will be. -/
def outLen (fromLen toLen num denom : UInt64) : UInt64 :=
  if toLen < fromLen * num / denom then toLen else fromLen * num / denom

/-- The number of samples that is returned, if the loop ends in so many
rounds. -/
def convert (input : ℕ → Int16) (fromLen toLen num denom : UInt64) (rounds : ℕ) :
    Noted SampleAccess (Option UInt64) := do
  let ended ← convertLoop (interpolate input num denom) (outLen fromLen toLen num denom) rounds 0
  pure (if ended then some (outLen fromLen toLen num denom) else none)

def convert48To44 (input : ℕ → Int16) (fromLen toLen : UInt64) :
    ℕ → Noted SampleAccess (Option UInt64) :=
  convert input fromLen toLen 147 160

def convert44To48 (input : ℕ → Int16) (fromLen toLen : UInt64) :
    ℕ → Noted SampleAccess (Option UInt64) :=
  convert input fromLen toLen 160 147

/-! ## What a conversion should do -/

/-- Reads in the input, writes in the output. -/
def InBounds (fromLen toLen : UInt64) : SampleAccess → Prop
  | .read i => i < fromLen.toNat
  | .write i _ => i < toLen.toNat

/-- The samples that there should be. -/
def samples (fromLen toLen num denom : UInt64) : ℕ :=
  min toLen.toNat (fromLen.toNat * num.toNat / denom.toNat)

/-- The call returns, with the right number, and leaves neither buffer. -/
def Converts (call : ℕ → Noted SampleAccess (Option UInt64)) (fromLen toLen num denom : UInt64) :
    Prop :=
  ∃ rounds n, value (call rounds) = some n ∧ n.toNat = samples fromLen toLen num denom ∧
    Within (InBounds fromLen toLen) (call rounds)

/-- The product fits a `size_t` or `to` is shorter than even its remainder
gives, the samples can be counted in an `unsigned int`, and the position of
the last one is not above the last input sample. -/
structure Fits (fromLen toLen num denom : UInt64) : Prop where
  product : fromLen.toNat * num.toNat < 2 ^ 64 ∨
    toLen.toNat ≤ fromLen.toNat * num.toNat % 2 ^ 64 / denom.toNat
  counter : samples fromLen toLen num denom < 2 ^ 32
  neighbour : samples fromLen toLen num denom * denom.toNat ≤
    (fromLen.toNat - 1) * num.toNat + denom.toNat

/-! ## The loop -/

section
variable {round : UInt32 → Noted SampleAccess Unit} {n : UInt64}

theorem toNat_ofNat_lt {o : ℕ} (ho : o < 2 ^ 32) : (UInt32.ofNat o).toNat = o := by
  rw [UInt32.toNat_ofNat']
  exact Nat.mod_eq_of_lt ho

theorem offset_lt_iff (offset : UInt32) : offset.toUInt64 < n ↔ offset.toNat < n.toNat := by
  rw [UInt64.lt_iff_toNat_lt, UInt32.toNat_toUInt64]

/-- An `unsigned int` never reaches a number that it cannot hold. -/
theorem convertLoop_endless (hn : 2 ^ 32 ≤ n.toNat) (rounds : ℕ) (offset : UInt32) :
    value (convertLoop round n rounds offset) = false := by
  induction rounds generalizing offset with
  | zero => rfl
  | succ rounds ih =>
      have hlt : offset.toUInt64 < n :=
        (offset_lt_iff offset).mpr (Nat.lt_of_lt_of_le offset.toNat_lt hn)
      rw [convertLoop, if_pos hlt, value_bind]
      exact ih (offset + 1)

/-- From `o` on, the loop ends behind the `n - o` rounds that are left, and
not before. -/
theorem convertLoop_spec (hn : n.toNat < 2 ^ 32) (rounds o : ℕ) (ho : o ≤ n.toNat) :
    (value (convertLoop round n rounds (UInt32.ofNat o)) = true ↔ n.toNat - o < rounds) ∧
      (n.toNat - o < rounds → log (convertLoop round n rounds (UInt32.ofNat o)) =
        (List.range' o (n.toNat - o)).flatMap fun i => log (round (UInt32.ofNat i))) := by
  induction rounds generalizing o with
  | zero => exact ⟨iff_of_false Bool.false_ne_true (Nat.not_lt_zero _), nofun⟩
  | succ rounds ih =>
      have hoff := toNat_ofNat_lt (Nat.lt_of_le_of_lt ho hn)
      by_cases hlt : o < n.toNat
      · have hcheck : (UInt32.ofNat o).toUInt64 < n := by
          rw [offset_lt_iff, hoff]
          exact hlt
        have hnext : UInt32.ofNat o + 1 = UInt32.ofNat (o + 1) := (UInt32.ofNat_add o 1).symm
        obtain ⟨hvalue, hlog⟩ := ih (o + 1) hlt
        have hrest : n.toNat - o = n.toNat - (o + 1) + 1 := by omega
        rw [convertLoop, if_pos hcheck, value_bind, log_bind, hnext, hvalue]
        refine ⟨by omega, fun hrounds => ?_⟩
        rw [hlog (by omega), hrest, List.range'_succ, List.flatMap_cons]
      · have hcheck : ¬ (UInt32.ofNat o).toUInt64 < n := by
          rw [offset_lt_iff, hoff]
          exact hlt
        have hdone : n.toNat - o = 0 := by omega
        rw [convertLoop, if_neg hcheck, hdone]
        exact ⟨iff_of_true rfl (Nat.succ_pos _), fun _ => rfl⟩

theorem convertLoop_zero (hn : n.toNat < 2 ^ 32) (rounds : ℕ) :
    (value (convertLoop round n rounds 0) = true ↔ n.toNat < rounds) ∧
      (n.toNat < rounds → log (convertLoop round n rounds 0) =
        (List.range n.toNat).flatMap fun i => log (round (UInt32.ofNat i))) := by
  rw [List.range_eq_range']
  exact convertLoop_spec hn rounds 0 (Nat.zero_le _)

end

/-! ## The number of samples -/

section
variable {fromLen toLen num denom : UInt64}

theorem toNat_outLen : (outLen fromLen toLen num denom).toNat =
    min toLen.toNat (fromLen.toNat * num.toNat % 2 ^ 64 / denom.toNat) := by
  have hquot : (fromLen * num / denom).toNat =
      fromLen.toNat * num.toNat % 2 ^ 64 / denom.toNat := by
    rw [UInt64.toNat_div, UInt64.toNat_mul]
  rw [outLen]
  by_cases hlt : toLen < fromLen * num / denom
  · have hnat := UInt64.lt_iff_toNat_lt.mp hlt
    rw [if_pos hlt, ← hquot]
    omega
  · have hnat := mt UInt64.lt_iff_toNat_lt.mpr hlt
    rw [if_neg hlt, ← hquot]
    omega

/-- What is cut off a product is worth more than one sample. -/
theorem wrapped_div_lt {product d : ℕ} (hd : 0 < d) (hlt : d < 2 ^ 64)
    (hbig : 2 ^ 64 ≤ product) : product % 2 ^ 64 / d < product / d := by
  have hmod : product % 2 ^ 64 + d ≤ product := by omega
  calc product % 2 ^ 64 / d < product % 2 ^ 64 / d + 1 := Nat.lt_succ_self _
    _ = (product % 2 ^ 64 + d) / d := (Nat.add_div_right _ hd).symm
    _ ≤ product / d := Nat.div_le_div_right hmod

theorem outLen_eq_samples_iff (hdenom : 0 < denom.toNat) :
    (outLen fromLen toLen num denom).toNat = samples fromLen toLen num denom ↔
      fromLen.toNat * num.toNat < 2 ^ 64 ∨
        toLen.toNat ≤ fromLen.toNat * num.toNat % 2 ^ 64 / denom.toNat := by
  rw [toNat_outLen, samples]
  by_cases hsmall : fromLen.toNat * num.toNat < 2 ^ 64
  · rw [Nat.mod_eq_of_lt hsmall]
    exact iff_of_true rfl (.inl hsmall)
  · have hquot := wrapped_div_lt hdenom denom.toNat_lt (Nat.le_of_not_lt hsmall)
    omega

/-! ## The two neighbours -/

/-- The sample above a position is in the input exactly when the position is
not behind the last sample. -/
theorem ceil_lt_iff {o : ℕ} (hnum : 0 < num.toNat) :
    ⌈position num denom o⌉.toNat < fromLen.toNat ↔
      fromLen.toNat ≠ 0 ∧ o * denom.toNat ≤ (fromLen.toNat - 1) * num.toNat := by
  have hpos : (0 : ℚ) < num.toNat := Nat.cast_pos.mpr hnum
  have hceil : ⌈position num denom o⌉.toNat ≤ fromLen.toNat - 1 ↔
      o * denom.toNat ≤ (fromLen.toNat - 1) * num.toNat := by
    rw [Int.toNat_le, Int.ceil_le, position, div_le_iff₀ hpos]
    exact_mod_cast Iff.rfl
  rw [← hceil]
  omega

theorem floor_le_ceil (num denom : UInt64) (o : ℕ) :
    ⌊position num denom o⌋.toNat ≤ ⌈position num denom o⌉.toNat :=
  Int.toNat_le_toNat (Int.floor_le_ceil _)

/-- One round stays in the buffers exactly when its upper neighbour and its
output sample do. -/
theorem within_interpolate_iff {input : ℕ → Int16} {o : ℕ} (ho : o < 2 ^ 32) :
    Within (InBounds fromLen toLen) (interpolate input num denom (UInt32.ofNat o)) ↔
      ⌈position num denom o⌉.toNat < fromLen.toNat ∧ o < toLen.toNat := by
  have hfloor := floor_le_ceil num denom o
  constructor
  · intro h
    have hread := h (.read ⌈position num denom (UInt32.ofNat o).toNat⌉.toNat)
      (by simp [interpolate])
    have hwrite := h (.write (UInt32.ofNat o).toNat _) (by simp [interpolate]; rfl)
    rw [toNat_ofNat_lt ho] at hread hwrite
    exact ⟨hread, hwrite⟩
  · rintro ⟨hceil, hout⟩ e he
    simp only [interpolate, toNat_ofNat_lt ho, log_bind, log_note, List.mem_append,
      List.mem_singleton] at he
    obtain rfl | rfl | rfl := he
    · exact Nat.lt_of_le_of_lt hfloor hceil
    · exact hceil
    · exact hout

/-! ## A whole conversion -/

/-- A conversion that ends has run each of its rounds. -/
theorem within_convert_iff {input : ℕ → Int16} {rounds : ℕ}
    (hn : (outLen fromLen toLen num denom).toNat < 2 ^ 32)
    (hrounds : (outLen fromLen toLen num denom).toNat < rounds) :
    Within (InBounds fromLen toLen) (convert input fromLen toLen num denom rounds) ↔
      ∀ o < (outLen fromLen toLen num denom).toNat,
        Within (InBounds fromLen toLen) (interpolate input num denom (UInt32.ofNat o)) := by
  rw [Within, convert, log_bind, log_pure, List.append_nil,
    (convertLoop_zero hn rounds).2 hrounds]
  simp only [List.mem_flatMap, List.mem_range]
  constructor
  · intro h o ho e he
    exact h e ⟨o, ho, he⟩
  · rintro h e ⟨o, ho, he⟩
    exact h o ho e he

theorem value_convert_eq_some_iff {input : ℕ → Int16} {rounds : ℕ} {n : UInt64} :
    value (convert input fromLen toLen num denom rounds) = some n ↔
      (outLen fromLen toLen num denom).toNat < 2 ^ 32 ∧
        (outLen fromLen toLen num denom).toNat < rounds ∧ outLen fromLen toLen num denom = n := by
  rw [convert, value_bind, value_pure]
  by_cases hn : (outLen fromLen toLen num denom).toNat < 2 ^ 32
  · simp only [(convertLoop_zero hn rounds).1, hn, true_and, Option.ite_none_right_eq_some,
      Option.some.injEq]
  · rw [convertLoop_endless (Nat.le_of_not_lt hn)]
    exact iff_of_false (fun h => nomatch h) fun h => hn h.1

/-- Of all the positions only the last one has to be looked at. -/
theorem neighbours_iff {m : ℕ} (hm : m ≤ toLen.toNat) (hfrom : fromLen.toNat = 0 → m = 0)
    (hnum : 0 < num.toNat) :
    (∀ o < m, ⌈position num denom o⌉.toNat < fromLen.toNat ∧ o < toLen.toNat) ↔
      m * denom.toNat ≤ (fromLen.toNat - 1) * num.toNat + denom.toNat := by
  constructor
  · intro h
    cases m with
    | zero =>
        rw [Nat.zero_mul]
        exact Nat.zero_le _
    | succ last =>
        have hlast := ((ceil_lt_iff hnum).mp (h last (Nat.lt_succ_self last)).1).2
        rw [Nat.succ_mul]
        exact Nat.add_le_add_right hlast _
  · intro h o ho
    have hnext : (o + 1) * denom.toNat ≤ m * denom.toNat := Nat.mul_le_mul_right _ ho
    rw [Nat.succ_mul] at hnext
    have hpos : fromLen.toNat ≠ 0 := fun h0 => by
      have := hfrom h0
      omega
    exact ⟨(ceil_lt_iff hnum).mpr ⟨hpos, by omega⟩, by omega⟩

/-- A conversion is right exactly when it fits. -/
theorem converts_convert_iff (input : ℕ → Int16) (hnum : 0 < num.toNat)
    (hdenom : 0 < denom.toNat) :
    Converts (convert input fromLen toLen num denom) fromLen toLen num denom ↔
      Fits fromLen toLen num denom := by
  have hm : samples fromLen toLen num denom ≤ toLen.toNat := Nat.min_le_left _ _
  have hfrom : fromLen.toNat = 0 → samples fromLen toLen num denom = 0 := fun h0 => by
    rw [samples, h0, Nat.zero_mul, Nat.zero_div, Nat.min_zero]
  constructor
  · rintro ⟨rounds, n, hvalue, hn, hwithin⟩
    obtain ⟨hcounter, hrounds, rfl⟩ := value_convert_eq_some_iff.mp hvalue
    rw [within_convert_iff hcounter hrounds, hn] at hwithin
    rw [hn] at hcounter
    refine ⟨(outLen_eq_samples_iff hdenom).mp hn, hcounter, ?_⟩
    exact (neighbours_iff hm hfrom hnum).mp fun o ho =>
      (within_interpolate_iff (ho.trans hcounter)).mp (hwithin o ho)
  · intro h
    have hn := (outLen_eq_samples_iff hdenom).mpr h.product
    have hcounter : (outLen fromLen toLen num denom).toNat < 2 ^ 32 := hn ▸ h.counter
    refine ⟨_, _, value_convert_eq_some_iff.mpr ⟨hcounter, Nat.lt_succ_self _, rfl⟩, hn, ?_⟩
    rw [within_convert_iff hcounter (Nat.lt_succ_self _), hn]
    intro o ho
    exact (within_interpolate_iff (ho.trans h.counter)).mpr
      ((neighbours_iff hm hfrom hnum).mpr h.neighbour o ho)

/-- When there are not more samples than before, the last position is always
low enough. -/
theorem neighbour_of_le (hle : num.toNat ≤ denom.toNat) :
    samples fromLen toLen num denom * denom.toNat ≤
      (fromLen.toNat - 1) * num.toNat + denom.toNat := by
  have hsamples : samples fromLen toLen num denom * denom.toNat ≤ fromLen.toNat * num.toNat :=
    (Nat.mul_le_mul_right _ (Nat.min_le_right _ _)).trans (Nat.div_mul_le_self _ _)
  have hsplit : fromLen.toNat * num.toNat ≤ (fromLen.toNat - 1) * num.toNat + num.toNat := by
    rw [← Nat.succ_mul]
    exact Nat.mul_le_mul_right _ (by omega)
  omega

end

/-- Whatever the samples, a conversion reads and writes inside its buffers
and returns the right number exactly when the lengths fit. -/
theorem converts_iff (input : ℕ → Int16) (fromLen toLen : UInt64) :
    (∀ num denom : UInt64, 0 < num → 0 < denom →
      (Converts (convert input fromLen toLen num denom) fromLen toLen num denom ↔
        Fits fromLen toLen num denom)) ∧
    (Converts (convert48To44 input fromLen toLen) fromLen toLen 147 160 ↔
      Fits fromLen toLen 147 160) ∧
    (Converts (convert44To48 input fromLen toLen) fromLen toLen 160 147 ↔
      Fits fromLen toLen 160 147) := by
  refine ⟨fun num denom hnum hdenom => ?_, ?_, ?_⟩
  · exact converts_convert_iff input (UInt64.lt_iff_toNat_lt.mp hnum)
      (UInt64.lt_iff_toNat_lt.mp hdenom)
  · exact converts_convert_iff input (by decide) (by decide)
  · exact converts_convert_iff input (by decide) (by decide)

/-- 10 ms from 48 to 44.1 kHz, by both functions that can do it. -/
theorem converts_ten_ms (input : ℕ → Int16) :
    Converts (convert input 480 441 147 160) 480 441 147 160 ∧
      Converts (convert48To44 input 480 441) 480 441 147 160 := by
  have hfits : Fits 480 441 147 160 := ⟨.inl (by decide), by decide, by decide⟩
  obtain ⟨hconvert, hfixed, -⟩ := converts_iff input 480 441
  exact ⟨(hconvert 147 160 (by decide) (by decide)).mpr hfits, hfixed.mpr hfits⟩

/-- 147 samples at 44.1 kHz are 160 at 48 kHz, and the last of them lies
above the last sample that there is. -/
theorem converts_fails :
    ¬ ∀ (input : ℕ → Int16) (fromLen toLen : UInt64),
      (∀ num denom : UInt64, 0 < num → 0 < denom →
        Converts (convert input fromLen toLen num denom) fromLen toLen num denom) ∧
      Converts (convert48To44 input fromLen toLen) fromLen toLen 147 160 ∧
      Converts (convert44To48 input fromLen toLen) fromLen toLen 160 147 := by
  intro h
  have hfits := (converts_convert_iff (fun _ => 0) (by decide) (by decide)).mp
    (h (fun _ => 0) 147 160).2.2
  have hlast : ¬ samples 147 160 160 147 * 147 ≤ (147 - 1) * 160 + 147 := by decide
  exact hlast hfits.neighbour

end Resampler

end Tgvoip
