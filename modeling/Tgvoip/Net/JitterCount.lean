import Mathlib.Algebra.BigOperators.Intervals
import Tgvoip.Net.JitterBuffer

/-!
# JitterCount — what `JitterArray::count` counts

`count` walks from `back` up to `front` and leaves `front` itself out;
only where the two are one slot is that slot looked at. The slot of the
newest packet is `front`, so a packet that was put above another is not
counted. `walk` is how far the walk goes, and `Walked` says that no
buffer lies beyond it: this is when the count is the number of stored
buffers (`count_eq_stored_iff`).

Removals, advances and `clear` keep `Walked`. A `put` that stores has it
afterwards exactly if its buffer is the only one and lies in the back
slot, whatever the array was before (`walked_put`); the last section
carries that over runs, and from the count of one array to
`GetCurrentDelay`.
-/

namespace Tgvoip

open Ring Runs

namespace JitterArray

variable {β : Type*} {a : JitterArray β} {s : UInt32} {b : β}

/-- The distances from `back` that `count` looks at are those below this. -/
def walk (a : JitterArray β) : ℕ := max 1 (a.front - a.back).val

/-- No buffer lies beyond the walk. -/
def Walked (a : JitterArray β) : Prop :=
  ∀ k < jitterSlotCount, a.walk ≤ k → a.slots (@pos _ neZero_slots a.back k) = none

/-- An array that says it is empty holds nothing. -/
def Honest (a : JitterArray β) : Prop := a.empty = true → ∀ i, a.slots i = none

theorem front_eq (a : JitterArray β) : a.front = pos a.back (a.front - a.back).val := by
  simp [pos]

theorem walk_lt (a : JitterArray β) : a.walk < jitterSlotCount :=
  max_lt (by decide) (a.front - a.back).isLt

theorem walk_of_eq (h : a.front = a.back) : a.walk = 1 := by simp [walk, h]

/-- The walk is known from any distance of the front below a full turn. -/
theorem walk_of_pos {j : ℕ} (hj : j < jitterSlotCount) (h : a.front = pos a.back j) :
    a.walk = max 1 j := by
  have hfront := a.front_eq
  rw [h, pos_inj _ hj (by exact Fin.isLt _), ← h] at hfront
  rw [walk, ← hfront]

theorem count_eq (hv : a.empty = false) :
    a.count = ∑ k ∈ Finset.range a.walk, if (a.slots (pos a.back k)).isSome then 1 else 0 := by
  simp only [count, hv, Bool.false_eq_true, if_false]
  by_cases hone : a.front = a.back
  · rw [walk_of_eq hone, Finset.sum_range_one, pos_zero]
    split
    · rename_i h
      rw [if_pos h.2]
    · rename_i h
      have hback : (a.slots a.back).isSome ≠ true := fun hs => h ⟨hone.symm, hs⟩
      rw [if_neg hback, hone]
      simp [filled]
  · have hdist : (a.front - a.back).val ≠ 0 := by
      rw [Ne, Fin.val_eq_zero_iff, sub_eq_zero]
      exact hone
    have hwalk : a.walk = (a.front - a.back).val := max_eq_right (Nat.pos_of_ne_zero hdist)
    rw [if_neg fun h => hone h.1.symm, hwalk]
    conv_lhs => rw [front_eq a]
    exact filled_eq _ _ (Fin.isLt _) (Fin.isLt _).le _

/-- **What the count misses** is what lies beyond the walk. -/
theorem count_eq_stored_iff (h : a.Honest) : a.count = stored a.slots ↔ a.Walked := by
  cases hv : a.empty with
  | true =>
      have hnone := h hv
      have hcount : a.count = 0 := by simp [count, hv]
      rw [hcount, stored_eq_zero.mpr hnone]
      exact ⟨fun _ k _ _ => hnone _, fun _ => rfl⟩
  | false =>
      rw [count_eq hv, stored_eq a.slots a.back, Finset.range_eq_Ico, Finset.range_eq_Ico,
        ← Finset.sum_Ico_consecutive _ (Nat.zero_le _) a.walk_lt.le, left_eq_add,
        Finset.sum_eq_zero_iff]
      simp only [Finset.mem_Ico, Walked]
      refine ⟨fun hz k hk hw => ?_, fun hw k hk => ?_⟩
      · simpa using hz k ⟨hw, hk⟩
      · simp [hw k hk.2 hk.1]

theorem count_le (h : a.Honest) (hw : a.Walked) : a.count ≤ jitterSlotCount := by
  rw [(count_eq_stored_iff h).mpr hw]
  exact stored_le _

/-! ## What each operation does to the walk -/

theorem honest_clear (a : JitterArray β) : a.clear.Honest := fun _ _ => rfl

theorem walked_clear (a : JitterArray β) : a.clear.Walked := fun _ _ _ => rfl

/-- Fewer buffers between the same two ends. -/
theorem Walked.fewer (h : a.Walked) {c : Fin jitterSlotCount → Option β}
    (hc : ∀ i, a.slots i = none → c i = none) : Walked { a with slots := c } :=
  fun k hk hw => hc _ (h k hk hw)

theorem update_none_eq (a : JitterArray β) (i j : Fin jitterSlotCount) (hj : a.slots j = none) :
    Function.update a.slots i none j = none := by
  by_cases hij : j = i
  · rw [hij, Function.update_self]
  · rwa [Function.update_of_ne hij]

theorem Walked.take (h : a.Walked) : (a.take s).Walked := by
  rw [JitterArray.take]
  split
  · exact h.fewer fun j hj => a.update_none_eq _ j hj
  · exact h

theorem Honest.take (h : a.Honest) : (a.take s).Honest := by
  rw [JitterArray.take]
  split
  · exact fun hv j => a.update_none_eq _ j (h hv j)
  · exact h

/-- A position is known from the distance less its full turns. -/
theorem pos_mod (i : Fin jitterSlotCount) (k : ℕ) : pos i (k % jitterSlotCount) = pos i k := by
  apply Fin.ext
  rw [pos_val, pos_val, Nat.add_mod_mod]

/-- Moving the back up to the slot at distance `d`, emptying what is left
behind, keeps the buffers on the walk. -/
theorem Walked.moved (h : a.Walked) {d : ℕ} (hd : d < jitterSlotCount) (fs bs : UInt32) :
    Walked { a with
      slots := Ring.clear (pos a.back d) jitterSlotCount a.back a.slots
      back := pos a.back d, frontSeq := fs, backSeq := bs } := by
  intro k hk hw
  simp only at hw ⊢
  rw [pos_add, clear_spec d hd jitterSlotCount hd.le]
  split
  · rfl
  · rename_i hno
    have hin : d + k < jitterSlotCount := by
      by_contra hout
      refine hno ⟨d + k - jitterSlotCount, by omega, ?_⟩
      rw [← pos_add_size, Nat.sub_add_cancel (Nat.not_lt.mp hout)]
    apply h _ hin
    -- the front is as far from the new back as it was, less `d`
    have hj := (a.front - a.back).isLt
    have hfront := a.front_eq
    rw [walk_of_pos hj hfront]
    by_cases hle : d ≤ (a.front - a.back).val
    · have hnew : a.front = pos (pos a.back d) ((a.front - a.back).val - d) := by
        rw [pos_add, Nat.add_sub_cancel' hle]
        exact hfront
      rw [walk_of_pos (by omega) hnew] at hw
      omega
    · have hpos : 1 ≤ d := by omega
      omega

/-- What `advance` does to a non-empty array. -/
theorem advance_cases (hv : a.empty = false) (s : UInt32) :
    a.advance s = a.clear ∨ a.advance s = a ∨
      ∃ d < jitterSlotCount, a.advance s = { a with
        slots := Ring.clear (pos a.back d) jitterSlotCount a.back a.slots
        back := pos a.back d, backSeq := s } := by
  simp only [advance, hv, Bool.false_eq_true, if_false]
  split
  · exact .inl rfl
  · split
    · exact .inr (.inl rfl)
    · refine .inr (.inr ⟨_, Nat.mod_lt (s - a.backSeq).toNat (by decide), ?_⟩)
      rw [pos_mod, getOffset]

theorem Walked.advance (h : a.Walked) : (a.advance s).Walked := by
  cases hv : a.empty with
  | true =>
      rw [JitterArray.advance, if_pos hv]
      exact h
  | false =>
      obtain he | he | ⟨d, hd, he⟩ := advance_cases hv s <;> rw [he]
      · exact walked_clear a
      · exact h
      · exact h.moved hd a.frontSeq s

theorem Honest.advance (h : a.Honest) : (a.advance s).Honest := by
  cases hv : a.empty with
  | true =>
      rw [JitterArray.advance, if_pos hv]
      exact h
  | false =>
      obtain he | he | ⟨d, hd, he⟩ := advance_cases hv s <;> rw [he]
      · exact honest_clear a
      · exact h
      · intro hc
        exact absurd (hv.symm.trans hc) Bool.false_ne_true

/-! ## Puts -/

/-- The array with room made for a seq. -/
def room (a : JitterArray β) (seq : UInt32) : JitterArray β :=
  if seq - a.backSeq > 64 then a.advance (a.backSeq + (seq - a.backSeq - 64)) else a

/-- **The puts that are counted**: into an empty array, or too old, or into
the back slot while no other slot is filled. -/
def Alone (a : JitterArray β) (seq : UInt32) : Prop :=
  a.empty = true ∨ seq < a.backSeq ∨
    (@pos _ neZero_slots (a.room seq).front (seq - a.backSeq).toNat = (a.room seq).back ∧
      ∀ i, i ≠ (a.room seq).back → (a.room seq).slots i = none)

instance (a : JitterArray β) (seq : UInt32) : Decidable (a.Alone seq) :=
  inferInstanceAs (Decidable (_ ∨ _ ∨ _))

theorem put_eq (hv : a.empty = false) (hge : ¬ s < a.backSeq) :
    (a.put s b).2 = { a.room s with
      front := pos (a.room s).front (s - a.backSeq).toNat, frontSeq := s
      slots := Function.update (a.room s).slots
        (pos (a.room s).front (s - a.backSeq).toNat) (some b) } := by
  simp only [put, hv, Bool.false_eq_true, if_false, hge, room]
  split <;> rfl

theorem put_empty (hv : a.empty = true) :
    (a.put s b).2 = { a with
      backSeq := s, frontSeq := s, back := 0, front := 0
      slots := Function.update a.slots 0 (some b) } := by
  simp [put, hv]

theorem pos_ne_self (i : Fin jitterSlotCount) {k : ℕ} (hk : k < jitterSlotCount) (h0 : 1 ≤ k) :
    pos i k ≠ i := by
  conv_rhs => rw [← pos_zero i]
  rw [Ne, pos_inj _ hk (by decide)]
  omega

/-- A put into an empty array is counted. -/
theorem Honest.walked_put (h : a.Honest) (hv : a.empty = true) : (a.put s b).2.Walked := by
  rw [put_empty hv]
  intro k hk hw
  rw [walk_of_eq rfl] at hw
  simp only
  rw [Function.update_of_ne (pos_ne_self 0 hk hw), h hv]

/-- **A put that stores is counted** exactly if its buffer is the only one and
lies in the back slot. -/
theorem walked_put (hv : a.empty = false) (hge : ¬ s < a.backSeq) :
    (a.put s b).2.Walked ↔
      pos (a.room s).front (s - a.backSeq).toNat = (a.room s).back ∧
        ∀ i, i ≠ (a.room s).back → (a.room s).slots i = none := by
  rw [put_eq hv hge]
  constructor
  · intro h
    have hfront : pos (a.room s).front (s - a.backSeq).toNat = (a.room s).back := by
      -- the stored buffer lies at the front, where the walk ends
      obtain ⟨k, hk, hpos⟩ := exists_pos (a.room s).back
        (pos (a.room s).front (s - a.backSeq).toNat)
      have hwalk := h k hk
      rw [walk_of_pos hk hpos.symm] at hwalk
      simp only [hpos, Function.update_self, reduceCtorEq, imp_false] at hwalk
      have hzero : k = 0 := by omega
      rw [← hpos, hzero, pos_zero]
    refine ⟨hfront, fun i hi => ?_⟩
    obtain ⟨k, hk, rfl⟩ := exists_pos (a.room s).back i
    have hk0 : k ≠ 0 := fun h0 => hi (by rw [h0, pos_zero])
    have hnone := h k hk (by rw [walk_of_eq hfront]; omega)
    simp only [hfront] at hnone
    rwa [Function.update_of_ne hi] at hnone
  · rintro ⟨hfront, hrest⟩ k hk hw
    rw [walk_of_eq hfront] at hw
    have hne := pos_ne_self (a.room s).back hk hw
    simp only [hfront]
    rw [Function.update_of_ne hne, hrest _ hne]

theorem Honest.put (h : a.Honest) (hs : s ≠ invalidSeq) : (a.put s b).2.Honest := by
  by_cases hv : a.empty = true
  · rw [put_empty hv]
    exact fun hc => absurd (empty_eq_true.mp hc) hs
  · rw [Bool.not_eq_true] at hv
    by_cases hge : s < a.backSeq
    · rw [put_rejects ⟨hv, hge⟩]
      exact h
    · rw [put_eq hv hge]
      exact fun hc => absurd (empty_eq_true.mp hc) hs

theorem Walked.put_iff (h : a.Walked) (ho : a.Honest) : (a.put s b).2.Walked ↔ a.Alone s := by
  by_cases hv : a.empty = true
  · exact ⟨fun _ => .inl hv, fun _ => ho.walked_put hv⟩
  · rw [Bool.not_eq_true] at hv
    by_cases hge : s < a.backSeq
    · rw [put_rejects ⟨hv, hge⟩]
      exact ⟨fun _ => .inr (.inl hge), fun _ => h⟩
    · rw [walked_put hv hge, Alone, hv]
      simp [hge]

/-! ## Runs -/

namespace JitterRun

variable {r : JitterRun β} {e : JitterEvent β}

/-- Seqs that are put are below `2^31`. -/
def SmallPut (_ : JitterRun β) : JitterEvent β → Prop
  | .put s _ => s.toNat < 2 ^ 31
  | _ => True

/-- The count after a step is the number of slots that hold a buffer. -/
def Counted (r : JitterRun β) (e : JitterEvent β) : Prop :=
  (r.step e).array.count = stored (r.step e).array.slots ∧
    (r.step e).array.count ≤ jitterSlotCount

/-- A put finds the array as it must be for the count. -/
def PutAlone (r : JitterRun β) : JitterEvent β → Prop
  | .put s _ => r.array.Alone s
  | _ => True

theorem honest_step (h : r.array.Honest) (hs : SmallPut r e) : (r.step e).array.Honest := by
  cases e with
  | put s b => exact h.put (ne_invalid_of_lt hs)
  | take s => exact h.take
  | advance s => exact h.advance
  | clear => exact r.array.honest_clear

theorem walked_step (ho : r.array.Honest) (h : r.array.Walked) :
    (r.step e).array.Walked ↔ PutAlone r e := by
  cases e with
  | put s b => exact h.put_iff ho
  | take s => exact iff_of_true h.take trivial
  | advance s => exact iff_of_true h.advance trivial
  | clear => exact iff_of_true r.array.walked_clear trivial

theorem counted_iff (ho : r.array.Honest) (hs : SmallPut r e) :
    Counted r e ↔ (r.step e).array.Walked := by
  have hiff := count_eq_stored_iff (honest_step ho hs)
  exact ⟨fun h => hiff.mp h.1, fun h => ⟨hiff.mpr h, count_le (honest_step ho hs) h⟩⟩

/-- Step by step, the count is right as long as each put finds the array as
it must. -/
theorem along_counted_iff (es : List (JitterEvent β)) (ho : r.array.Honest) (hw : r.array.Walked)
    (hs : Along step SmallPut r es) :
    Along step Counted r es ↔ Along step PutAlone r es := by
  refine along_congr (I := fun r : JitterRun β => r.array.Honest ∧ r.array.Walked) ?_ ?_ ⟨ho, hw⟩ hs
  · exact fun r e h hs => (counted_iff h.1 hs).trans (walked_step h.1 h.2)
  · exact fun r e h hs ha => ⟨honest_step h.1 hs, (walked_step h.1 h.2).mpr ha⟩

/-- The array a counted run leaves. -/
theorem exec_counted (es : List (JitterEvent β)) (hs : Along step SmallPut r es)
    (ho : r.array.Honest) (hw : r.array.Walked) (ha : Along step PutAlone r es) :
    (exec step r es).array.count = stored (exec step r es).array.slots := by
  have hkept := (along_and.mpr ⟨hs, ha⟩).invariant
    (I := fun r : JitterRun β => r.array.Honest ∧ r.array.Walked)
    (fun r e h hstep => ⟨honest_step h.1 hstep.1, (walked_step h.1 h.2).mpr hstep.2⟩) ⟨ho, hw⟩
  exact (count_eq_stored_iff hkept.1).mpr hkept.2

/-- **The count, exactly**: over every run of puts, removals, advances and
clears with seqs below `2^31`, the count is the number of stored buffers
after every step if and only if every put is counted; then the delay of
the jitter buffer is that of the fuller of its two arrays. -/
theorem count_iff_alone (es : List (JitterEvent β)) (hs : Along step SmallPut {} es) :
    (Along step Counted ({} : JitterRun β) es ↔ Along step PutAlone {} es) ∧
      ∀ fs, Along step SmallPut ({} : JitterRun β) fs → Along step PutAlone {} es →
        Along step PutAlone {} fs → ∀ j : JitterBuffer β,
          j.slotsMain = (exec step {} es).array → j.slotsEc = (exec step {} fs).array →
            j.getCurrentDelay = max (stored j.slotsEc.slots) (stored j.slotsMain.slots) := by
  have ho : ({} : JitterRun β).array.Honest := fun _ _ => rfl
  have hw : ({} : JitterRun β).array.Walked := fun _ _ _ => rfl
  refine ⟨along_counted_iff es ho hw hs, fun fs hfs ha hfa j hmain hec => ?_⟩
  rw [JitterBuffer.getCurrentDelay, hmain, hec, exec_counted es hs ho hw ha,
    exec_counted fs hfs ho hw hfa]

/-- Packets played one at a time, one of them refused, in both arrays. -/
theorem count_one_at_a_time :
    Along step Counted ({} : JitterRun ℕ) [.put 5 0, .put 3 1, .take 5, .advance 6, .put 6 2] ∧
      ∀ j : JitterBuffer ℕ,
        j.slotsMain = (exec step {} [.put 5 0, .put 3 1, .take 5, .advance 6, .put 6 2]).array →
        j.slotsEc = (exec step {} [.put 8 3]).array →
          j.getCurrentDelay = max (stored j.slotsEc.slots) (stored j.slotsMain.slots) := by
  have hmain : Along step PutAlone ({} : JitterRun ℕ)
      [.put 5 0, .put 3 1, .take 5, .advance 6, .put 6 2] := by
    refine ⟨?_, ?_, trivial, trivial, ?_, trivial⟩ <;> simp only [PutAlone] <;> decide
  have hec : Along step PutAlone ({} : JitterRun ℕ) [.put 8 3] := by
    refine ⟨?_, trivial⟩
    simp only [PutAlone]
    decide
  have h := count_iff_alone (β := ℕ) [.put 5 0, .put 3 1, .take 5, .advance 6, .put 6 2]
    (by simp [Along, SmallPut])
  exact ⟨h.1.mpr hmain, h.2 [.put 8 3] (by simp [Along, SmallPut]) hmain hec⟩

/-- Two packets in order: one of them is not counted. -/
theorem count_two_fails :
    Along step SmallPut ({} : JitterRun ℕ) [.put 10 0, .put 11 1] ∧
      ¬ Along step Counted ({} : JitterRun ℕ) [.put 10 0, .put 11 1] :=
  ⟨by simp [Along, SmallPut], fun h => absurd h.2.1.1 (by decide)⟩

end JitterRun

end JitterArray

end Tgvoip
