import Tgvoip.Net.JitterArray

/-!
# JitterAdvance — what `JitterArray::advance` drops

`advance` walks round the circle from `back` until it meets the slot of
the new oldest seq. `advanceWithin` is the same with a bound on the rounds
of that walk, so that not coming to an end is a result of its own: 64
rounds always do (`advanceWithin_eq`), whatever the fields are.

What the walk empties depends on them. `Placed` is the relation between
the four: the walk then passes the slots of the older seqs and no other,
also where the circle is full or the new oldest seq is `frontSeq`
(`Placed.get_advance`).
-/

namespace Tgvoip

open Ring

namespace JitterArray

variable {β : Type*} {a : JitterArray β} {seq x : UInt32}

/-- `advance` with at most `rounds` rounds of its loop: nothing where it is
not through by then. -/
def advanceWithin (rounds : ℕ) (a : JitterArray β) (seq : UInt32) : Option (JitterArray β) :=
  if a.empty then some a
  else if seq > a.frontSeq then some a.clear
  else if seq < a.backSeq then some a
  else
    let til := a.getOffset seq
    (@clearWithin _ neZero_slots _ til rounds a.back a.slots).map fun slots =>
      { a with slots, back := til, backSeq := seq }

/-- Front and back are as far apart as their seqs, less than a circle, and
only the slots between them hold buffers. -/
structure Placed (a : JitterArray β) : Prop where
  order : a.backSeq ≤ a.frontSeq
  span : a.frontSeq.toNat - a.backSeq.toNat ≤ 63
  front : a.front.val = (a.back.val + (a.frontSeq.toNat - a.backSeq.toNat)) % jitterSlotCount
  inside : ∀ i, (∀ s, a.backSeq ≤ s → s ≤ a.frontSeq → i ≠ a.getOffset s) → a.slots i = none

/-! ## The loop ends -/

theorem advanceWithin_eq {rounds : ℕ} (hr : jitterSlotCount ≤ rounds) (a : JitterArray β)
    (seq : UInt32) : a.advanceWithin rounds seq = some (a.advance seq) := by
  unfold advanceWithin advance
  split_ifs
  · rfl
  · rfl
  · rfl
  · simp only [clearWithin_eq _ hr, Option.map_some]

theorem advance_of_empty (h : a.empty = true) (seq : UInt32) : a.advance seq = a := by
  rw [advance, if_pos h]

theorem get_of_empty (h : a.empty = true) : a.get x = none := by
  simp [get, h]

/-! ## Placed arrays -/

/-- Placed is live without a word on whether there is a newest seq. -/
theorem Placed.live (h : a.Placed) (hv : a.frontSeq ≠ invalidSeq) : a.Live := by
  have hspan := h.span
  have hn : jitterSlotCount = 64 := rfl
  refine ⟨hv, h.order, by omega, ?_, ?_⟩
  · rw [Fin.ext_iff, pos_val]
    exact h.front
  · intro k hk hk64
    refine h.inside _ fun s hb hf => ?_
    rw [UInt32.le_iff_toNat_le] at hf
    rw [getOffset_of_le hb, Ne, pos_inj _ hk64 (by omega)]
    omega

theorem Live.placed (h : a.Live) : a.Placed := by
  have hspan := h.span
  have hn : jitterSlotCount = 64 := rfl
  refine ⟨h.order, by omega, ?_, ?_⟩
  · rw [← pos_val, ← h.front]
  · intro i hi
    obtain ⟨k, hk64, rfl⟩ := exists_pos a.back i
    refine h.inside k (Nat.lt_of_not_ge fun hk => ?_) hk64
    obtain ⟨s, hb, hf, hs⟩ := exists_seq_at h.order hk
    exact hi s hb hf hs.symm

theorem placed_clear (a : JitterArray β) : a.clear.Placed where
  order := UInt32.le_refl _
  span := by simp [clear]
  front := by simp [clear]
  inside := fun _ _ => rfl

/-- **The same conditions hold afterwards.** -/
theorem Placed.advance (h : a.Placed) (seq : UInt32) : (a.advance seq).Placed := by
  cases hempty : a.empty with
  | true =>
      rw [advance_of_empty hempty]
      exact h
  | false =>
      have hv := empty_eq_false.mp hempty
      by_cases hgt : a.frontSeq < seq
      · rw [advance_beyond hv hgt]
        exact a.placed_clear
      · by_cases hlt : seq < a.backSeq
        · rw [advance_below hlt hgt]
          exact h
        · exact ((h.live hv).advance_live hgt hlt).placed

/-- Below the oldest seq there is nothing to drop, above it go the older
seqs. -/
theorem Placed.get_advance (h : a.Placed) (seq x : UInt32) :
    (a.advance seq).get x = if a.backSeq ≤ seq ∧ x < seq then none else a.get x := by
  cases hempty : a.empty with
  | true => rw [advance_of_empty hempty, get_of_empty hempty, ite_self]
  | false =>
      have hv := empty_eq_false.mp hempty
      rw [(h.live hv).advance.2]
      simp only [get_of_valid hv, UInt32.le_iff_toNat_le, UInt32.lt_iff_toNat_lt]
      split_ifs <;> first | rfl | omega

/-- **`advance` drops exactly the older packets**: it comes to an end, what
is stored under a seq below the new oldest one is gone and everything else
is where it was, nothing happens below `backSeq`, and the four fields stand
to each other as before. -/
theorem advance_drops_older (h : a.empty = true ∨ a.Placed) (seq : UInt32) :
    (∀ rounds, jitterSlotCount ≤ rounds → a.advanceWithin rounds seq = some (a.advance seq)) ∧
      (∀ x, (a.advance seq).get x = if a.backSeq ≤ seq ∧ x < seq then none else a.get x) ∧
      (a.empty = true → a.advance seq = a) ∧ (a.Placed → (a.advance seq).Placed) := by
  refine ⟨fun rounds hr => advanceWithin_eq hr a seq, fun x => ?_,
    fun hempty => advance_of_empty hempty seq, fun hp => hp.advance seq⟩
  rcases h with hempty | hp
  · rw [advance_of_empty hempty, get_of_empty hempty, ite_self]
  · exact hp.get_advance seq x

/-- All 64 slots hold a packet. -/
def fullCircle : JitterArray (Fin 64) where
  front := (Fin.last 62).castSucc
  back := Fin.last 63
  frontSeq := 163
  backSeq := 100
  slots := some

theorem placed_fullCircle : fullCircle.Placed := by
  refine Live.placed ⟨by decide, by decide, by decide, by decide, fun k hk hk64 => ?_⟩
  have hdist : fullCircle.frontSeq.toNat - fullCircle.backSeq.toNat = 63 := rfl
  have hn : jitterSlotCount = 64 := rfl
  omega

/-- A full circle, advanced to its newest seq: that one alone is left. -/
theorem advance_full_to_newest :
    fullCircle.advanceWithin 64 163 = some (fullCircle.advance 163) ∧
      (fullCircle.advance 163).get 162 = none ∧ (fullCircle.advance 163).get 163 = some fullCircle.front := by
  have h := advance_drops_older (.inr placed_fullCircle) 163
  refine ⟨h.1 64 (Nat.le_refl _), ?_, ?_⟩
  · rw [h.2.1]
    decide
  · rw [h.2.1]
    decide

end JitterArray

end Tgvoip
