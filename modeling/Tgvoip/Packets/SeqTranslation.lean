import Tgvoip.Packets.AckWindow

/-!
# SeqTranslation — where the sequence logic sees the number space wrap

Sequence numbers count modulo `2^32`, and `seqgt` compares them so that the
place of the wrap does not matter. Behind it the receive window and
`wasLocalAcked` compare with a plain `<`, which sees the wrap. Moving the
whole number space by a constant then changes nothing exactly as long as
it changes none of these comparisons.

A comparison that the wrap turns around also shifts a word by 32 or more,
which C++ leaves undefined.
-/

namespace Tgvoip

open BitMask Runs

namespace PacketManager

/-- The two seqs are at most `n` apart, counted in the order of `seqgt`. -/
def Within (n a s : UInt32) : Prop := if seqgt s a then s - a ≤ n else a - s ≤ n

instance (n a s : UInt32) : Decidable (Within n a s) :=
  inferInstanceAs (Decidable (if seqgt s a then s - a ≤ n else a - s ≤ n))

/-- The receive window, moved by a constant. -/
def translate (pm : PacketManager) (k : UInt32) : PacketManager :=
  { pm with lastRemoteSeq := pm.lastRemoteSeq + k }

/-- Calls of `ackRemoteSeq` one after the other: what each returns, and the
manager behind it. -/
def ackRemoteSeqs : PacketManager → List UInt32 → List (Bool × PacketManager)
  | _, [] => []
  | pm, s :: ss => pm.ackRemoteSeq s :: ackRemoteSeqs (pm.ackRemoteSeq s).2 ss

/-- The manager behind a call. -/
def afterSeq (pm : PacketManager) (s : UInt32) : PacketManager := (pm.ackRemoteSeq s).2

/-- What a call shows, moved by a constant. -/
def translateResult (k : UInt32) (r : Bool × PacketManager) : Bool × PacketManager :=
  (r.1, r.2.translate k)

/-- The seq arrives close to the head. -/
def ArrivesWithin (pm : PacketManager) (s : UInt32) : Prop := Within 31 pm.lastRemoteSeq s

/-- The constant does not turn the plain comparison of the two numbers around. -/
def SameSide (k a s : UInt32) : Prop := a < s ↔ a + k < s + k

instance (pm : PacketManager) (s : UInt32) : Decidable (pm.ArrivesWithin s) :=
  inferInstanceAs (Decidable (Within ..))

instance (k a s : UInt32) : Decidable (SameSide k a s) := inferInstanceAs (Decidable (_ ↔ _))

section
variable {pm : PacketManager} {k n a s m : UInt32}

/-! ## Distances -/

/-- `seqgt` looks at the distance, except at half the number space. -/
theorem seqgt_iff_distance (a b : UInt32) :
    seqgt a b = true ↔ 0 < (a - b).toNat ∧ ((a - b).toNat < 2 ^ 31 ∨
      (a - b).toNat = 2 ^ 31 ∧ a < b) := by
  rw [seqgt_iff, UInt32.lt_iff_toNat_lt, UInt32.toNat_sub]
  have ha := a.toNat_lt
  have hb := b.toNat_lt
  omega

theorem Within.cases (h : Within n a s) : (s - a).toNat ≤ n.toNat ∨ (a - s).toNat ≤ n.toNat := by
  unfold Within at h
  split at h
  · exact .inl (UInt32.le_iff_toNat_le.mp h)
  · exact .inr (UInt32.le_iff_toNat_le.mp h)

theorem toNat_sub_comm (h : a ≠ s) : (s - a).toNat = 2 ^ 32 - (a - s).toNat := by
  have hne : a.toNat ≠ s.toNat := fun he => h (UInt32.toNat_inj.mp he)
  have ha := a.toNat_lt
  have hs := s.toNat_lt
  rw [UInt32.toNat_sub, UInt32.toNat_sub]
  omega

theorem add_sub_add (a s k : UInt32) : s + k - (a + k) = s - a := by grind

theorem add_right_inj' : s + k = a + k ↔ s = a := by grind

/-- Above the lower end of the window, and far from half the number space. -/
theorem Within.distance (h : Within 31 a s) :
    0 < (s - (a - maxRecentPackets)).toNat ∧ (s - (a - maxRecentPackets)).toNat < 2 ^ 31 := by
  have h31 : (31 : UInt32).toNat = 31 := rfl
  have h128 : maxRecentPackets.toNat = 128 := rfl
  have hsplit : s - (a - maxRecentPackets) = s - a + maxRecentPackets := by grind
  have hcases := h.cases
  rw [h31] at hcases
  rw [hsplit, UInt32.toNat_add, h128]
  by_cases heq : a = s
  · subst heq
    simp
  · have hcomm := toNat_sub_comm heq
    have hlt := (a - s).toNat_lt
    omega

/-- What arrives close to the head passes the window test, wherever the head is. -/
theorem Within.seqgt_window (h : Within 31 a s) (k : UInt32) :
    seqgt (s + k) (a + k - maxRecentPackets) = true := by
  have hmoved : s + k - (a + k - maxRecentPackets) = s - (a - maxRecentPackets) := by grind
  rw [seqgt_iff_distance, hmoved]
  exact ⟨h.distance.1, .inl h.distance.2⟩

/-! ## One call -/

/-- A call behind the window test: all it knows of the seq is the distance to
the head, and on which side of the head a plain comparison puts it. -/
theorem ackRemoteSeq_within (h : seqgt s (pm.lastRemoteSeq - maxRecentPackets) = true) :
    pm.ackRemoteSeq s =
      if s = pm.lastRemoteSeq then (false, pm)
      else if pm.lastRemoteSeq < s then
        (true, { pm with
          lastRemoteSeqsMask :=
            ((pm.lastRemoteSeqsMask <<< 1) ||| 1) <<< ((s - pm.lastRemoteSeq) - 1)
          lastRemoteSeq := s })
      else if pm.lastRemoteSeqsMask &&& (1 <<< ((pm.lastRemoteSeq - s) - 1)) ≠ 0 then (false, pm)
      else (true, { pm with
        lastRemoteSeqsMask := pm.lastRemoteSeqsMask ||| (1 <<< ((pm.lastRemoteSeq - s) - 1)) }) := by
  simp only [ackRemoteSeq, h, if_true, gt_iff_lt]

/-- A seq that a plain comparison puts behind the head leaves the head. -/
theorem ackRemoteSeq_head_of_le (h : ¬ pm.lastRemoteSeq < s) :
    (pm.ackRemoteSeq s).2.lastRemoteSeq = pm.lastRemoteSeq := by
  unfold ackRemoteSeq
  dsimp only
  split_ifs <;> rfl

/-- **One call is invariant** exactly if the plain comparison is. -/
theorem ArrivesWithin.translate_iff (h : pm.ArrivesWithin s) :
    (pm.translate k).ackRemoteSeq (s + k) = translateResult k (pm.ackRemoteSeq s) ↔
      SameSide k pm.lastRemoteSeq s := by
  have hwindow := Within.seqgt_window h 0
  rw [UInt32.add_zero, UInt32.add_zero] at hwindow
  have hmoved : seqgt (s + k) ((pm.translate k).lastRemoteSeq - maxRecentPackets) = true :=
    Within.seqgt_window h k
  have hhead : (pm.translate k).lastRemoteSeq = pm.lastRemoteSeq + k := rfl
  have hne : pm.lastRemoteSeq < s ∨ pm.lastRemoteSeq + k < s + k → s ≠ pm.lastRemoteSeq := by
    rintro (hlt | hlt) rfl <;> exact UInt32.lt_irrefl _ hlt
  unfold SameSide
  by_cases hlt : pm.lastRemoteSeq < s
  · by_cases hlt' : pm.lastRemoteSeq + k < s + k
    · refine iff_of_true ?_ (iff_of_true hlt hlt')
      rw [ackRemoteSeq_ahead hmoved hlt', ackRemoteSeq_ahead hwindow hlt, hhead, add_sub_add]
      rfl
    · -- only the head of the run as it was moves on
      refine iff_of_false ?_ fun hsame => hlt' (hsame.mp hlt)
      intro heq
      have hheads : s + k = pm.lastRemoteSeq + k := by
        calc s + k = (translateResult k (pm.ackRemoteSeq s)).2.lastRemoteSeq := by
              rw [ackRemoteSeq_ahead hwindow hlt]; rfl
          _ = ((pm.translate k).ackRemoteSeq (s + k)).2.lastRemoteSeq := by rw [heq]
          _ = pm.lastRemoteSeq + k := ackRemoteSeq_head_of_le hlt'
      exact hne (.inl hlt) (add_right_inj'.mp hheads)
  · by_cases hlt' : pm.lastRemoteSeq + k < s + k
    · -- only the head of the moved run moves on
      refine iff_of_false ?_ fun hsame => hlt (hsame.mpr hlt')
      intro heq
      have hheads : s + k = pm.lastRemoteSeq + k := by
        calc s + k = ((pm.translate k).ackRemoteSeq (s + k)).2.lastRemoteSeq := by
              rw [ackRemoteSeq_ahead hmoved hlt']
          _ = (pm.ackRemoteSeq s).2.lastRemoteSeq + k := by rw [heq]; rfl
          _ = pm.lastRemoteSeq + k := by rw [ackRemoteSeq_head_of_le hlt]
      exact hne (.inr hlt') (add_right_inj'.mp hheads)
    · refine iff_of_true ?_ (iff_of_false hlt hlt')
      have hmask : (pm.translate k).lastRemoteSeqsMask = pm.lastRemoteSeqsMask := rfl
      rw [ackRemoteSeq_within hmoved, ackRemoteSeq_within hwindow, hhead, hmask]
      simp only [add_right_inj', add_sub_add, hlt, hlt', if_false]
      split_ifs <;> rfl

/-! ## A run -/

/-- **A run is invariant** exactly if no plain comparison on its way is turned
around. -/
theorem ackRemoteSeqs_translate_iff {ss : List UInt32}
    (h : Along afterSeq ArrivesWithin pm ss) :
    (pm.translate k).ackRemoteSeqs (ss.map (· + k)) =
        (pm.ackRemoteSeqs ss).map (translateResult k) ↔
      Along afterSeq (fun pm s => SameSide k pm.lastRemoteSeq s) pm ss := by
  induction ss generalizing pm with
  | nil => simp [ackRemoteSeqs]
  | cons s ss ih =>
      obtain ⟨hs, hrest⟩ := h
      rw [List.map_cons, ackRemoteSeqs, ackRemoteSeqs, List.map_cons, List.cons_eq_cons,
        hs.translate_iff, along_cons]
      refine and_congr_right fun hside => ?_
      -- the moved run goes on from the moved manager
      rw [hs.translate_iff.mpr hside]
      exact ih hrest

/-! ## What the sender takes for acknowledged -/

/-- **What `wasLocalAcked` answers** near the last acknowledged seq: a bit, and
only on the plain side of it. -/
theorem wasLocalAcked_within (h : Within 32 a s) (hne : s ≠ a) :
    (pm.ackLocal a m).wasLocalAcked s =
      (seqgt a s && decide (s < a) && bit m (32 - (a - s).toNat)) := by
  have h32 : (32 : UInt32).toNat = 32 := rfl
  have hcases := h.cases
  have hcomm := toNat_sub_comm (Ne.symm hne)
  have hbound := (a - s).toNat_lt
  rw [h32] at hcases
  by_cases hlt : s < a
  · have hlt' : s.toNat < a.toNat := UInt32.lt_iff_toNat_lt.mp hlt
    have hdist : (a - s).toNat = a.toNat - s.toNat := toNat_sub_of_le (Nat.le_of_lt hlt')
    by_cases hnear : (a - s).toNat ≤ 32
    · have hgt : seqgt a s = true := by
        rw [seqgt_iff_distance]
        omega
      rw [wasLocalAcked_eq _ hlt (by rw [ackLocal_lastAckedSeq]; omega), hgt, decide_eq_true hlt,
        hdist]
      rfl
    · -- the wrap lies between the two: the code counts the long way round
      have hgt : seqgt a s = false := by
        rw [Bool.eq_false_iff, ne_eq, seqgt_iff_distance, UInt32.lt_iff_toNat_lt]
        omega
      have hfar : ¬ a - s ≤ 32 := by
        rw [UInt32.le_iff_toNat_le]
        omega
      have hngt : ¬ s > a := by
        rw [gt_iff_lt, UInt32.lt_iff_toNat_lt]
        omega
      simp [wasLocalAcked, hne, hngt, hfar, hgt]
  · have hgt : s > a := by
      have hneq : s.toNat ≠ a.toNat := fun he => hne (UInt32.toNat_inj.mp he)
      rw [gt_iff_lt, UInt32.lt_iff_toNat_lt]
      rw [UInt32.lt_iff_toNat_lt] at hlt
      omega
    simp [wasLocalAcked, hne, hgt, hlt]

theorem seqgt_translate (h : (s - a).toNat ≤ 32 ∨ (a - s).toNat ≤ 32) :
    seqgt (a + k) (s + k) = seqgt a s := by
  rw [Bool.eq_iff_iff, seqgt_iff_distance, seqgt_iff_distance, add_sub_add]
  by_cases heq : a = s
  · subst heq
    simp
  · have hcomm := toNat_sub_comm heq
    have hlt := (a - s).toNat_lt
    omega

theorem Within.translate (h : Within 32 a s) (k : UInt32) : Within 32 (a + k) (s + k) := by
  unfold Within at h ⊢
  rwa [seqgt_translate (Within.cases h).symm, add_sub_add, add_sub_add]

/-- The constant does not turn the comparison of a seq around that the mask
says is acknowledged. -/
def AckSameSide (k a m s : UInt32) : Prop :=
  seqgt a s = true → bit m (32 - (a - s).toNat) = true → SameSide k s a

instance (k a m s : UInt32) : Decidable (AckSameSide k a m s) :=
  inferInstanceAs (Decidable (_ → _ → _))

/-- **The answer is invariant** exactly if the comparison is, or the mask says no
anyway. -/
theorem wasLocalAcked_translate_iff (h : Within 32 a s) :
    (pm.ackLocal (a + k) m).wasLocalAcked (s + k) = (pm.ackLocal a m).wasLocalAcked s ↔
      AckSameSide k a m s := by
  by_cases hne : s = a
  · subst hne
    have hnewest : ∀ b, (pm.ackLocal b m).wasLocalAcked b = true := fun b => by simp [wasLocalAcked]
    refine iff_of_true ?_ fun hgt => absurd hgt (by simp [seqgt])
    rw [hnewest, hnewest]
  · have hne' : s + k ≠ a + k := fun heq => hne (add_right_inj'.mp heq)
    rw [wasLocalAcked_within h hne, wasLocalAcked_within (h.translate k) hne',
      seqgt_translate h.cases, add_sub_add]
    unfold AckSameSide SameSide
    cases seqgt a s with
    | false => simp
    | true =>
        cases bit m (32 - (a - s).toNat) with
        | false => simp
        | true => simp [eq_comm]

/-! ## Both -/

/-- **The sequence logic is invariant under translation** exactly as far as its
plain comparisons are: a run of the receive window whose seqs arrive within 31
of the head shows the same, moved by the constant, if and only if the constant
turns no comparison with the head around; and an acknowledgement says the same
of a seq within 32 of it if and only if the constant does not turn their
comparison around, or the mask does not acknowledge the seq. -/
theorem translation_invariant_iff (k : UInt32) :
    (∀ (pm : PacketManager) (ss : List UInt32), Along afterSeq ArrivesWithin pm ss →
      ((pm.translate k).ackRemoteSeqs (ss.map (· + k)) =
          (pm.ackRemoteSeqs ss).map (translateResult k) ↔
        Along afterSeq (fun pm s => SameSide k pm.lastRemoteSeq s) pm ss)) ∧
    ∀ (pm : PacketManager) (a m s : UInt32), Within 32 a s →
      ((pm.ackLocal (a + k) m).wasLocalAcked (s + k) = (pm.ackLocal a m).wasLocalAcked s ↔
        AckSameSide k a m s) :=
  ⟨fun _ _ h => ackRemoteSeqs_translate_iff h, fun _ _ _ _ h => wasLocalAcked_translate_iff h⟩

end

/-- The start of a stream, with a gap and a late packet, moved by 1000. -/
theorem translation_invariant_early :
    ((PacketManager.new 1 0).translate 1000).ackRemoteSeqs [1001, 1003, 1002] =
        ((PacketManager.new 1 0).ackRemoteSeqs [1, 3, 2]).map (translateResult 1000) ∧
      ((PacketManager.new 1 0).ackLocal 1003 0x80000000).wasLocalAcked 1002 =
        ((PacketManager.new 1 0).ackLocal 3 0x80000000).wasLocalAcked 2 :=
  ⟨((translation_invariant_iff 1000).1 (PacketManager.new 1 0) [1, 3, 2] (by decide)).mpr (by decide),
    ((translation_invariant_iff 1000).2 (PacketManager.new 1 0) 3 0x80000000 2
      (by decide)).mpr (by decide)⟩

/-- Moved to the end of the number space, the first packet of a stream is taken
for an old one: it becomes seq 0, and the head `0xFFFFFFFF`. -/
theorem translation_invariant_fails :
    ¬ ((∀ (k : UInt32) (pm : PacketManager) (ss : List UInt32), Along afterSeq ArrivesWithin pm ss →
        (pm.translate k).ackRemoteSeqs (ss.map (· + k)) =
          (pm.ackRemoteSeqs ss).map (translateResult k)) ∧
      ∀ (k : UInt32) (pm : PacketManager) (a m s : UInt32), Within 32 a s →
        (pm.ackLocal (a + k) m).wasLocalAcked (s + k) = (pm.ackLocal a m).wasLocalAcked s) := by
  intro h
  have hrun := h.1 0xFFFFFFFF (PacketManager.new 1 0) [1] (by decide)
  exact absurd hrun (by decide)

end PacketManager

end Tgvoip
