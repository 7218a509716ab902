import Tgvoip.Packets.AckWindow

/-!
# AckAgreement — what an acknowledgement means to the two ends

One stream seen from both sides. The sender numbers its packets
`1, 2, 3, …`; they reach the receiver in any order, with loss and
duplication; the receiver produces pairs (head, mask) at any time, and
pairs reach the sender in any order, where `ackLocal` applies the ones
that pass the guard of `ProcessIncomingPacket`. Nothing in flight is
removed: an event may name any seq sent so far and any pair produced so
far, as often as it likes.

The receiver keeps the seq at distance `d` behind its head in position
`d - 1` of the mask (`Represents`). The sender reads it from position
`32 - d` (`wasLocalAcked_eq`). The two ends agree exactly on the masks
that read the same from both sides: `Mirrored`.
-/

namespace Tgvoip

open BitMask Runs PacketManager

/-- A pair produced by the receiver and, as history, what it had accepted
by then. -/
structure AckPair where
  ackSeq : UInt32
  ackMask : UInt32
  accepted : List UInt32
  deriving DecidableEq, Repr

/-- The two ends of a stream. `held` is the history of the pair the sender
applied last. -/
structure AckSystem where
  sender : PacketManager
  receiver : Receiver
  pairs : List AckPair := []
  held : List UInt32 := []
  deriving DecidableEq, Repr

inductive AckEvent where
  | send
  | arrive (s : UInt32)
  | produce
  | deliver (p : AckPair)
  deriving DecidableEq, Repr

namespace AckSystem

/-- Both managers fresh; `mask` is what the receiver's mask field holds. -/
def init (transportId : UInt8) (mask : UInt32) : AckSystem where
  sender := PacketManager.new transportId 0
  receiver := { pm := PacketManager.new transportId mask }

def step (σ : AckSystem) : AckEvent → AckSystem
  | .send => { σ with sender := σ.sender.nextLocalSeq.2 }
  | .arrive s => { σ with receiver := σ.receiver.recv s }
  | .produce =>
      { σ with pairs :=
          { ackSeq := σ.receiver.pm.lastRemoteSeq
            ackMask := σ.receiver.pm.lastRemoteSeqsMask
            accepted := σ.receiver.accepted } :: σ.pairs }
  | .deliver p =>
      if σ.sender.takesAck p.ackSeq then
        { σ with sender := σ.sender.ackLocal p.ackSeq p.ackMask, held := p.accepted }
      else σ

/-- What the network can do: fewer than `2^31` packets, only sent packets
arrive, only produced pairs are delivered. -/
def Admissible (σ : AckSystem) : AckEvent → Prop
  | .send => σ.sender.seq.toNat < 2 ^ 31
  | .arrive s => 1 ≤ s.toNat ∧ s < σ.sender.seq
  | .produce => True
  | .deliver p => p ∈ σ.pairs

instance : ∀ (σ : AckSystem) (e : AckEvent), Decidable (Admissible σ e)
  | σ, .send => inferInstanceAs (Decidable (σ.sender.seq.toNat < 2 ^ 31))
  | σ, .arrive s => inferInstanceAs (Decidable (1 ≤ s.toNat ∧ s < σ.sender.seq))
  | _, .produce => .isTrue trivial
  | σ, .deliver p => inferInstanceAs (Decidable (p ∈ σ.pairs))

/-- **Agreement**: of every sent seq at most 32 behind its last
acknowledged one, the sender thinks it acknowledged exactly when the
receiver had accepted it as it produced the pair the sender holds. -/
def Agreement (σ : AckSystem) : Prop :=
  ∀ s : UInt32, 1 ≤ s.toNat → s < σ.sender.seq → s ≤ σ.sender.lastAckedSeq →
    σ.sender.lastAckedSeq.toNat - s.toNat ≤ 32 →
    (σ.sender.wasLocalAcked s = true ↔ s ∈ σ.held)

/-- The mask reads the same from both sides, at each distance that stands
for a seq. -/
def Mirrored (ackSeq ackMask : UInt32) : Prop :=
  ∀ d, 1 ≤ d → d ≤ 32 → d < ackSeq.toNat → bit ackMask (32 - d) = bit ackMask (d - 1)

instance (ackSeq ackMask : UInt32) : Decidable (Mirrored ackSeq ackMask) :=
  decidable_of_iff
    (∀ d : ℕ, d < 33 → 1 ≤ d → d < ackSeq.toNat → bit ackMask (32 - d) = bit ackMask (d - 1))
    ⟨fun h d h1 h32 hd => h d (by omega) h1 hd, fun h d h33 h1 hd => h d h1 (by omega) hd⟩

/-- Arrivals stay within the receiver's mask. -/
def ArrivesNarrow (σ : AckSystem) : AckEvent → Prop
  | .arrive s => σ.receiver.pm.Narrow s
  | _ => True

instance : ∀ (σ : AckSystem) (e : AckEvent), Decidable (ArrivesNarrow σ e)
  | σ, .arrive s => inferInstanceAs (Decidable (σ.receiver.pm.Narrow s))
  | _, .send => .isTrue trivial
  | _, .produce => .isTrue trivial
  | _, .deliver _ => .isTrue trivial

/-- A pair that passes the guard is mirrored. -/
def AppliesMirrored (σ : AckSystem) : AckEvent → Prop
  | .deliver p => σ.sender.takesAck p.ackSeq = true → Mirrored p.ackSeq p.ackMask
  | _ => True

instance : ∀ (σ : AckSystem) (e : AckEvent), Decidable (AppliesMirrored σ e)
  | σ, .deliver p =>
    inferInstanceAs (Decidable (σ.sender.takesAck p.ackSeq = true → Mirrored p.ackSeq p.ackMask))
  | _, .send => .isTrue trivial
  | _, .arrive _ => .isTrue trivial
  | _, .produce => .isTrue trivial

/-! ## The invariant -/

/-- A pair represents the history it was produced with, below the bound `n`
on sent seqs. -/
structure PairOk (n ackSeq ackMask : UInt32) (accepted : List UInt32) : Prop where
  represents : Represents ackSeq ackMask (.of ackSeq accepted)
  sent : ackSeq < n

theorem PairOk.mono {n n' a m : UInt32} {h : List UInt32} (hp : PairOk n a m h) (hn : n ≤ n') :
    PairOk n' a m h :=
  ⟨hp.represents, UInt32.lt_of_lt_of_le hp.sent hn⟩

/-- The receiver is sound and has seen sent seqs only, and so has every
pair, in flight or applied. -/
structure Inv (σ : AckSystem) : Prop where
  receiver : σ.receiver.Sound
  seq_pos : 0 < σ.sender.seq
  seq_le : σ.sender.seq.toNat ≤ 2 ^ 31
  seen : σ.receiver.pm.lastRemoteSeq < σ.sender.seq
  pairs : ∀ p ∈ σ.pairs, PairOk σ.sender.seq p.ackSeq p.ackMask p.accepted
  held : PairOk σ.sender.seq σ.sender.lastAckedSeq σ.sender.lastAckedSeqsMask σ.held

theorem inv_init (t : UInt8) (m : UInt32) : Inv (init t m) where
  receiver := Receiver.sound_new t m
  seq_pos := show (0 : UInt32) < 1 by decide
  seq_le := by simp [init, PacketManager.new]
  seen := by simp [init, PacketManager.new]
  pairs := by simp [init]
  held :=
    ⟨by simp [init, PacketManager.new, Window.of_nil, represents_zero],
      by simp [init, PacketManager.new]⟩

theorem recv_head_lt {r : Receiver} {s n : UInt32} (hr : r.pm.lastRemoteSeq < n) (hs : s < n) :
    (r.recv s).pm.lastRemoteSeq < n := by
  simp only [Receiver.recv, ackRemoteSeq]
  split
  · split
    · exact hr
    · split
      · exact hs
      · split <;> exact hr
  · exact hr

/-- **The step lemma**: every admissible event keeps the invariant, if
arrivals are narrow. -/
theorem Inv.step {σ : AckSystem} {e : AckEvent} (h : Inv σ) (hadm : Admissible σ e)
    (hn : ArrivesNarrow σ e) : Inv (σ.step e) := by
  cases e with
  | send =>
      have hlt : σ.sender.seq.toNat < 2 ^ 31 := hadm
      have hone : (1 : UInt32).toNat = 1 := rfl
      have hnext : (σ.sender.seq + 1).toNat = σ.sender.seq.toNat + 1 := by
        rw [UInt32.toNat_add, hone]
        omega
      have hle : σ.sender.seq ≤ σ.sender.seq + 1 := by
        rw [UInt32.le_iff_toNat_le]
        omega
      refine ⟨h.receiver, ?_, ?_, ?_, ?_, ?_⟩
      · exact UInt32.lt_of_lt_of_le h.seq_pos hle
      · simp only [AckSystem.step, nextLocalSeq_snd, hnext]
        omega
      · exact UInt32.lt_of_lt_of_le h.seen hle
      · exact fun p hp => (h.pairs p hp).mono hle
      · exact h.held.mono hle
  | arrive s =>
      have hs := UInt32.lt_iff_toNat_lt.mp hadm.2
      have hseq := h.seq_le
      have hr := h.receiver.recv hadm.1 (by omega) hn
      exact ⟨hr.2, h.seq_pos, h.seq_le, recv_head_lt h.seen hadm.2, h.pairs, h.held⟩
  | produce =>
      refine ⟨h.receiver, h.seq_pos, h.seq_le, h.seen, ?_, h.held⟩
      intro p hp
      rcases List.mem_cons.mp hp with rfl | hp
      · exact ⟨h.receiver.represents, h.seen⟩
      · exact h.pairs p hp
  | deliver p =>
      simp only [AckSystem.step]
      split
      · exact ⟨h.receiver, h.seq_pos, h.seq_le, h.seen, h.pairs, h.pairs p hadm⟩
      · exact h

/-! ## Agreement is symmetry of the mask -/

/-- In an invariant state the two ends agree exactly when the mask the
sender holds is mirrored. -/
theorem Inv.agreement_iff {σ : AckSystem} (h : Inv σ) :
    Agreement σ ↔ Mirrored σ.sender.lastAckedSeq σ.sender.lastAckedSeqsMask := by
  have hrep := h.held.represents
  have hsent := h.held.sent
  constructor
  · intro hag d h1 h32 hd
    -- the seq at distance `d`
    have hmem := hrep.mask d h1 h32 hd
    obtain ⟨s, hs⟩ : ∃ s : UInt32, s.toNat = σ.sender.lastAckedSeq.toNat - d :=
      ⟨.ofNat (σ.sender.lastAckedSeq.toNat - d), by
        have := σ.sender.lastAckedSeq.toNat_lt
        rw [UInt32.toNat_ofNat']
        omega⟩
    have hlt : s < σ.sender.lastAckedSeq := by
      rw [UInt32.lt_iff_toNat_lt]
      omega
    have hdist : σ.sender.lastAckedSeq.toNat - s.toNat = d := by omega
    have hiff := hag s (by omega) (UInt32.lt_trans hlt hsent) (UInt32.le_of_lt hlt) (by omega)
    rw [wasLocalAcked_eq _ hlt (by omega), hdist] at hiff
    have hw : σ.sender.lastAckedSeq.toNat - d ∈
        (Window.of σ.sender.lastAckedSeq σ.held).seen ↔ s ∈ σ.held := by
      rw [← hs]
      exact Window.mem_of
    rw [Bool.eq_iff_iff, hiff, hmem]
    exact hw.symm
  · intro hmir s h1 _ hle hd
    rcases Nat.lt_or_ge s.toNat σ.sender.lastAckedSeq.toNat with hlt | hge
    · have hlt' : s < σ.sender.lastAckedSeq := UInt32.lt_iff_toNat_lt.mpr hlt
      have hmem := hrep.mask (σ.sender.lastAckedSeq.toNat - s.toNat) (by omega) hd
        (by show _ < σ.sender.lastAckedSeq.toNat; omega)
      have hw : (Window.of σ.sender.lastAckedSeq σ.held).head -
          (σ.sender.lastAckedSeq.toNat - s.toNat) = s.toNat := by
        show σ.sender.lastAckedSeq.toNat - _ = _
        omega
      rw [hw, Window.mem_of] at hmem
      rw [wasLocalAcked_eq _ hlt' hd, hmir _ (by omega) hd (by omega)]
      exact hmem
    · -- the newest seq itself
      have he : s = σ.sender.lastAckedSeq := by
        have := UInt32.le_iff_toNat_le.mp hle
        exact UInt32.toNat_inj.mp (by omega)
      subst he
      have htop : σ.sender.lastAckedSeq ∈ σ.held := Window.mem_of.mp (hrep.top (by
        show σ.sender.lastAckedSeq.toNat ≠ 0
        omega))
      simp [wasLocalAcked, htop]

theorem mirrored_init (t : UInt8) (m : UInt32) :
    Mirrored (init t m).sender.lastAckedSeq (init t m).sender.lastAckedSeqsMask :=
  fun d _ _ hd => absurd hd (Nat.not_lt_zero d)

/-- From a state whose mask is mirrored, the mask after the event is
mirrored exactly when the event does not apply another kind. -/
theorem mirrored_step_iff {σ : AckSystem} {e : AckEvent}
    (h : Mirrored σ.sender.lastAckedSeq σ.sender.lastAckedSeqsMask) :
    Mirrored (σ.step e).sender.lastAckedSeq (σ.step e).sender.lastAckedSeqsMask ↔
      AppliesMirrored σ e := by
  cases e with
  | send => exact iff_of_true h trivial
  | arrive s => exact iff_of_true h trivial
  | produce => exact iff_of_true h trivial
  | deliver p =>
      simp only [AckSystem.step, AppliesMirrored]
      split
      · rename_i ht
        simp [ht]
      · rename_i ht
        exact iff_of_true h fun hc => absurd hc ht

/-- **Ack agreement, exactly**: over every run of the two ends with narrow
arrivals, and whatever the receiver's mask held at the start, sender and
receiver agree after every event if and only if every pair applied is
mirrored. -/
theorem ack_agreement_iff_mirrored (t : UInt8) (m : UInt32) (es : List AckEvent)
    (hadm : Along step Admissible (init t m) es)
    (hnarrow : Along step ArrivesNarrow (init t m) es) :
    Along step (fun σ e => Agreement (σ.step e)) (init t m) es ↔
      Along step AppliesMirrored (init t m) es := by
  refine along_congr
    (I := fun σ => Inv σ ∧ Mirrored σ.sender.lastAckedSeq σ.sender.lastAckedSeqsMask) ?_ ?_
    ⟨inv_init t m, mirrored_init t m⟩ (along_and.mpr ⟨hadm, hnarrow⟩)
  · intro σ e h ha
    rw [(h.1.step ha.1 ha.2).agreement_iff, mirrored_step_iff h.2]
  · exact fun σ e h ha hm => ⟨h.1.step ha.1 ha.2, (mirrored_step_iff h.2).mpr hm⟩

/-- Of 34 packets three arrive. The second pair has the first of them in its last bit, and
the one before the newest in its first. -/
def mirroredRun : List AckEvent :=
  .replicate 34 .send ++
    [.arrive 2, .produce, .arrive 33, .deliver ⟨2, 2, [2]⟩, .arrive 34, .produce,
      .deliver ⟨34, 0x80000001, [34, 33, 2]⟩]

/-- A run whose pairs are their own mirror images. -/
theorem ack_agreement_mirrored_run :
    Along step (fun σ e => Agreement (σ.step e)) (init 1 0) mirroredRun :=
  (ack_agreement_iff_mirrored 1 0 mirroredRun (by decide +kernel) (by decide +kernel)).mpr
    (by decide +kernel)

/-- Two packets, both received, one pair: the sender does not think the
first acknowledged. -/
theorem ack_agreement_fails :
    Along step Admissible (init 1 0)
        [.send, .send, .arrive 1, .arrive 2, .produce, .deliver ⟨2, 3, [2, 1]⟩] ∧
      ¬ Agreement (exec step (init 1 0)
        [.send, .send, .arrive 1, .arrive 2, .produce, .deliver ⟨2, 3, [2, 1]⟩]) := by
  refine ⟨by decide, fun h => ?_⟩
  have := (h 1 (by decide) (by decide) (by decide) (by decide)).mpr (by decide)
  exact absurd this (by decide)

end AckSystem

end Tgvoip
