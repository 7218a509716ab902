import Mathlib.Data.Set.Insert
import Tgvoip.Lib.Runs
import Tgvoip.Packets.PacketManager

/-!
# AckWindow — what the receive window remembers

The receive side of a `PacketManager` is meant to be a duplicate filter:
it should accept each seq once, as long as the seq is not more than 128
behind the newest. `Window` states that purpose over sets of numbers.
`Represents` is the relation between the purpose and the 32-bit mask:
position `d - 1` of the mask is set exactly when the seq at distance `d`
behind the head was accepted.

The mask is 32 wide and the admitted window 128, so the relation is kept
by a call only while the call stays within the mask: `Narrow`. Under it
`ackRemoteSeq` refines `Window.receive`; the duplicate-suppression
result at the end of the module says that this condition is exact.
-/

namespace Tgvoip

open BitMask Runs PacketManager

/-! ## The abstract window -/

/-- A duplicate filter: the newest number received and all accepted ones. -/
structure Window where
  head : ℕ
  seen : Set ℕ

namespace Window

/-- New, and not 128 or more behind the newest. -/
def Accepts (w : Window) (s : ℕ) : Prop := s ∉ w.seen ∧ w.head < s + 128

def insert (w : Window) (s : ℕ) : Window :=
  { head := max w.head s, seen := Insert.insert s w.seen }

/-- The window of a head seq and the list of accepted seqs. -/
def of (head : UInt32) (accepted : List UInt32) : Window :=
  { head := head.toNat, seen := {n | ∃ a ∈ accepted, a.toNat = n} }

theorem mem_of {head s : UInt32} {accepted : List UInt32} :
    s.toNat ∈ (of head accepted).seen ↔ s ∈ accepted := by
  constructor
  · rintro ⟨a, ha, he⟩
    rwa [← UInt32.toNat_inj.mp he]
  · exact fun h => ⟨s, h, rfl⟩

theorem of_nil : of 0 [] = { head := 0, seen := ∅ } := by simp [of]

end Window

/-- **The mask represents the window**: the head agrees, everything
accepted lies in `1..head`, and each of the 32 positions tells whether its
seq was accepted. Positions at or past the head stand for no seq. -/
structure Represents (head mask : UInt32) (w : Window) : Prop where
  head : head.toNat = w.head
  top : w.head ≠ 0 → w.head ∈ w.seen
  range : ∀ s ∈ w.seen, 1 ≤ s ∧ s ≤ w.head
  mask : ∀ d, 1 ≤ d → d ≤ 32 → d < w.head → (bit mask (d - 1) = true ↔ w.head - d ∈ w.seen)

/-- At head 0 nothing is accepted, whatever the mask holds. -/
theorem represents_zero (m : UInt32) : Represents 0 m { head := 0, seen := ∅ } where
  head := rfl
  top := fun h => absurd rfl h
  range := fun _ h => absurd h (Set.notMem_empty _)
  mask := fun d _ _ h => absurd h (Nat.not_lt_zero d)

section Refinement

variable {head mask s : UInt32} {w : Window}

/-- The step to a newer seq keeps the representation. -/
theorem Represents.ahead (hR : Represents head mask w) (hs : head < s)
    (hd : s.toNat - head.toNat ≤ 32) :
    Represents s (((mask <<< 1) ||| 1) <<< ((s - head) - 1)) (w.insert s.toNat) := by
  have hlt : head.toNat < s.toNat := UInt32.lt_iff_toNat_lt.mp hs
  have hhead : head.toNat = w.head := hR.head
  have hmax : max w.head s.toNat = s.toNat := by omega
  have hgap : (s - head).toNat = s.toNat - w.head := by
    rw [toNat_sub_of_le (Nat.le_of_lt hlt), hhead]
  refine ⟨by simp [Window.insert, hmax], ?_, ?_, ?_⟩
  · intro _
    simp [Window.insert, hmax]
  · intro n hn
    rcases hn with rfl | hn
    · exact ⟨by omega, Nat.le_max_right _ _⟩
    · exact ⟨(hR.range n hn).1, Nat.le_trans (hR.range n hn).2 (Nat.le_max_left _ _)⟩
  · intro d h1 h32 hdlt
    simp only [Window.insert, hmax] at hdlt ⊢
    rw [bit_mask_ahead _ _ (by omega) (by omega), hgap, Set.mem_insert_iff]
    have hne : s.toNat - d ≠ s.toNat := by omega
    rcases Nat.lt_trichotomy d (s.toNat - w.head) with h | h | h
    · -- the gap: nothing between the old head and the new one was received
      have hout : s.toNat - d ∉ w.seen := fun hm => by
        have := (hR.range _ hm).2
        omega
      have hz : ¬ s.toNat - w.head ≤ d - 1 := by omega
      have hz' : ¬ d - 1 + 1 = s.toNat - w.head := by omega
      simp [hne, hout, hz, hz']
    · -- the old head itself
      have hold : w.head ∈ w.seen := hR.top (by omega)
      have he : s.toNat - d = w.head := by omega
      have hi : d - 1 + 1 = s.toNat - w.head := by omega
      have hi' : d - 1 < 32 := by omega
      simp [he, hold, hi, hi']
    · -- an older seq keeps its position, shifted
      have hm := hR.mask (d - (s.toNat - w.head)) (by omega) (by omega) (by omega)
      have he : w.head - (d - (s.toNat - w.head)) = s.toNat - d := by omega
      have hp : d - 1 - (s.toNat - w.head) = d - (s.toNat - w.head) - 1 := by omega
      have hi : s.toNat - w.head ≤ d - 1 := by omega
      have hi' : d - 1 < 32 := by omega
      have hi'' : ¬ d - 1 + 1 = s.toNat - w.head := by omega
      rw [he] at hm
      simp [hne, hp, hm, hi, hi', hi'']

/-- Setting the position of a late seq keeps the representation. -/
theorem Represents.behind (hR : Represents head mask w) (hs1 : 1 ≤ s.toNat)
    (hs : s < head) (hd : head.toNat - s.toNat ≤ 32) :
    Represents head (mask ||| (1 <<< ((head - s) - 1))) (w.insert s.toNat) := by
  have hlt : s.toNat < head.toNat := UInt32.lt_iff_toNat_lt.mp hs
  have hhead : head.toNat = w.head := hR.head
  have hmax : max w.head s.toNat = w.head := by omega
  have hamount : ((head - s) - 1).toNat = w.head - s.toNat - 1 := hhead ▸ toNat_shift hlt
  refine ⟨by simp [Window.insert, hmax, hhead], ?_, ?_, ?_⟩
  · intro h
    simp only [Window.insert, hmax] at h ⊢
    exact Or.inr (hR.top h)
  · intro n hn
    simp only [Window.insert, hmax] at hn ⊢
    rcases hn with rfl | hn
    · omega
    · exact hR.range n hn
  · intro d h1 h32 hdlt
    simp only [Window.insert, hmax] at hdlt ⊢
    rw [bit_or, bit_one_shiftLeft _ (by omega), hamount, Bool.or_eq_true, decide_eq_true_eq,
      hR.mask d h1 h32 hdlt, Set.mem_insert_iff, or_comm]
    have : d - 1 = w.head - s.toNat - 1 ↔ w.head - d = s.toNat := by omega
    rw [this]

/-- **The refinement step**: a narrow call either accepts what the purpose
accepts and then represents the grown window, or rejects and changes
nothing. -/
theorem ackRemoteSeq_spec {pm : PacketManager}
    (hR : Represents pm.lastRemoteSeq pm.lastRemoteSeqsMask w) (hhead : w.head < 2 ^ 31)
    (hs1 : 1 ≤ s.toNat) (hs : s.toNat < 2 ^ 31) (hn : pm.Narrow s) :
    ((pm.ackRemoteSeq s).1 = true ∧ w.Accepts s.toNat ∧
        Represents (pm.ackRemoteSeq s).2.lastRemoteSeq (pm.ackRemoteSeq s).2.lastRemoteSeqsMask
          (w.insert s.toNat)) ∨
      ((pm.ackRemoteSeq s).1 = false ∧ ¬ w.Accepts s.toNat ∧ (pm.ackRemoteSeq s).2 = pm) := by
  have hh : pm.lastRemoteSeq.toNat = w.head := hR.head
  have hwin := seqgt_window (show pm.lastRemoteSeq.toNat < 2 ^ 31 by omega) hs1 hs
  rcases Nat.lt_trichotomy s.toNat pm.lastRemoteSeq.toNat with hlt | heq | hgt
  · have hs' : s < pm.lastRemoteSeq := UInt32.lt_iff_toNat_lt.mpr hlt
    rcases hn.2 hs' with hd | hd
    · have ht : seqgt s (pm.lastRemoteSeq - maxRecentPackets) = true := by
        rw [hwin]; omega
      have hm := hR.mask (w.head - s.toNat) (by omega) (by omega) (by omega)
      rw [show w.head - (w.head - s.toNat) = s.toNat by omega] at hm
      rw [ackRemoteSeq_behind ht hs' hd, hh]
      split
      · rename_i hb
        exact Or.inr ⟨rfl, fun ha => ha.1 (hm.mp hb), rfl⟩
      · rename_i hb
        exact Or.inl ⟨rfl, ⟨fun h => hb (hm.mpr h), by omega⟩, hR.behind hs1 hs' hd⟩
    · have ht : seqgt s (pm.lastRemoteSeq - maxRecentPackets) = false := by
        rw [Bool.eq_false_iff, ne_eq, hwin]; omega
      rw [ackRemoteSeq_outside ht]
      exact Or.inr ⟨rfl, fun ha => by have := ha.2; omega, rfl⟩
  · have he : s = pm.lastRemoteSeq := UInt32.toNat_inj.mp heq
    subst he
    rw [ackRemoteSeq_same]
    exact Or.inr ⟨rfl, fun ha => ha.1 (by rw [hh]; exact hR.top (by omega)), rfl⟩
  · have hs' : pm.lastRemoteSeq < s := UInt32.lt_iff_toNat_lt.mpr hgt
    have hd := hn.1 hs'
    have ht : seqgt s (pm.lastRemoteSeq - maxRecentPackets) = true := by
      rw [hwin]; omega
    rw [ackRemoteSeq_ahead ht hs']
    exact Or.inl ⟨rfl, ⟨fun h => by have := (hR.range _ h).2; omega, by omega⟩, hR.ahead hs' hd⟩

end Refinement

/-! ## The receiver with its history -/

/-- The receiver's manager and, as history, the seqs it has accepted. -/
structure Receiver where
  pm : PacketManager
  accepted : List UInt32 := []
  deriving DecidableEq, Repr

namespace Receiver

/-- One call of `ackRemoteSeq`. -/
def recv (r : Receiver) (s : UInt32) : Receiver :=
  { pm := (r.pm.ackRemoteSeq s).2
    accepted := if (r.pm.ackRemoteSeq s).1 then s :: r.accepted else r.accepted }

/-- The history as an abstract window. -/
def window (r : Receiver) : Window := .of r.pm.lastRemoteSeq r.accepted

theorem mem_window {r : Receiver} {s : UInt32} :
    s.toNat ∈ r.window.seen ↔ s ∈ r.accepted := Window.mem_of

/-- The invariant of the receiver: the mask represents the history, no seq
was accepted twice, and the head is a seq of the run. -/
structure Sound (r : Receiver) : Prop where
  represents : Represents r.pm.lastRemoteSeq r.pm.lastRemoteSeqsMask r.window
  nodup : r.accepted.Nodup
  head : r.window.head < 2 ^ 31

theorem sound_new (t : UInt8) (m : UInt32) : Sound { pm := PacketManager.new t m } where
  represents := by
    show Represents 0 m (.of 0 [])
    rw [Window.of_nil]
    exact represents_zero m
  nodup := List.nodup_nil
  head := by simp [window, Window.of, PacketManager.new]

variable {r : Receiver} {s : UInt32}

/-- A call inside the mask accepts exactly what the purpose accepts, and
records it. -/
theorem Sound.recv (h : Sound r) (hs1 : 1 ≤ s.toNat) (hs : s.toNat < 2 ^ 31)
    (hn : r.pm.Narrow s) :
    ((r.pm.ackRemoteSeq s).1 = true ↔ r.window.Accepts s.toNat) ∧ Sound (r.recv s) := by
  rcases ackRemoteSeq_spec h.represents h.head hs1 hs hn with ⟨hok, hacc, hR⟩ | ⟨hno, hacc, hpm⟩
  · refine ⟨by simp [hok, hacc], ?_⟩
    have hw : (r.recv s).window = r.window.insert s.toNat := by
      have hhead := hR.head
      simp only [Window.insert] at hhead
      simp only [Receiver.recv, window, Window.of, hok, if_true, Window.insert, hhead]
      congr 1
      ext n
      simp [eq_comm]
    refine ⟨?_, ?_, ?_⟩
    · rw [hw]
      exact hR
    · simp only [Receiver.recv, hok, if_true]
      exact List.nodup_cons.mpr ⟨fun hm => hacc.1 (mem_window.mpr hm), h.nodup⟩
    · rw [hw]
      exact Nat.max_lt.mpr ⟨h.head, hs⟩
  · have hr : r.recv s = r := by simp [Receiver.recv, hno, hpm]
    rw [hr]
    exact ⟨by simp [hno, hacc], h⟩

end Receiver

/-! ## Duplicate suppression -/

/-- What one call owes the duplicate filter: it does not accept a seq a
second time, it accepts a new seq above the head less 128, and it shifts
the 32-bit word by less than 32 only. -/
structure CallOk (r : Receiver) (s : UInt32) : Prop where
  once : (r.pm.ackRemoteSeq s).1 = true → s ∉ r.accepted
  fresh : s ∉ r.accepted → r.pm.lastRemoteSeq.toNat < s.toNat + maxRecentPackets.toNat →
    (r.pm.ackRemoteSeq s).1 = true
  shifts : ∀ n ∈ r.pm.ackRemoteShifts s, n < 32

/-- A call whose shifts are defined and that takes what it should is narrow. -/
theorem CallOk.narrow {r : Receiver} {s : UInt32} (h : CallOk r s) (hr : r.Sound)
    (hs1 : 1 ≤ s.toNat) (hs : s.toNat < 2 ^ 31) : r.pm.Narrow s := by
  have hhead : r.pm.lastRemoteSeq.toNat < 2 ^ 31 := hr.head
  have hwin := seqgt_window hhead hs1 hs
  have h32 : (32 : UInt32).toNat = 32 := rfl
  have h128 : maxRecentPackets.toNat = 128 := rfl
  constructor
  · intro hlt
    have hlt' : r.pm.lastRemoteSeq.toNat < s.toNat := UInt32.lt_iff_toNat_lt.mp hlt
    have hnew : s ∉ r.accepted := fun hm => by
      have : s.toNat ≤ r.pm.lastRemoteSeq.toNat :=
        (hr.represents.range _ (Receiver.mem_window.mpr hm)).2
      omega
    have hok : (r.pm.ackRemoteSeq s).1 = true := h.fresh hnew (by omega)
    have ht : seqgt s (r.pm.lastRemoteSeq - maxRecentPackets) = true := by
      by_contra hf
      rw [ackRemoteSeq_outside (by simpa using hf)] at hok
      exact Bool.noConfusion hok
    have hne : s ≠ r.pm.lastRemoteSeq := fun he => by rw [he] at hlt'; omega
    have hmem : s - r.pm.lastRemoteSeq - 1 ∈ r.pm.ackRemoteShifts s := by
      simp [ackRemoteShifts, ht, hne, hlt]
    have hamount := UInt32.lt_iff_toNat_lt.mp (h.shifts _ hmem)
    rw [toNat_shift hlt'] at hamount
    omega
  · intro hlt
    have hlt' : s.toNat < r.pm.lastRemoteSeq.toNat := UInt32.lt_iff_toNat_lt.mp hlt
    by_contra hcon
    have ht : seqgt s (r.pm.lastRemoteSeq - maxRecentPackets) = true := by
      rw [hwin]; omega
    have hne : s ≠ r.pm.lastRemoteSeq := fun he => by rw [he] at hlt'; omega
    have hngt : ¬ r.pm.lastRemoteSeq < s := by rw [UInt32.lt_iff_toNat_lt]; omega
    have hmem : r.pm.lastRemoteSeq - s - 1 ∈ r.pm.ackRemoteShifts s := by
      simp [ackRemoteShifts, ht, hne, hngt]
    have hamount := UInt32.lt_iff_toNat_lt.mp (h.shifts _ hmem)
    rw [toNat_shift hlt'] at hamount
    omega

/-- A narrow call to a sound receiver does all it owes. -/
theorem Receiver.Sound.callOk {r : Receiver} {s : UInt32} (hr : r.Sound) (hs1 : 1 ≤ s.toNat)
    (hs : s.toNat < 2 ^ 31) (hn : r.pm.Narrow s) : CallOk r s := by
  have hacc := (hr.recv hs1 hs hn).1
  have h128 : maxRecentPackets.toNat = 128 := rfl
  refine ⟨?_, ?_, ?_⟩
  · intro hok hm
    exact (hacc.mp hok).1 (Receiver.mem_window.mpr hm)
  · intro hnew hlt
    exact hacc.mpr ⟨fun h => hnew (Receiver.mem_window.mp h), by simp only [window, Window.of]; omega⟩
  · intro n hmem
    rw [UInt32.lt_iff_toNat_lt]
    have h32 : (32 : UInt32).toNat = 32 := rfl
    simp only [ackRemoteShifts] at hmem
    split at hmem
    · split at hmem
      · simp at hmem
      · split at hmem
        · rename_i ht hne hgt
          have hlt := UInt32.lt_iff_toNat_lt.mp hgt
          have hd := hn.1 hgt
          rcases List.mem_cons.mp hmem with rfl | hmem
          · decide
          · rw [List.mem_singleton.mp hmem, toNat_shift hlt]
            omega
        · rename_i ht hne hngt
          have hwin := (seqgt_window hr.head hs1 hs).mp ht
          have hlt : s.toNat < r.pm.lastRemoteSeq.toNat := by
            have h1 : ¬ r.pm.lastRemoteSeq.toNat < s.toNat :=
              fun h => hngt (UInt32.lt_iff_toNat_lt.mpr h)
            have h2 : s.toNat ≠ r.pm.lastRemoteSeq.toNat := fun h => hne (UInt32.toNat_inj.mp h)
            omega
          have hd := hn.2 (UInt32.lt_iff_toNat_lt.mpr hlt)
          rw [List.mem_singleton.mp hmem, toNat_shift hlt]
          omega
    · simp at hmem

/-- **Duplicate suppression, exactly**: over every sequence of calls with
values in `[1, 2^31)` on a fresh manager with a zero mask, each call does
what the duplicate filter owes if and only if each call is narrow. -/
theorem duplicate_suppression_iff_narrow (t : UInt8) (ss : List UInt32)
    (hss : ∀ s ∈ ss, 1 ≤ s.toNat ∧ s.toNat < 2 ^ 31) :
    Along Receiver.recv CallOk { pm := PacketManager.new t 0 } ss ↔
      Along Receiver.recv (fun r s => r.pm.Narrow s) { pm := PacketManager.new t 0 } ss := by
  generalize hr0 : ({ pm := PacketManager.new t 0 } : Receiver) = r
  have hr : r.Sound := hr0 ▸ Receiver.sound_new t 0
  clear hr0
  induction ss generalizing r with
  | nil => simp
  | cons s ss ih =>
      have hs := hss s (by simp)
      have hrest := fun u hu => hss u (List.mem_cons_of_mem _ hu)
      simp only [along_cons]
      constructor
      · rintro ⟨hc, hrun⟩
        have hn := hc.narrow hr hs.1 hs.2
        exact ⟨hn, (ih hrest _ (hr.recv hs.1 hs.2 hn).2).mp hrun⟩
      · rintro ⟨hn, hrun⟩
        exact ⟨hr.callOk hs.1 hs.2 hn, (ih hrest _ (hr.recv hs.1 hs.2 hn).2).mpr hrun⟩

/-- A run of the theorem with a late packet and a replay. -/
theorem duplicate_suppression_late_replay :
    (∀ s ∈ [1, 3, 2, 3], 1 ≤ (s : UInt32).toNat ∧ s.toNat < 2 ^ 31) ∧
      (Along Receiver.recv CallOk { pm := PacketManager.new 1 0 } [1, 3, 2, 3] ↔
        Along Receiver.recv (fun r s => r.pm.Narrow s) { pm := PacketManager.new 1 0 }
          [1, 3, 2, 3]) :=
  ⟨by simp, duplicate_suppression_iff_narrow 1 [1, 3, 2, 3] (by simp)⟩

/-- The window of 128 outruns the mask of 32: after seq 1, seq 34 asks for a
shift by 32. -/
theorem duplicate_suppression_fails :
    ¬ Along Receiver.recv CallOk { pm := PacketManager.new 1 0 } [1, 34] := by
  rintro ⟨-, hc, -⟩
  exact absurd (hc.shifts 32 (by decide)) (by decide)

end Tgvoip
