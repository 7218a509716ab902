import Mathlib.Algebra.BigOperators.Group.Multiset.Basic
import Mathlib.Algebra.Order.BigOperators.Group.Multiset
import Tgvoip.Lib.Runs
import Tgvoip.Video.ScreamCongestionController

/-!
# BytesInFlight — the count of the congestion control against the packets

A run of `ProcessPacketSent`, `ProcessPacketLost` and `ProcessAcks`, beside
the sizes of the packets that are really on their way and a record of every
count that was taken down.

An acknowledgement is only taken off the count when the delay before it was
not zero, since the delays are compared. The first one never is, nor is one
that follows a delay of exactly zero: their bytes stay in flight for good.
-/

namespace Tgvoip

open RecentPeak Runs

/-- An operation, with the sizes of the packets it is about. -/
inductive ScreamCall where
  | sent (size : UInt32)
  | lost (size : UInt32)
  | acks (sizes : Multiset UInt32) (oneWayDelay : ℚ) (lossCount : UInt32) (rtt : ℚ)

structure ScreamEvent where
  call : ScreamCall
  clock : ClockReadings

def bytesIn (sizes : Multiset UInt32) : ℕ := (sizes.map UInt32.toNat).sum

/-! ## The packets -/

/-- What happened to the packets. -/
structure Shipments where
  onTheWay : Multiset UInt32 := 0
  sent : ℕ := 0
  acked : ℕ := 0
  lost : ℕ := 0

namespace Shipments

/-- A packet that is reported was sent, and was not reported before. -/
def Allows (p : Shipments) : ScreamCall → Prop
  | .sent _ => True
  | .lost size => size ∈ p.onTheWay
  | .acks sizes _ _ _ => sizes ≤ p.onTheWay

def enter (p : Shipments) : ScreamCall → Shipments
  | .sent size => { p with onTheWay := size ::ₘ p.onTheWay, sent := p.sent + size.toNat }
  | .lost size => { p with onTheWay := p.onTheWay.erase size, lost := p.lost + size.toNat }
  | .acks sizes _ _ _ => { p with onTheWay := p.onTheWay - sizes, acked := p.acked + bytesIn sizes }

/-- Nothing disappears. -/
def Closed (p : Shipments) : Prop := bytesIn p.onTheWay + p.acked + p.lost = p.sent

end Shipments

@[simp] theorem bytesIn_zero : bytesIn 0 = 0 := rfl

@[simp] theorem bytesIn_cons (size : UInt32) (sizes : Multiset UInt32) :
    bytesIn (size ::ₘ sizes) = size.toNat + bytesIn sizes := by
  rw [bytesIn, Multiset.map_cons, Multiset.sum_cons, bytesIn]

theorem bytesIn_erase {size : UInt32} {sizes : Multiset UInt32} (h : size ∈ sizes) :
    size.toNat + bytesIn (sizes.erase size) = bytesIn sizes := by
  rw [← bytesIn_cons, Multiset.cons_erase h]

theorem bytesIn_sub {some sizes : Multiset UInt32} (h : some ≤ sizes) :
    bytesIn (sizes - some) + bytesIn some = bytesIn sizes := by
  rw [bytesIn, bytesIn, ← Multiset.sum_add, ← Multiset.map_add, tsub_add_cancel_of_le h, bytesIn]

theorem Shipments.Closed.enter {p : Shipments} (h : p.Closed) {call : ScreamCall}
    (hallows : p.Allows call) : (p.enter call).Closed := by
  unfold Closed at h ⊢
  cases call with
  | sent size =>
      simp only [Shipments.enter, bytesIn_cons]
      omega
  | lost size =>
      have herase := bytesIn_erase hallows
      simp only [Shipments.enter]
      omega
  | acks sizes =>
      have hsub := bytesIn_sub hallows
      simp only [Shipments.enter]
      omega

/-! ## The operations -/

namespace ScreamCongestionController

/-- The caller adds the acknowledged sizes up in a `uint32_t`. -/
def run (sqrt : ℚ → ℚ) (c : ScreamCongestionController) (e : ScreamEvent) :
    ScreamCongestionController :=
  match e.call with
  | .sent size => c.processPacketSent size e.clock
  | .lost size => c.processPacketLost size e.clock
  | .acks sizes oneWayDelay lossCount rtt =>
      processAcks sqrt c oneWayDelay (UInt32.ofNat (bytesIn sizes)) lossCount rtt e.clock

/-- Whether a call goes on to the count. -/
def Records (c : ScreamCongestionController) : ScreamCall → Prop
  | .acks .. => c.prevOneWayDelay ≠ 0
  | _ => True

instance (c : ScreamCongestionController) : ∀ call, Decidable (c.Records call)
  | .acks .. => inferInstanceAs (Decidable (c.prevOneWayDelay ≠ 0))
  | .sent _ => .isTrue trivial
  | .lost _ => .isTrue trivial

end ScreamCongestionController

/-- What a call that goes on to the count does to it. -/
def Flight.change (f : Flight) : ScreamCall → Flight
  | .sent size => f.add size
  | .lost size => f.remove size
  | .acks sizes _ _ _ => f.remove (UInt32.ofNat (bytesIn sizes))

theorem Flight.change_history (f : Flight) (call : ScreamCall) :
    (f.change call).bytesInFlightHistory = f.bytesInFlightHistory := by
  cases call <;> rfl

theorem run_toFlight (sqrt : ℚ → ℚ) (c : ScreamCongestionController) (e : ScreamEvent) :
    (c.run sqrt e).toFlight =
      if c.Records e.call then
        (c.toFlight.change e.call).updateBytesInFlightHistory e.clock.historyTime
      else c.toFlight := by
  obtain ⟨call, clock⟩ := e
  cases call with
  | sent size => exact c.processPacketSent_toFlight size clock
  | lost size => exact c.processPacketLost_toFlight size clock
  | acks sizes oneWayDelay lossCount rtt => exact c.processAcks_toFlight ..

/-- The congestion control and what really happened. -/
structure VideoTraffic where
  scream : ScreamCongestionController := {}
  packets : Shipments := {}
  /-- Every sample that was ever put into the history. -/
  recorded : List ValueSample := []
  lastRecord : Time := 0

namespace VideoTraffic

def step (sqrt : ℚ → ℚ) (s : VideoTraffic) (e : ScreamEvent) : VideoTraffic :=
  let scream := s.scream.run sqrt e
  let recording := s.scream.Records e.call
  { scream
    packets := s.packets.enter e.call
    recorded :=
      if recording then s.recorded ++ [scream.toFlight.now e.clock.historyTime] else s.recorded
    lastRecord := if recording then e.clock.historyTime else s.lastRecord }

/-! ## What is claimed of every state -/

/-- The bytes in flight are those sent, less those acknowledged and lost. -/
def Balanced (s : VideoTraffic) : Prop :=
  (s.scream.bytesInFlight.toNat : ℤ) = s.packets.sent - s.packets.acked - s.packets.lost ∧
    s.scream.rtpQueueSize.toNat = 8 * s.scream.bytesInFlight.toNat

/-- The greatest count is that of the samples of the last five seconds before
the last record. -/
def Peaked (s : VideoTraffic) : Prop :=
  s.scream.maxBytesInFlight.toNat =
    peak Flight.sampleValue (recent ValueSample.time 5 s.lastRecord s.recorded)

/-- A packet is acknowledged behind a delay that is not zero, and the bits on
their way fit an `uint32_t`. -/
def Counted (s : VideoTraffic) (e : ScreamEvent) : Prop :=
  match e.call with
  | .sent size => 8 * (bytesIn s.packets.onTheWay + size.toNat) < 2 ^ 32
  | .lost _ => True
  | .acks sizes _ _ _ => s.scream.prevOneWayDelay ≠ 0 ∨ bytesIn sizes = 0

/-- The clock does not go back behind the last record. -/
def Steady (s : VideoTraffic) (e : ScreamEvent) : Prop :=
  s.recorded ≠ [] → s.lastRecord ≤ e.clock.historyTime

def Allows (s : VideoTraffic) (e : ScreamEvent) : Prop := s.packets.Allows e.call

end VideoTraffic

/-! ## One step of the count -/

/-- The two counters say `n` bytes. -/
def Flight.Counts (f : Flight) (n : ℕ) : Prop :=
  f.bytesInFlight.toNat = n ∧ f.rtpQueueSize.toNat = 8 * n

namespace Flight

variable {f : Flight} {n : ℕ} {size : UInt32}

@[simp] theorem counts_update (t : Time) :
    (f.updateBytesInFlightHistory t).Counts n ↔ f.Counts n := Iff.rfl

theorem toNat_mul_eight : (size * 8).toNat = 8 * size.toNat % 2 ^ 32 := by
  rw [UInt32.toNat_mul, Nat.mul_comm]
  rfl

/-- More bytes are counted right exactly when their bits can be. -/
theorem Counts.add_iff (h : f.Counts n) :
    (f.add size).Counts (n + size.toNat) ↔ 8 * (n + size.toNat) < 2 ^ 32 := by
  obtain ⟨hbytes, hbits⟩ := h
  have hrtp : (f.add size).rtpQueueSize.toNat = 8 * (n + size.toNat) % 2 ^ 32 := by
    rw [add, UInt32.toNat_add, toNat_mul_eight, hbits]
    omega
  have hcount : (f.add size).bytesInFlight.toNat = (n + size.toNat) % 2 ^ 32 := by
    rw [add, UInt32.toNat_add, hbytes]
  unfold Counts
  omega

theorem Counts.remove (h : f.Counts n) (hle : size.toNat ≤ n) :
    (f.remove size).Counts (n - size.toNat) := by
  obtain ⟨hbytes, hbits⟩ := h
  have hrtp := f.rtpQueueSize.toNat_lt
  have hsize : (size * 8).toNat = 8 * size.toNat := by
    rw [toNat_mul_eight, Nat.mod_eq_of_lt (by omega)]
  constructor
  · rw [Flight.remove, UInt32.toNat_sub_of_le _ _ (UInt32.le_iff_toNat_le.mpr (by omega)), hbytes]
  · rw [Flight.remove, UInt32.toNat_sub_of_le _ _ (UInt32.le_iff_toNat_le.mpr (by omega)), hbits,
      hsize]
    omega

variable {sizes packets : Multiset UInt32}

theorem Counts.sent_iff (h : f.Counts (bytesIn packets)) :
    (f.add size).Counts (bytesIn (size ::ₘ packets)) ↔
      8 * (bytesIn packets + size.toNat) < 2 ^ 32 := by
  rw [bytesIn_cons, Nat.add_comm size.toNat]
  exact h.add_iff

theorem Counts.lost (h : f.Counts (bytesIn packets)) (hmem : size ∈ packets) :
    (f.remove size).Counts (bytesIn (packets.erase size)) := by
  have herase := bytesIn_erase hmem
  rw [Nat.eq_sub_of_add_eq' herase]
  exact h.remove (Nat.le.intro herase)

theorem Counts.acked (h : f.Counts (bytesIn packets)) (hle : sizes ≤ packets) :
    (f.remove (UInt32.ofNat (bytesIn sizes))).Counts (bytesIn (packets - sizes)) := by
  have hsub := bytesIn_sub hle
  have hlt := h.1 ▸ f.bytesInFlight.toNat_lt
  have hfits : (UInt32.ofNat (bytesIn sizes)).toNat = bytesIn sizes := by
    rw [UInt32.toNat_ofNat', Nat.mod_eq_of_lt (by omega)]
  have hremove := h.remove (hfits.le.trans (Nat.le.intro ((Nat.add_comm _ _).trans hsub)))
  rwa [hfits, ← Nat.eq_sub_of_add_eq hsub] at hremove

/-- Packets are acknowledged and the count stays as it is. -/
theorem Counts.kept_iff (h : f.Counts (bytesIn packets)) (hle : sizes ≤ packets) :
    f.Counts (bytesIn (packets - sizes)) ↔ bytesIn sizes = 0 := by
  have hsub := bytesIn_sub hle
  unfold Counts at h ⊢
  omega

end Flight

namespace VideoTraffic

variable {sqrt : ℚ → ℚ} {s : VideoTraffic} {e : ScreamEvent}

theorem step_toFlight (sqrt : ℚ → ℚ) (hrecords : s.scream.Records e.call) :
    (s.step sqrt e).scream.toFlight =
      (s.scream.toFlight.change e.call).updateBytesInFlightHistory e.clock.historyTime :=
  (run_toFlight sqrt s.scream e).trans (if_pos hrecords)

/-- An acknowledgement behind a delay of zero. -/
theorem step_toFlight_of_not (sqrt : ℚ → ℚ) (hrecords : ¬ s.scream.Records e.call) :
    (s.step sqrt e).scream.toFlight = s.scream.toFlight :=
  (run_toFlight sqrt s.scream e).trans (if_neg hrecords)

theorem step_recorded (sqrt : ℚ → ℚ) (hrecords : s.scream.Records e.call) :
    (s.step sqrt e).recorded =
      s.recorded ++ [(s.scream.toFlight.change e.call).now e.clock.historyTime] := by
  have hflight := step_toFlight sqrt hrecords
  simp only [step, if_pos hrecords] at hflight ⊢
  rw [hflight]
  rfl

/-- The balance is a count of what is on its way. -/
theorem balanced_iff (hclosed : s.packets.Closed) :
    s.Balanced ↔ s.scream.toFlight.Counts (bytesIn s.packets.onTheWay) := by
  unfold Shipments.Closed at hclosed
  unfold Balanced Flight.Counts
  omega

/-- One operation leaves a right count right exactly when it is `Counted`. -/
theorem balanced_step_iff (hclosed : s.packets.Closed) (hbalanced : s.Balanced)
    (hallows : s.Allows e) : (s.step sqrt e).Balanced ↔ s.Counted e := by
  have hcount := (balanced_iff hclosed).mp hbalanced
  rw [balanced_iff (hclosed.enter hallows)]
  obtain ⟨call, clock⟩ := e
  cases call with
  | sent size =>
      have hrecords : s.scream.Records (.sent size) := trivial
      rw [step_toFlight sqrt hrecords, Flight.counts_update]
      exact hcount.sent_iff
  | lost size =>
      have hrecords : s.scream.Records (.lost size) := trivial
      rw [step_toFlight sqrt hrecords, Flight.counts_update]
      exact iff_of_true (hcount.lost hallows) trivial
  | acks sizes oneWayDelay lossCount rtt =>
      by_cases hrecords : s.scream.Records (.acks sizes oneWayDelay lossCount rtt)
      · rw [step_toFlight sqrt hrecords, Flight.counts_update]
        exact iff_of_true (hcount.acked hallows) (.inl hrecords)
      · rw [step_toFlight_of_not sqrt hrecords]
        exact (hcount.kept_iff hallows).trans (or_iff_right hrecords).symm

/-! ## One step of the history -/

/-- The history is what is recent of the record. -/
structure Kept (s : VideoTraffic) : Prop where
  history : s.scream.bytesInFlightHistory =
    recent ValueSample.time 5 s.lastRecord s.recorded
  max : s.scream.maxBytesInFlight.toNat =
    peak Flight.sampleValue s.scream.bytesInFlightHistory

theorem Kept.peaked (h : s.Kept) : s.Peaked := h.max.trans (congrArg _ h.history)

theorem Kept.step (h : s.Kept) (hsteady : s.Steady e) : (s.step sqrt e).Kept := by
  by_cases hrecords : s.scream.Records e.call
  · have hforget : recent ValueSample.time 5 e.clock.historyTime s.scream.bytesInFlightHistory =
        recent ValueSample.time 5 e.clock.historyTime s.recorded := by
      rw [h.history]
      by_cases hempty : s.recorded = []
      · rw [hempty, recent_nil]
      · exact recent_recent (hsteady hempty) _
    have hlast : (s.step sqrt e).lastRecord = e.clock.historyTime := if_pos hrecords
    constructor
    · rw [step_toFlight sqrt hrecords, Flight.update_history, hlast, step_recorded sqrt hrecords,
        recent_append, recent_append, Flight.change_history, hforget]
    · rw [step_toFlight sqrt hrecords]
      exact Flight.update_maxBytesInFlight ..
  · have hlast : (s.step sqrt e).lastRecord = s.lastRecord := if_neg hrecords
    have hrecorded : (s.step sqrt e).recorded = s.recorded := if_neg hrecords
    constructor
    · rw [step_toFlight_of_not sqrt hrecords, hlast, hrecorded]
      exact h.history
    · rw [step_toFlight_of_not sqrt hrecords]
      exact h.max

/-! ## Whole runs -/

/-- **The count is right along a run exactly when every operation of it is
`Counted`**, and the greatest count is, whatever else happens, as long as the
clock does not go back. -/
theorem inFlight_iff (sqrt : ℚ → ℚ) (es : List ScreamEvent)
    (hallows : Along (step sqrt) Allows {} es) :
    (Along (step sqrt) (fun s e => (s.step sqrt e).Balanced) {} es ↔
        Along (step sqrt) Counted {} es) ∧
      (Along (step sqrt) Steady {} es →
        Along (step sqrt) (fun s e => (s.step sqrt e).Peaked) {} es) := by
  constructor
  · refine along_congr (I := fun s => s.packets.Closed ∧ s.Balanced) ?_ ?_ ⟨rfl, rfl, rfl⟩ hallows
    · intro s e ⟨hclosed, hbalanced⟩ hallows
      exact balanced_step_iff hclosed hbalanced hallows
    · intro s e ⟨hclosed, hbalanced⟩ hallows hcounted
      exact ⟨hclosed.enter hallows, (balanced_step_iff hclosed hbalanced hallows).mpr hcounted⟩
  · intro hsteady
    exact hsteady.strengthen (I := Kept) (fun s e h => h.step)
      (fun s e h hsteady => (h.step hsteady).peaked) ⟨rfl, rfl⟩

/-- The square root of a square. -/
def squareRoot (x : ℚ) : ℚ := (Nat.sqrt x.num.toNat : ℚ) / Nat.sqrt x.den

/-- Behind an acknowledgement of nothing, packets are counted. -/
theorem inFlight_after_nothing :
    let es : List ScreamEvent :=
      [⟨.sent 100, ⟨1, 1, 1⟩⟩, ⟨.acks 0 (1 / 2) 0 (1 / 10), ⟨2, 2, 2⟩⟩,
        ⟨.acks (100 ::ₘ 0) (1 / 2) 0 (1 / 10), ⟨7, 7, 7⟩⟩]
    Along (step squareRoot) (fun s e => (s.step squareRoot e).Balanced) {} es ∧
      Along (step squareRoot) (fun s e => (s.step squareRoot e).Peaked) {} es := by
  intro es
  have hallows : Along (step squareRoot) Allows {} es :=
    ⟨trivial, Multiset.zero_le _, le_refl _, trivial⟩
  have hcounted : Along (step squareRoot) Counted {} es :=
    ⟨(by decide : 8 * (bytesIn 0 + (100 : UInt32).toNat) < 2 ^ 32), .inr rfl,
      .inl (by decide +kernel), trivial⟩
  have hsteady : Along (step squareRoot) Steady {} es :=
    ⟨fun _ => by decide +kernel, fun _ => by decide +kernel, fun _ => by decide +kernel, trivial⟩
  obtain ⟨hbalanced, hpeaked⟩ := inFlight_iff squareRoot es hallows
  exact ⟨hbalanced.mpr hcounted, hpeaked hsteady⟩

/-- The first acknowledgement: its packet stays in flight. -/
theorem inFlight_fails :
    ¬ ∀ (sqrt : ℚ → ℚ) (es : List ScreamEvent), Along (step sqrt) Allows {} es →
      Along (step sqrt) (fun s e => (s.step sqrt e).Balanced ∧ (s.step sqrt e).Peaked) {} es := by
  intro h
  have hbalanced := (h squareRoot
    [⟨.sent 100, ⟨1, 1, 1⟩⟩, ⟨.acks (100 ::ₘ 0) (1 / 2) 0 (1 / 10), ⟨2, 2, 2⟩⟩]
    ⟨trivial, le_refl _, trivial⟩).2.1.1.1
  exact absurd hbalanced (by decide +kernel)

end VideoTraffic

end Tgvoip
