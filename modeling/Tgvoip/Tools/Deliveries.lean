import Mathlib.Data.List.Chain
import Tgvoip.Tools.MessageLoop

/-!
# Deliveries — every posted message is delivered as promised

Runs of the message loop without `Cancel`. A message that is posted is in
the queue, among those that are being delivered, or was delivered; a
repeating one is inserted again at its due time plus its interval. What is
due is compared with the calls of `Post` and the deliveries so far: both are
history.
-/

namespace Tgvoip

/-- When a message is to be delivered next, after the due times `dues`. -/
def Posted.next {φ : Type*} (p : Posted φ) (dues : List Time) : Time :=
  match dues.getLast? with
  | none => if p.delay = 0 then 0 else p.time + p.delay
  | some due => due + p.interval

/-- **The due times of a message**: the first is its delay after it was posted,
or the time of its delivery if it has none, and each other an interval later. -/
structure Posted.Schedule {φ : Type*} (p : Posted φ) (dues : List Time) : Prop where
  first : ∀ due ∈ dues.head?, p.time + p.delay ≤ due ∧ (p.delay ≠ 0 → due = p.time + p.delay)
  again : dues.IsChain fun due due' => due' = due + p.interval

namespace Posted

variable {φ : Type*} {p : Posted φ} {dues : List Time} {due : Time}

theorem schedule_first (hle : p.time + p.delay ≤ due)
    (heq : p.delay ≠ 0 → due = p.time + p.delay) : p.Schedule [due] where
  first first hmem := by
    cases hmem
    exact ⟨hle, heq⟩
  again := List.isChain_singleton _

theorem Schedule.concat (h : p.Schedule dues) (hlast : dues.getLast? = some due) :
    p.Schedule (dues ++ [due + p.interval]) where
  first first hmem := by
    have hne : dues ≠ [] := by
      rintro rfl
      cases hlast
    rw [List.head?_append_of_ne_nil _ hne] at hmem
    exact h.first first hmem
  again := by
    refine h.again.append (List.isChain_singleton _) ?_
    intro x hx y hy
    cases hlast.symm.trans hx
    cases hy
    rfl

end Posted

def LoopEvent.isCancel {φ : Type*} : LoopEvent φ → Bool
  | .cancel _ => true
  | _ => false

namespace MessageLoop

variable {φ : Type*} (t : MessageLoop φ)

/-- How many of the messages are from call `n` of `Post`. -/
def copies (n : ℕ) (ms : List (Message φ)) : ℕ := ms.countP (·.occurrence == n)

/-- The deliveries of the message from call `n`. -/
def deliveries (n : ℕ) : List (Started φ) := t.started.filter (·.message.occurrence == n)

def dues (n : ℕ) : List Time := (t.deliveries n).map (·.message.deliverAt)

/-- The message is the one that call `m.occurrence` posted. -/
def Genuine (m : Message φ) : Prop :=
  ∃ p, t.posts[m.occurrence]? = some p ∧ m.interval = p.interval ∧ m.func = p.func

/-- What holds of each message. -/
structure Kept : Prop where
  genuine : ∀ s ∈ t.started, t.Genuine s.message
  /-- A message without an interval is waiting or was delivered, once. -/
  once : ∀ n (p : Posted φ), t.posts[n]? = some p → p.interval ≤ 0 →
    copies n t.queue + copies n t.phase.batch + (t.deliveries n).length = 1
  /-- One with an interval is waiting or running, unless it has cancelled itself. -/
  kept : ∀ n (p : Posted φ), t.posts[n]? = some p → 0 < p.interval →
    copies n t.queue + copies n t.phase.batch + copies n t.phase.current.toList +
      t.ended.count n = 1
  timely : ∀ s ∈ t.started, s.message.deliverAt ≤ s.time
  schedule : ∀ n (p : Posted φ), t.posts[n]? = some p → p.Schedule (t.dues n)
  next : ∀ m ∈ t.queue ++ t.phase.batch, ∀ p, t.posts[m.occurrence]? = some p →
    m.deliverAt = p.next (t.dues m.occurrence)
  /-- At most one delivery of a message in an iteration. -/
  single : (t.started.map fun s => (s.iteration, s.message.occurrence)).Nodup

/-- **Messages are delivered as promised**, and the queue is in the order of `deliverAt`,
and of insertion where this is equal. -/
structure Delivers : Prop extends Kept t where
  ordered : StableQueue.Ordered (·.deliverAt) (·.stamp) t.queue

/-- The time does not go back, and nothing is cancelled from outside. -/
def Uncancelled (t : MessageLoop φ) (e : LoopEvent φ) : Prop := e.isCancel = false ∧ Ticks t e

instance (t : MessageLoop φ) (e : LoopEvent φ) : Decidable (Uncancelled t e) :=
  inferInstanceAs (Decidable (_ ∧ Ticks t e))

/-- What makes it so. -/
structure Inv (t : MessageLoop φ) : Prop extends Kept t where
  messages : ∀ m ∈ t.queue ++ t.phase.batch ++ t.phase.current.toList, t.Genuine m
  posted : ∀ p ∈ t.posts, 0 < p.time ∧ p.time ≤ t.clock ∧ 0 ≤ p.delay
  due : ∀ m ∈ t.phase.batch, m.deliverAt ≤ t.clock
  current : ∀ m ∈ t.phase.current, (t.dues m.occurrence).getLast? = some m.deliverAt
  started : ∀ s ∈ t.started, 0 < s.message.deliverAt ∧ s.iteration ≤ t.iteration
  fresh : ∀ s ∈ t.started, s.iteration = t.iteration →
    copies s.message.occurrence t.phase.batch = 0
  ended : ∀ n ∈ t.ended, n < t.posts.length

variable {t} {n : ℕ}

theorem inv_init : Inv ({} : MessageLoop φ) where
  genuine _ h := absurd h List.not_mem_nil
  once _ _ h := by cases h
  kept _ _ h := by cases h
  timely _ h := absurd h List.not_mem_nil
  schedule _ _ h := by cases h
  next _ h := absurd h List.not_mem_nil
  single := List.nodup_nil
  messages _ h := absurd h List.not_mem_nil
  posted _ h := absurd h List.not_mem_nil
  due _ h := absurd h List.not_mem_nil
  current _ h := by cases h
  started _ h := absurd h List.not_mem_nil
  fresh _ h := absurd h List.not_mem_nil
  ended _ h := absurd h List.not_mem_nil

theorem Inv.posted_mono (h : Inv t) {clock : Time} (hclock : t.clock ≤ clock) :
    ∀ p ∈ t.posts, 0 < p.time ∧ p.time ≤ clock ∧ 0 ≤ p.delay := by
  intro p hp
  obtain ⟨hpos, hle, hdelay⟩ := h.posted p hp
  exact ⟨hpos, hle.trans hclock, hdelay⟩

/-- A step of `Run` between the deliveries. -/
theorem Inv.rephase (h : Inv t) {phase : LoopPhase φ} {unsignalled : ℕ} {cancelCurrent : Bool}
    {clock checkedAt : Time} (hbatch : phase.batch = t.phase.batch)
    (hcurrent : phase.current = t.phase.current) (hclock : t.clock ≤ clock) :
    Inv { t with phase, unsignalled, cancelCurrent, clock, checkedAt } where
  genuine := h.genuine
  once := hbatch ▸ h.once
  kept := by
    dsimp only
    rw [hbatch, hcurrent]
    exact h.kept
  timely := h.timely
  schedule := h.schedule
  next := by
    dsimp only
    rw [hbatch]
    exact h.next
  single := h.single
  messages := by
    dsimp only
    rw [hbatch, hcurrent]
    exact h.messages
  posted := h.posted_mono hclock
  due := by
    dsimp only
    rw [hbatch]
    exact fun m hm => (h.due m hm).trans hclock
  current := by
    dsimp only
    rw [hcurrent]
    exact h.current
  started := h.started
  fresh := by
    dsimp only
    rw [hbatch]
    exact h.fresh
  ended := h.ended

/-! ## Counting -/

theorem copies_eq_zero {ms : List (Message φ)} (h : ∀ m ∈ ms, m.occurrence ≠ n) :
    copies n ms = 0 := by
  simpa [copies, List.countP_eq_zero] using h

theorem ne_of_copies_eq_zero {ms : List (Message φ)} (h : copies n ms = 0) :
    ∀ m ∈ ms, m.occurrence ≠ n := by
  simpa [copies, List.countP_eq_zero] using h

theorem copies_cons (m : Message φ) (ms : List (Message φ)) :
    copies n (m :: ms) = copies n ms + if m.occurrence = n then 1 else 0 := by
  simp [copies, List.countP_cons]

theorem copies_insertInto (m : Message φ) (ms : List (Message φ)) :
    copies n (m.insertInto ms) = copies n ms + if m.occurrence = n then 1 else 0 := by
  simp [copies, Message.countP_insertInto]

theorem copies_filter (p : Message φ → Bool) (ms : List (Message φ)) :
    copies n (ms.filter fun m => !p m) + copies n (ms.filter p) = copies n ms := by
  induction ms with
  | nil => rfl
  | cons m ms ih =>
      rw [List.filter_cons, List.filter_cons, copies_cons]
      cases p m <;> simp [copies_cons] <;> omega

theorem Genuine.lt {m : Message φ} (h : t.Genuine m) : m.occurrence < t.posts.length := by
  obtain ⟨p, hp, -⟩ := h
  exact (List.getElem?_eq_some_iff.mp hp).1

/-- Nothing is there yet of the next call of `Post`. -/
theorem Inv.unposted (h : Inv t) :
    copies t.posts.length (t.queue ++ t.phase.batch ++ t.phase.current.toList) = 0 ∧
      t.deliveries t.posts.length = [] ∧ t.ended.count t.posts.length = 0 := by
  refine ⟨copies_eq_zero fun m hm => Nat.ne_of_lt (h.messages m hm).lt, ?_, ?_⟩
  · rw [deliveries, List.filter_eq_nil_iff]
    intro s hs
    simpa using Nat.ne_of_lt (h.genuine s hs).lt
  · rw [List.count_eq_zero]
    exact fun hmem => Nat.lt_irrefl _ (h.ended _ hmem)

theorem copies_append (ms ms' : List (Message φ)) :
    copies n (ms ++ ms') = copies n ms + copies n ms' := List.countP_append

/-- A message that is waiting is so only once, and if it has no interval it
has not been delivered. -/
theorem Inv.waiting (h : Inv t) {p : Posted φ} (hp : t.posts[n]? = some p)
    (hwaiting : 0 < copies n t.queue + copies n t.phase.batch) :
    copies n t.queue + copies n t.phase.batch = 1 ∧ (p.interval ≤ 0 → t.deliveries n = []) := by
  rcases le_or_gt p.interval 0 with hone | hmany
  · have honce := h.once n p hp hone
    exact ⟨by omega, fun _ => List.length_eq_zero_iff.mp (by omega)⟩
  · have hkept := h.kept n p hp hmany
    exact ⟨by omega, fun hone => absurd hmany (not_lt.mpr hone)⟩

theorem mem_insertInto_append {m m' : Message φ} {ms ms' : List (Message φ)}
    (h : m ∈ m'.insertInto ms ++ ms') : m = m' ∨ m ∈ ms ++ ms' := by
  rcases List.mem_append.mp h with h | h
  · exact (Message.mem_insertInto.mp h).imp id (List.mem_append_left _)
  · exact .inr (List.mem_append_right _ h)

/-! ## Post -/

theorem getElem?_posts {p q : Posted φ} (h : (t.posts ++ [q])[n]? = some p) :
    (n < t.posts.length ∧ t.posts[n]? = some p) ∨ (n = t.posts.length ∧ p = q) := by
  rcases Nat.lt_trichotomy n t.posts.length with hlt | heq | hgt
  · rw [List.getElem?_append_left hlt] at h
    exact .inl ⟨hlt, h⟩
  · subst heq
    rw [List.getElem?_concat_length] at h
    exact .inr ⟨rfl, (Option.some.inj h).symm⟩
  · rw [List.getElem?_eq_none (by rw [List.length_append]; exact hgt)] at h
    cases h

theorem Genuine.append {m : Message φ} (h : t.Genuine m) (q : Posted φ) {t' : MessageLoop φ}
    (hposts : t'.posts = t.posts ++ [q]) : t'.Genuine m := by
  obtain ⟨p, hp, hsame⟩ := h
  refine ⟨p, ?_, hsame⟩
  rw [hposts, List.getElem?_append_left (List.getElem?_eq_some_iff.mp hp).1]
  exact hp

theorem Inv.dues_unposted (h : Inv t) : t.dues t.posts.length = [] := by
  rw [dues, h.unposted.2.1, List.map_nil]

/-- A new message has no due times yet, and the others keep theirs. -/
theorem Inv.schedule_post (h : Inv t) {p q : Posted φ} (hp : (t.posts ++ [q])[n]? = some p) :
    p.Schedule (t.dues n) := by
  rcases getElem?_posts hp with ⟨-, hp⟩ | ⟨rfl, rfl⟩
  · exact h.schedule n p hp
  · rw [h.dues_unposted]
    exact ⟨fun _ hdue => (by cases hdue), List.isChain_nil⟩

theorem Inv.next_post (h : Inv t) {p q : Posted φ} {m m₀ : Message φ}
    (hoccurrence : m₀.occurrence = t.posts.length) (hdue : m₀.deliverAt = q.next [])
    (hm : m ∈ m₀.insertInto t.queue ++ t.phase.batch)
    (hp : (t.posts ++ [q])[m.occurrence]? = some p) :
    m.deliverAt = p.next (t.dues m.occurrence) := by
  rcases mem_insertInto_append hm with rfl | hm
  · rcases getElem?_posts hp with ⟨hlt, -⟩ | ⟨-, rfl⟩
    · exact absurd hoccurrence (Nat.ne_of_lt hlt)
    · rw [hoccurrence, h.dues_unposted]
      exact hdue
  · have hlt := (h.messages m (List.mem_append_left _ hm)).lt
    rcases getElem?_posts hp with ⟨-, hp⟩ | ⟨heq, -⟩
    · exact h.next m hm p hp
    · exact absurd heq (Nat.ne_of_lt hlt)

theorem Inv.post (h : Inv t) {now : Time} (func : Option φ) {delay : Time} (interval : Time)
    (isCurrent : Bool) (hticks : (t.clock ≤ now ∧ 0 < now) ∧ 0 ≤ delay) :
    Inv (t.post now func delay interval isCurrent) := by
  let p₀ : Posted φ := { time := now, func, delay, interval }
  let m₀ : Message φ :=
    { id := t.lastMessageID, deliverAt := if delay = 0 then 0 else now + delay, interval, func
      occurrence := t.posts.length, stamp := t.inserted }
  obtain ⟨hnone, hdeliveries, hended⟩ := h.unposted
  rw [copies_append, copies_append] at hnone
  have hgenuine : (t.post now func delay interval isCurrent).Genuine m₀ :=
    ⟨p₀, List.getElem?_concat_length, rfl, rfl⟩
  constructor
  case toKept =>
    constructor
    case genuine => exact fun s hs => (h.genuine s hs).append p₀ rfl
    case once =>
      intro n p hp hone
      show copies n (m₀.insertInto t.queue) + copies n t.phase.batch + (t.deliveries n).length = 1
      rw [copies_insertInto]
      rcases getElem?_posts hp with ⟨hlt, hp⟩ | ⟨rfl, rfl⟩
      · rw [if_neg (Nat.ne_of_gt hlt)]
        exact h.once n p hp hone
      · rw [if_pos rfl, hdeliveries, List.length_nil]
        omega
    case kept =>
      intro n p hp hmany
      show copies n (m₀.insertInto t.queue) + copies n t.phase.batch +
        copies n t.phase.current.toList + t.ended.count n = 1
      rw [copies_insertInto]
      rcases getElem?_posts hp with ⟨hlt, hp⟩ | ⟨rfl, rfl⟩
      · rw [if_neg (Nat.ne_of_gt hlt)]
        exact h.kept n p hp hmany
      · rw [if_pos rfl, hended]
        omega
    case timely => exact h.timely
    case schedule => exact fun n p hp => h.schedule_post hp
    case next => exact fun m hm p hp => h.next_post rfl rfl hm hp
    case single => exact h.single
  case messages =>
    intro m hm
    rw [List.append_assoc] at hm
    rcases mem_insertInto_append hm with rfl | hm
    · exact hgenuine
    · exact (h.messages m (by rwa [List.append_assoc])).append p₀ rfl
  case posted =>
    intro p hp
    rcases List.mem_append.mp hp with hp | hp
    · exact h.posted_mono hticks.1.1 p hp
    · rw [List.mem_singleton.mp hp]
      exact ⟨hticks.1.2, le_refl now, hticks.2⟩
  case due => exact fun m hm => (h.due m hm).trans hticks.1.1
  case current => exact h.current
  case started => exact h.started
  case fresh => exact h.fresh
  case ended =>
    intro n hn
    show n < (t.posts ++ [p₀]).length
    rw [List.length_append]
    exact Nat.lt_succ_of_lt (h.ended n hn)

/-! ## Run -/

/-- The messages that are due are moved. -/
theorem Inv.take (h : Inv t) {now : Time} (hphase : t.phase = .woken)
    (hclock : t.clock ≤ now) (hnow : 0 < now) :
    Inv { t with
      phase := .deliver (t.queue.filter (·.due now)) none
      queue := t.queue.filter fun m => !m.due now
      iteration := t.iteration + 1
      clock := now } := by
  have hmoved : ∀ n, copies n (t.queue.filter fun m => !m.due now) +
      copies n (t.queue.filter (·.due now)) = copies n t.queue + copies n t.phase.batch := by
    intro n
    rw [hphase]
    exact copies_filter (·.due now) t.queue
  have hmem : ∀ m ∈ (t.queue.filter fun m => !m.due now) ++ t.queue.filter (·.due now),
      m ∈ t.queue := by
    intro m hm
    rcases List.mem_append.mp hm with hm | hm
    · exact (List.mem_filter.mp hm).1
    · exact (List.mem_filter.mp hm).1
  have hcurrent : t.phase.current.toList = [] := by
    rw [hphase]
    rfl
  constructor
  case toKept =>
    constructor
    case genuine => exact h.genuine
    case once =>
      intro n p hp hone
      have honce := h.once n p hp hone
      rw [← hmoved] at honce
      exact honce
    case kept =>
      intro n p hp hmany
      have hkept := h.kept n p hp hmany
      rw [← hmoved, hcurrent] at hkept
      exact hkept
    case timely => exact h.timely
    case schedule => exact h.schedule
    case next => exact fun m hm => h.next m (List.mem_append_left _ (hmem m hm))
    case single => exact h.single
  case messages =>
    intro m hm
    rw [show ({ t with
        phase := .deliver (t.queue.filter (·.due now)) none } : MessageLoop φ).phase.current.toList
        = [] from rfl, List.append_nil] at hm
    exact h.messages m (List.mem_append_left _ (List.mem_append_left _ (hmem m hm)))
  case posted => exact h.posted_mono hclock
  case due =>
    intro m hm
    have hdue : m.due now = true := (List.mem_filter.mp hm).2
    simp only [Message.due, Bool.or_eq_true, decide_eq_true_eq] at hdue
    show m.deliverAt ≤ now
    rcases hdue with hzero | hle
    · rw [hzero]
      exact hnow.le
    · exact hle
  case current => exact fun _ hm => by cases hm
  case started => exact fun s hs => ⟨(h.started s hs).1, Nat.le_succ_of_le (h.started s hs).2⟩
  case fresh =>
    intro s hs heq
    exact absurd heq (Nat.ne_of_lt (Nat.lt_succ_of_le (h.started s hs).2))
  case ended => exact h.ended

/-- The first delivery of a message. -/
theorem Inv.startedAt_first (h : Inv t) {m : Message φ} {now : Time} {p : Posted φ}
    (hm : m ∈ t.phase.batch) (hp : t.posts[m.occurrence]? = some p) (hclock : t.clock ≤ now)
    (hnow : 0 < now) (hnone : t.dues m.occurrence = []) :
    0 < (m.startedAt now).deliverAt ∧ (m.startedAt now).deliverAt ≤ now ∧
      p.Schedule [(m.startedAt now).deliverAt] := by
  have hnext := h.next m (List.mem_append_right _ hm) p hp
  have hposted := h.posted p (List.mem_of_getElem? hp)
  rw [hnone] at hnext
  change m.deliverAt = if p.delay = 0 then 0 else p.time + p.delay at hnext
  by_cases hdelay : p.delay = 0
  · -- without a delay the time of the delivery is the due time
    rw [if_pos hdelay] at hnext
    have hnow' : (m.startedAt now).deliverAt = now := by
      rw [Message.startedAt, if_pos hnext]
    rw [hnow']
    refine ⟨hnow, le_refl now, Posted.schedule_first ?_ fun hne => absurd hdelay hne⟩
    rw [hdelay, add_zero]
    exact hposted.2.1.trans hclock
  · rw [if_neg hdelay] at hnext
    have hpos : 0 < m.deliverAt := by
      rw [hnext]
      exact add_pos_of_pos_of_nonneg hposted.1 hposted.2.2
    have hsame : (m.startedAt now).deliverAt = m.deliverAt := by
      rw [Message.startedAt, if_neg hpos.ne']
    rw [hsame]
    exact ⟨hpos, (h.due m hm).trans hclock, Posted.schedule_first hnext.ge fun _ => hnext⟩

/-- Another delivery; the message has an interval then. -/
theorem Inv.startedAt_again (h : Inv t) {m : Message φ} {now : Time} {p : Posted φ} {due : Time}
    (hm : m ∈ t.phase.batch) (hp : t.posts[m.occurrence]? = some p) (hclock : t.clock ≤ now)
    (hlast : (t.dues m.occurrence).getLast? = some due) :
    0 < (m.startedAt now).deliverAt ∧ (m.startedAt now).deliverAt ≤ now ∧
      p.Schedule (t.dues m.occurrence ++ [(m.startedAt now).deliverAt]) := by
  have hnext := h.next m (List.mem_append_right _ hm) p hp
  have hcopies : 0 < copies m.occurrence t.queue + copies m.occurrence t.phase.batch := by
    refine Nat.add_pos_right _ (List.countP_pos_iff.mpr ⟨m, hm, ?_⟩)
    exact beq_self_eq_true _
  have hne : t.deliveries m.occurrence ≠ [] := by
    intro hnil
    rw [dues, hnil] at hlast
    cases hlast
  have hmany : 0 < p.interval := by
    by_contra hone
    exact hne ((h.waiting hp hcopies).2 (not_lt.mp hone))
  have hdue : 0 < due := by
    obtain ⟨s, hs, rfl⟩ := List.mem_map.mp (List.mem_of_getLast? hlast)
    exact (h.started s (List.mem_filter.mp hs).1).1
  rw [Posted.next, hlast] at hnext
  have hpos : 0 < m.deliverAt := by
    rw [hnext]
    exact add_pos hdue hmany
  have hsame : (m.startedAt now).deliverAt = m.deliverAt := by
    rw [Message.startedAt, if_neg hpos.ne']
  refine ⟨hsame.symm ▸ hpos, hsame.symm ▸ (h.due m hm).trans hclock, ?_⟩
  rw [hsame, hnext]
  exact (h.schedule _ p hp).concat hlast

/-- The due time with which a message is delivered. -/
theorem Inv.startedAt (h : Inv t) {m : Message φ} {now : Time} {p : Posted φ}
    (hm : m ∈ t.phase.batch) (hp : t.posts[m.occurrence]? = some p) (hclock : t.clock ≤ now)
    (hnow : 0 < now) :
    0 < (m.startedAt now).deliverAt ∧ (m.startedAt now).deliverAt ≤ now ∧
      p.Schedule (t.dues m.occurrence ++ [(m.startedAt now).deliverAt]) := by
  cases hlast : (t.dues m.occurrence).getLast? with
  | none =>
    have hnone : t.dues m.occurrence = [] := List.getLast?_eq_none_iff.mp hlast
    rw [hnone]
    exact h.startedAt_first hm hp hclock hnow hnone
  | some due => exact h.startedAt_again hm hp hclock hlast

theorem startedAt_occurrence (m : Message φ) (now : Time) :
    (m.startedAt now).occurrence = m.occurrence ∧ (m.startedAt now).interval = m.interval ∧
      (m.startedAt now).func = m.func := by
  unfold Message.startedAt
  split <;> exact ⟨rfl, rfl, rfl⟩

theorem deliveries_concat {t' : MessageLoop φ} {s : Started φ}
    (h : t'.started = t.started ++ [s]) (n : ℕ) :
    t'.deliveries n = t.deliveries n ++ if s.message.occurrence = n then [s] else [] := by
  unfold deliveries
  rw [h, List.filter_append]
  congr 1
  by_cases heq : s.message.occurrence = n <;> simp [heq]

theorem dues_concat {t' : MessageLoop φ} {s : Started φ} (h : t'.started = t.started ++ [s])
    (n : ℕ) :
    t'.dues n = t.dues n ++ if s.message.occurrence = n then [s.message.deliverAt] else [] := by
  unfold dues
  rw [deliveries_concat h, List.map_append]
  congr 1
  split <;> rfl

/-- The message that is next is nowhere else. -/
theorem Inv.alone (h : Inv t) {m : Message φ} {batch : List (Message φ)}
    (hbatch : t.phase.batch = m :: batch) :
    copies m.occurrence t.queue = 0 ∧ copies m.occurrence batch = 0 := by
  have hm : m ∈ t.phase.batch := hbatch ▸ List.mem_cons_self
  obtain ⟨p, hp, -⟩ := h.messages m (List.mem_append_left _ (List.mem_append_right _ hm))
  have hwaiting := (h.waiting hp (by rw [hbatch, copies_cons, if_pos rfl]; omega)).1
  rw [hbatch, copies_cons, if_pos rfl] at hwaiting
  omega

/-- In this iteration it was not delivered. -/
theorem Inv.single_concat (h : Inv t) {m : Message φ} (hm : m ∈ t.phase.batch) {s₀ : Started φ}
    (hiteration : s₀.iteration = t.iteration) (hsame : s₀.message.occurrence = m.occurrence) :
    ((t.started ++ [s₀]).map fun s => (s.iteration, s.message.occurrence)).Nodup := by
  rw [List.map_append, List.nodup_append]
  refine ⟨h.single, List.pairwise_singleton _ _, ?_⟩
  intro x hx y hy heq
  obtain ⟨s, hs, rfl⟩ := List.mem_map.mp hx
  rw [List.mem_singleton.mp hy] at heq
  obtain ⟨hi, ho⟩ := Prod.mk.inj heq
  have hnone := h.fresh s hs (hi.trans hiteration)
  exact ne_of_copies_eq_zero hnone m hm (ho.trans hsame).symm

/-- The next message counts as delivered, and no longer as waiting. -/
theorem Inv.once_start (h : Inv t) {m : Message φ} {batch : List (Message φ)} {now : Time}
    {p : Posted φ} {t' : MessageLoop φ} (hbatch : t.phase.batch = m :: batch)
    (hstarted : t'.started = t.started ++
      [{ message := m.startedAt now, time := now, iteration := t.iteration }])
    (hp : t.posts[n]? = some p) (hone : p.interval ≤ 0) :
    copies n t.queue + copies n batch + (t'.deliveries n).length = 1 := by
  have hcount := h.once n p hp hone
  rw [hbatch, copies_cons] at hcount
  rw [deliveries_concat hstarted, List.length_append]
  show copies n t.queue + copies n batch + ((t.deliveries n).length +
    (if (m.startedAt now).occurrence = n then [_] else []).length) = 1
  rw [(startedAt_occurrence m now).1]
  split_ifs at hcount ⊢ with heq
  · rw [List.length_singleton]
    omega
  · exact hcount

/-- It is running instead. -/
theorem Inv.kept_start (h : Inv t) {m : Message φ} {batch : List (Message φ)} (now : Time)
    {p : Posted φ} (hphase : t.phase = .deliver (m :: batch) none)
    (hp : t.posts[n]? = some p) (hmany : 0 < p.interval) :
    copies n t.queue + copies n batch + copies n [m.startedAt now] + t.ended.count n = 1 := by
  have hcount := h.kept n p hp hmany
  rw [hphase] at hcount
  change copies n t.queue + copies n (m :: batch) + 0 + t.ended.count n = 1 at hcount
  rw [copies_cons] at hcount
  rw [copies_cons, (startedAt_occurrence m now).1]
  have hnil : copies n ([] : List (Message φ)) = 0 := rfl
  omega

/-- Its due time comes behind those of its deliveries so far. -/
theorem Inv.schedule_start (h : Inv t) {m : Message φ} {now : Time} {p₀ p : Posted φ}
    {t' : MessageLoop φ}
    (hstarted : t'.started = t.started ++
      [{ message := m.startedAt now, time := now, iteration := t.iteration }])
    (hp₀ : t.posts[m.occurrence]? = some p₀)
    (hschedule : p₀.Schedule (t.dues m.occurrence ++ [(m.startedAt now).deliverAt]))
    (hp : t.posts[n]? = some p) : p.Schedule (t'.dues n) := by
  have hoccurrence := (startedAt_occurrence m now).1
  rw [dues_concat hstarted]
  split_ifs with heq
  · have hn : m.occurrence = n := hoccurrence.symm.trans heq
    subst hn
    cases hp₀.symm.trans hp
    exact hschedule
  · rw [List.append_nil]
    exact h.schedule n p hp

/-- The other messages are from other calls of `Post`. -/
theorem Inv.next_start (h : Inv t) {m x : Message φ} {batch : List (Message φ)} {now : Time}
    {p : Posted φ} {t' : MessageLoop φ} (hbatch : t.phase.batch = m :: batch)
    (hstarted : t'.started = t.started ++
      [{ message := m.startedAt now, time := now, iteration := t.iteration }])
    (hx : x ∈ t.queue ++ batch) (hp : t.posts[x.occurrence]? = some p) :
    x.deliverAt = p.next (t'.dues x.occurrence) := by
  obtain ⟨hqueueNone, hbatchNone⟩ := h.alone hbatch
  have hne : (m.startedAt now).occurrence ≠ x.occurrence := by
    rw [(startedAt_occurrence m now).1]
    rcases List.mem_append.mp hx with hx | hx
    · exact (ne_of_copies_eq_zero hqueueNone x hx).symm
    · exact (ne_of_copies_eq_zero hbatchNone x hx).symm
  have hwaiting : x ∈ t.queue ++ t.phase.batch := by
    rw [hbatch]
    exact (List.sublist_cons_self m batch).append_left t.queue |>.mem hx
  rw [dues_concat hstarted, if_neg hne, List.append_nil]
  exact h.next x hwaiting p hp

/-- The function of the next message is called. -/
theorem Inv.start (h : Inv t) {m : Message φ} {batch : List (Message φ)} {now : Time}
    (hphase : t.phase = .deliver (m :: batch) none) (hclock : t.clock ≤ now) (hnow : 0 < now) :
    Inv { t with
      phase := .deliver batch (some (m.startedAt now))
      cancelCurrent := false
      started := t.started ++
        [{ message := m.startedAt now, time := now, iteration := t.iteration }]
      clock := now } := by
  let s₀ : Started φ := { message := m.startedAt now, time := now, iteration := t.iteration }
  have hbatch : t.phase.batch = m :: batch := by
    rw [hphase]
    rfl
  have hm : m ∈ t.phase.batch := hbatch ▸ List.mem_cons_self
  obtain ⟨hoccurrence, hinterval, hfunc⟩ := startedAt_occurrence m now
  obtain ⟨p₀, hp₀, hgenuine⟩ := h.messages m (List.mem_append_left _ (List.mem_append_right _ hm))
  have hstarted : t.Genuine (m.startedAt now) :=
    ⟨p₀, by rw [hoccurrence]; exact hp₀, by rw [hinterval, hfunc]; exact hgenuine⟩
  obtain ⟨hpos, hdue, hschedule⟩ := h.startedAt hm hp₀ hclock hnow
  have hbatchNone := (h.alone hbatch).2
  have hrest : ∀ x ∈ t.queue ++ batch, x ∈ t.queue ++ t.phase.batch := by
    intro x hx
    rw [hbatch]
    rcases List.mem_append.mp hx with hx | hx
    · exact List.mem_append_left _ hx
    · exact List.mem_append_right _ (List.mem_cons_of_mem m hx)
  have hmem : ∀ s ∈ t.started ++ [s₀], s ∈ t.started ∨ s = s₀ := fun s hs =>
    (List.mem_append.mp hs).imp id List.mem_singleton.mp
  constructor
  case toKept =>
    constructor
    case genuine =>
      intro s hs
      rcases hmem s hs with hs | rfl
      · exact h.genuine s hs
      · exact hstarted
    case once => exact fun n p hp hone => h.once_start hbatch rfl hp hone
    case kept => exact fun n p hp hmany => h.kept_start now hphase hp hmany
    case timely =>
      intro s hs
      rcases hmem s hs with hs | rfl
      · exact h.timely s hs
      · exact hdue
    case schedule => exact fun n p hp => h.schedule_start rfl hp₀ hschedule hp
    case next => exact fun x hx p hp => h.next_start hbatch rfl hx hp
    case single => exact h.single_concat hm rfl hoccurrence
  case messages =>
    intro x hx
    rcases List.mem_append.mp hx with hx | hx
    · exact h.messages x (List.mem_append_left _ (hrest x hx))
    · rw [List.mem_singleton.mp hx]
      exact hstarted
  case posted => exact h.posted_mono hclock
  case due =>
    intro x hx
    exact (h.due x (by rw [hbatch]; exact List.mem_cons_of_mem m hx)).trans hclock
  case current =>
    intro x hx
    cases hx
    rw [dues_concat rfl, if_pos rfl, List.getLast?_concat]
  case started =>
    intro s hs
    rcases hmem s hs with hs | rfl
    · exact h.started s hs
    · exact ⟨hpos, Nat.le_refl _⟩
  case fresh =>
    intro s hs heq
    show copies s.message.occurrence batch = 0
    rcases hmem s hs with hs | rfl
    · have hnone := h.fresh s hs heq
      rw [hbatch, copies_cons] at hnone
      omega
    · show copies (m.startedAt now).occurrence batch = 0
      rw [hoccurrence]
      exact hbatchNone
  case ended => exact h.ended

/-- The function of `m` has returned, and the message is in the queue again, has ended, or
has no interval. -/
theorem Inv.returned (h : Inv t) {m : Message φ} {batch queue : List (Message φ)} {inserted : ℕ}
    {ended : List ℕ} (hphase : t.phase = .deliver batch (some m))
    (hmessages : ∀ x ∈ queue ++ batch, t.Genuine x)
    (hsame : ∀ n p, t.posts[n]? = some p → p.interval ≤ 0 → copies n queue = copies n t.queue)
    (hcount : ∀ n p, t.posts[n]? = some p → 0 < p.interval →
      copies n queue + ended.count n =
        copies n t.queue + (if m.occurrence = n then 1 else 0) + t.ended.count n)
    (hnext : ∀ x ∈ queue ++ batch, ∀ p, t.posts[x.occurrence]? = some p →
      x.deliverAt = p.next (t.dues x.occurrence))
    (hended : ∀ n ∈ ended, n < t.posts.length) :
    Inv { t with phase := .deliver batch none, queue, inserted, ended } := by
  have hbatch : t.phase.batch = batch := by
    rw [hphase]
    rfl
  have htoList : t.phase.current.toList = [m] := by
    rw [hphase]
    rfl
  constructor
  case toKept =>
    constructor
    case genuine => exact h.genuine
    case once =>
      intro n p hp hone
      have honce := h.once n p hp hone
      rw [hbatch, ← hsame n p hp hone] at honce
      exact honce
    case kept =>
      intro n p hp hmany
      have hkept := h.kept n p hp hmany
      have hcount' := hcount n p hp hmany
      have hnil : copies n ([] : List (Message φ)) = 0 := rfl
      rw [hbatch, htoList, copies_cons] at hkept
      show copies n queue + copies n batch + 0 + ended.count n = 1
      omega
    case timely => exact h.timely
    case schedule => exact h.schedule
    case next => exact hnext
    case single => exact h.single
  case messages =>
    intro x hx
    have hx : x ∈ queue ++ batch ++ [] := hx
    rw [List.append_nil] at hx
    exact hmessages x hx
  case posted => exact h.posted
  case due => exact hbatch ▸ h.due
  case current => exact fun _ hx => by cases hx
  case started => exact h.started
  case fresh => exact hbatch ▸ h.fresh
  case ended => exact hended

/-- The function returns. -/
theorem Inv.finish (h : Inv t) {m : Message φ} {batch : List (Message φ)}
    (hphase : t.phase = .deliver batch (some m)) : Inv (t.reinsert batch m) := by
  have hbatch : t.phase.batch = batch := by
    rw [hphase]
    rfl
  have hcurrent : t.phase.current = some m := by
    rw [hphase]
    rfl
  obtain ⟨p₀, hp₀, hinterval, hfunc⟩ := h.messages m (List.mem_append_right _ (by
    rw [hcurrent]
    exact List.mem_singleton_self m))
  have hwaiting : ∀ x ∈ t.queue ++ batch, t.Genuine x := fun x hx =>
    h.messages x (List.mem_append_left _ (by rw [hbatch]; exact hx))
  have hnext := hbatch ▸ h.next
  unfold reinsert
  dsimp only
  split_ifs with hcancel hmany
  · -- it has cancelled itself
    refine h.returned hphase hwaiting (fun _ _ _ _ => rfl) ?_ hnext ?_
    · intro n p hp hmany
      rw [List.count_cons]
      simp only [beq_iff_eq]
      omega
    · intro n hn
      rcases List.mem_cons.mp hn with rfl | hn
      · exact (List.getElem?_eq_some_iff.mp hp₀).1
      · exact h.ended n hn
  · -- it is inserted again
    let m₁ : Message φ := { m with deliverAt := m.deliverAt + m.interval, stamp := t.inserted }
    refine h.returned hphase ?_ ?_ ?_ ?_ h.ended
    · intro x hx
      rcases mem_insertInto_append hx with rfl | hx
      · exact ⟨p₀, hp₀, hinterval, hfunc⟩
      · exact hwaiting x hx
    · intro n p hp hone
      rw [copies_insertInto, if_neg, Nat.add_zero]
      intro heq
      have hsame : t.posts[m.occurrence]? = some p := (heq : m.occurrence = n) ▸ hp
      cases hp₀.symm.trans hsame
      exact absurd hmany (not_lt.mpr (hinterval.le.trans hone))
    · intro n p hp hmany
      rw [copies_insertInto]
    · intro x hx p hp
      rcases mem_insertInto_append hx with rfl | hx
      · cases hp₀.symm.trans (hp : t.posts[m.occurrence]? = some p)
        show m.deliverAt + m.interval = p₀.next (t.dues m.occurrence)
        rw [Posted.next, h.current m hcurrent, hinterval]
      · exact hnext x hx p hp
  · -- it has no interval
    refine h.returned hphase hwaiting (fun _ _ _ _ => rfl) ?_ hnext h.ended
    intro n p hp hrepeats
    rw [if_neg, Nat.add_zero]
    intro heq
    cases hp₀.symm.trans (heq ▸ hp)
    exact hmany (hinterval ▸ hrepeats)

theorem Inv.step (h : Inv t) {e : LoopEvent φ} (he : Uncancelled t e) : Inv (t.step e) := by
  obtain ⟨hcancel, he⟩ := he
  cases e with
  | post now func delay interval isCurrent => exact h.post func interval isCurrent he
  | signal =>
    obtain ⟨phase, unsignalled, hsignal, hbatch, hcurrent⟩ := t.signal_frame
    show Inv t.signal
    rw [hsignal]
    exact h.rephase hbatch hcurrent (le_refl _)
  | cancel id => cases hcancel
  | cancelSelf =>
    unfold MessageLoop.step
    dsimp only
    split
    · exact h.rephase rfl rfl (le_refl _)
    · exact h
  | check now =>
    unfold MessageLoop.step
    dsimp only
    split
    · rename_i hphase
      exact h.rephase (by rw [hphase]; rfl) (by rw [hphase]; rfl) he.1
    · exact h
  | wait now =>
    unfold MessageLoop.step
    dsimp only
    split
    · rename_i hphase
      exact h.rephase (by rw [hphase]; rfl) (by rw [hphase]; rfl) (le_refl _)
    · rename_i waitTimeout hphase
      refine h.rephase ?_ ?_ he.1
      · rw [hphase]
        split <;> rfl
      · rw [hphase]
        split <;> rfl
    · exact h
  | wake =>
    unfold MessageLoop.step
    dsimp only
    split
    · rename_i hphase
      exact h.rephase (by rw [hphase]; rfl) (by rw [hphase]; rfl) (le_refl _)
    · exact h
  | take now =>
    unfold MessageLoop.step
    dsimp only
    split
    · exact h.take ‹_› he.1 he.2
    · exact h
  | start now =>
    unfold MessageLoop.step
    dsimp only
    split
    · exact h.start ‹_› he.1 he.2
    · exact h
  | finish =>
    unfold MessageLoop.step
    dsimp only
    split
    · exact h.finish ‹_›
    · exact h

/-- **Every message is delivered as promised**, in every run without a cancel. -/
theorem messages_delivered (events : List (LoopEvent φ))
    (hrun : Runs.Along step Uncancelled ({} : MessageLoop φ) events) :
    Delivers (Runs.exec step {} events) where
  toKept := (hrun.invariant (fun _ _ h he => h.step he) inv_init).toKept
  ordered := (tidy_exec events).ordered

/-- A message with a delay, and one that repeats; the first is due when the second
comes again. -/
def repeatingRun : List (LoopEvent Unit) :=
  [.post 1 (some ()) 3 0 false, .post 2 (some ()) 0 2 false, .check 2, .wait 2, .take 2, .start 2,
    .finish, .check 3, .wait 3, .signal, .check 4, .wait 4, .take 5, .start 5, .finish, .start 5]

theorem messages_delivered_repeating :
    Runs.Along step Uncancelled ({} : MessageLoop Unit) repeatingRun ∧
      Delivers (Runs.exec step ({} : MessageLoop Unit) repeatingRun) := by
  have hrun : Runs.Along step Uncancelled ({} : MessageLoop Unit) repeatingRun := by decide +kernel
  exact ⟨hrun, messages_delivered repeatingRun hrun⟩

example : (Runs.exec step ({} : MessageLoop Unit) repeatingRun).started.map
    (fun s => (s.message.occurrence, s.message.deliverAt)) = [(1, 2), (0, 4), (1, 4)] := by
  decide +kernel

end MessageLoop

end Tgvoip
