import Mathlib.Algebra.Order.Field.Rat
import Tgvoip.Lib.Runs
import Tgvoip.Lib.StableQueue
import Tgvoip.Packets.PacketManager

/-!
# MessageLoop — posted messages, and the loop that delivers them

`tools/MessageThread.cpp`. `Post` inserts a message into the queue by the
time it is to be delivered at, 0 for a message without a delay. `Run` reads
the head of the queue and waits, takes out all messages that are due, calls
their functions one after the other, and inserts those again that have an
interval.

Each section under a mutex is a step, and so are the points of `Run` between
which other threads and the functions themselves can post and cancel. The
functions are not looked into: what they call are events while one runs.
-/

namespace Tgvoip

/-- `MessageThread::Message`. -/
structure Message (φ : Type*) where
  id : UInt32
  deliverAt : Time
  interval : Time
  func : Option φ
  /-- History: the call of `Post` it is from. -/
  occurrence : ℕ
  /-- History: when it was inserted, in the order of the insertions. -/
  stamp : ℕ
  deriving DecidableEq, Repr

/-- History: a call of `Post`. -/
structure Posted (φ : Type*) where
  time : Time
  func : Option φ
  delay : Time
  interval : Time
  deriving DecidableEq, Repr

/-- History: a message that is being delivered, when, and in which iteration. -/
structure Started (φ : Type*) where
  message : Message φ
  time : Time
  iteration : ℕ
  deriving DecidableEq, Repr

/-- Where `Run` is. -/
inductive LoopPhase (φ : Type*) where
  /-- In the loop over `msgsToDeliverNow`, of which `batch` is left, in the function
  of `current`; with nothing left at the head of the outer loop. -/
  | deliver (batch : List (Message φ)) (current : Option (Message φ))
  /-- `waitTimeout` is computed; `none` stands for `DBL_MAX`. -/
  | checked (waitTimeout : Option Time)
  /-- In `pthread_cond_wait`, or until some time in `pthread_cond_timedwait`. -/
  | waiting (limit : Option Time)
  | woken
  deriving DecidableEq, Repr

structure MessageLoop (φ : Type*) where
  queue : List (Message φ) := []
  lastMessageID : UInt32 := 1
  cancelCurrent : Bool := false
  phase : LoopPhase φ := .deliver [] none
  /-- The calls of `Post` that have inserted and not yet signalled. -/
  unsignalled : ℕ := 0
  /-- History. -/
  posts : List (Posted φ) := []
  /-- History: how many insertions there were. -/
  inserted : ℕ := 0
  /-- History. -/
  started : List (Started φ) := []
  /-- History: how often messages were taken out. -/
  iteration : ℕ := 0
  /-- History: the messages that cancelled themselves. -/
  ended : List ℕ := []
  /-- History: the last time that was read, and the one before the head of the queue was. -/
  clock : Time := 0
  checkedAt : Time := 0
  deriving DecidableEq, Repr

inductive LoopEvent (φ : Type*) where
  /-- `Post`, up to the signal; `isCurrent` tells whether the function that runs calls it. -/
  | post (now : Time) (func : Option φ) (delay interval : Time) (isCurrent : Bool)
  | signal
  | cancel (id : UInt32)
  | cancelSelf
  /-- `Run` reads the time and the head of the queue. -/
  | check (now : Time)
  /-- `Run` goes to wait, if there is something to wait for. -/
  | wait (now : Time)
  /-- The wait ends without a signal. -/
  | wake
  /-- The messages that are due are taken out of the queue. -/
  | take (now : Time)
  /-- The function of the next message is called. -/
  | start (now : Time)
  /-- It returns. -/
  | finish
  deriving DecidableEq, Repr

namespace LoopPhase

variable {φ : Type*}

def batch : LoopPhase φ → List (Message φ)
  | .deliver batch _ => batch
  | _ => []

def current : LoopPhase φ → Option (Message φ)
  | .deliver _ current => current
  | _ => none

end LoopPhase

namespace Message

variable {φ : Type*} (m : Message φ)

/-- `insertAfter` of the loop in `InsertMessageInternal`, from its first value on. -/
def insertAfter : List (Message φ) → List (Message φ)
  | [] => []
  | [a] => [a, m]
  | a :: b :: rest =>
    if b.deliverAt > m.deliverAt && a.deliverAt ≤ m.deliverAt then a :: m :: b :: rest
    else a :: insertAfter (b :: rest)

/-- The queue after `InsertMessageInternal`. -/
def insertInto : List (Message φ) → List (Message φ)
  | [] => [m]
  | a :: rest => if a.deliverAt > m.deliverAt then m :: a :: rest else m.insertAfter (a :: rest)

/-- Whether the message is delivered now. -/
def due (now : Time) : Bool := m.deliverAt = 0 || m.deliverAt ≤ now

/-- `deliverAt` as it is when the function is called. -/
def startedAt (now : Time) : Message φ := if m.deliverAt = 0 then { m with deliverAt := now } else m

end Message

namespace MessageLoop

variable {φ : Type*} (t : MessageLoop φ)

/-- `InsertMessageInternal`. -/
def insertMessageInternal (m : Message φ) : MessageLoop φ :=
  { t with
    queue := { m with stamp := t.inserted }.insertInto t.queue
    inserted := t.inserted + 1 }

/-- `Post`. -/
def post (now : Time) (func : Option φ) (delay interval : Time) (isCurrent : Bool) :
    MessageLoop φ :=
  { t.insertMessageInternal
      { id := t.lastMessageID, deliverAt := if delay = 0 then 0 else now + delay, interval, func
        occurrence := t.posts.length, stamp := 0 } with
    lastMessageID := t.lastMessageID + 1
    posts := t.posts ++ [{ time := now, func, delay, interval }]
    unsignalled :=
      if isCurrent && t.phase.current.isSome then t.unsignalled else t.unsignalled + 1
    clock := now }

/-- `pthread_cond_signal` wakes `Run` if it waits. -/
def signal : MessageLoop φ :=
  if t.unsignalled = 0 then t
  else
    { t with
      unsignalled := t.unsignalled - 1
      phase := match t.phase with
        | .waiting _ => .woken
        | phase => phase }

/-- `Cancel`. -/
def cancel (id : UInt32) : MessageLoop φ := { t with queue := t.queue.filter (·.id ≠ id) }

/-- What the outer loop does after the functions were called. -/
def reinsert (batch : List (Message φ)) (m : Message φ) : MessageLoop φ :=
  let t := { t with phase := .deliver batch none }
  if t.cancelCurrent then { t with ended := m.occurrence :: t.ended }
  else if m.interval > 0 then
    t.insertMessageInternal { m with deliverAt := m.deliverAt + m.interval }
  else t

def step : LoopEvent φ → MessageLoop φ
  | .post now func delay interval isCurrent => t.post now func delay interval isCurrent
  | .signal => t.signal
  | .cancel id => t.cancel id
  | .cancelSelf =>
    match t.phase with
    | .deliver _ (some _) => { t with cancelCurrent := true }
    | _ => t
  | .check now =>
    match t.phase with
    | .deliver [] none =>
      { t with
        phase := .checked (t.queue.head?.map (·.deliverAt - now)), clock := now, checkedAt := now }
    | _ => t
  | .wait now =>
    match t.phase with
    | .checked none => { t with phase := .waiting none }
    | .checked (some waitTimeout) =>
      { t with
        phase := if waitTimeout > 0 then .waiting (some (now + waitTimeout)) else .woken
        clock := now }
    | _ => t
  | .wake =>
    match t.phase with
    | .waiting _ => { t with phase := .woken }
    | _ => t
  | .take now =>
    match t.phase with
    | .woken =>
      { t with
        phase := .deliver (t.queue.filter (·.due now)) none
        queue := t.queue.filter fun m => !m.due now
        iteration := t.iteration + 1
        clock := now }
    | _ => t
  | .start now =>
    match t.phase with
    | .deliver (m :: batch) none =>
      { t with
        phase := .deliver batch (some (m.startedAt now))
        cancelCurrent := false
        started := t.started ++
          [{ message := m.startedAt now, time := now, iteration := t.iteration }]
        clock := now }
    | _ => t
  | .finish =>
    match t.phase with
    | .deliver batch (some m) => t.reinsert batch m
    | _ => t

end MessageLoop

/-! ## The queue -/

namespace Message

variable {φ : Type*} {m : Message φ}

theorem insertAfter_cons {a : Message φ} (ha : a.deliverAt ≤ m.deliverAt) (rest : List (Message φ)) :
    m.insertAfter (a :: rest) = a :: StableQueue.put (·.deliverAt) m rest := by
  induction rest generalizing a with
  | nil => rfl
  | cons b rest ih =>
      rw [insertAfter, StableQueue.put_cons]
      by_cases hlt : m.deliverAt < b.deliverAt
      · simp [hlt, ha]
      · rw [if_neg (by simp [hlt]), if_neg hlt, ih (not_lt.mp hlt)]

/-- **The search** finds the place behind all that are not due later. -/
theorem insertInto_eq_put (m : Message φ) (queue : List (Message φ)) :
    m.insertInto queue = StableQueue.put (·.deliverAt) m queue := by
  cases queue with
  | nil => rfl
  | cons a rest =>
      rw [insertInto, StableQueue.put_cons]
      split_ifs with hlt
      · rfl
      · exact insertAfter_cons (not_lt.mp hlt) rest

theorem mem_insertInto {queue : List (Message φ)} {x : Message φ} :
    x ∈ m.insertInto queue ↔ x = m ∨ x ∈ queue := by
  rw [insertInto_eq_put, StableQueue.mem_put]

theorem countP_insertInto (p : Message φ → Bool) (queue : List (Message φ)) :
    (m.insertInto queue).countP p = queue.countP p + if p m then 1 else 0 := by
  rw [insertInto_eq_put, (StableQueue.put_perm _ m queue).countP_eq, List.countP_cons]

end Message

/-! ## Runs -/

namespace MessageLoop

variable {φ : Type*} {t : MessageLoop φ} {e : LoopEvent φ}

/-- The time does not go back, and no delay is negative. -/
def Ticks (t : MessageLoop φ) : LoopEvent φ → Prop
  | .post now _ delay _ _ => (t.clock ≤ now ∧ 0 < now) ∧ 0 ≤ delay
  | .check now | .wait now | .take now | .start now => t.clock ≤ now ∧ 0 < now
  | .signal | .cancel _ | .cancelSelf | .wake | .finish => True

instance (t : MessageLoop φ) : ∀ e, Decidable (Ticks t e)
  | .post _ _ delay _ _ => inferInstanceAs (Decidable ((_ ∧ _) ∧ 0 ≤ delay))
  | .check _ | .wait _ | .take _ | .start _ => inferInstanceAs (Decidable (_ ∧ _))
  | .signal | .cancel _ | .cancelSelf | .wake | .finish => .isTrue trivial

/-- A signal changes the phase from one without messages to another. -/
theorem signal_frame (t : MessageLoop φ) :
    ∃ phase unsignalled, t.signal = { t with phase := phase, unsignalled := unsignalled } ∧
      phase.batch = t.phase.batch ∧ phase.current = t.phase.current := by
  unfold signal
  split_ifs
  · exact ⟨t.phase, t.unsignalled, rfl, rfl, rfl⟩
  · refine ⟨_, _, rfl, ?_, ?_⟩
    · cases t.phase <;> rfl
    · cases t.phase <;> rfl

theorem reinsert_phase (t : MessageLoop φ) (batch : List (Message φ)) (m : Message φ) :
    (t.reinsert batch m).phase = .deliver batch none := by
  unfold reinsert
  dsimp only
  split_ifs <;> rfl

/-- Only `start` writes to the history of deliveries. -/
theorem started_step_of_ne (t : MessageLoop φ) (h : ∀ now, e ≠ .start now) :
    (t.step e).started = t.started := by
  cases e with
  | start now => exact absurd rfl (h now)
  | _ =>
    unfold step
    dsimp only [post, cancel, signal, reinsert, insertMessageInternal]
    repeat' split
    all_goals rfl

/-- **The history of deliveries** only grows. -/
theorem started_step (t : MessageLoop φ) (e : LoopEvent φ) : t.started <+: (t.step e).started := by
  by_cases h : ∃ now, e = .start now
  · obtain ⟨now, rfl⟩ := h
    unfold step
    dsimp only
    split
    · exact List.prefix_append _ _
    · exact List.prefix_refl _
  · have hsame := started_step_of_ne t fun now he => h ⟨now, he⟩
    exact ⟨[], by rw [List.append_nil, hsame]⟩

theorem started_exec (t : MessageLoop φ) (events : List (LoopEvent φ)) :
    t.started <+: (Runs.exec step t events).started := by
  induction events generalizing t with
  | nil => exact List.prefix_refl _
  | cons e events ih => exact (started_step t e).trans (ih _)

/-! ### The order of the queue -/

/-- The queue is in the order of `deliverAt`, and of insertion where this is equal. -/
structure Tidy (t : MessageLoop φ) : Prop where
  ordered : StableQueue.Ordered (·.deliverAt) (·.stamp) t.queue
  stamps : ∀ m ∈ t.queue, m.stamp < t.inserted

theorem tidy_init : Tidy ({} : MessageLoop φ) where
  ordered := List.Pairwise.nil
  stamps _ h := absurd h List.not_mem_nil

theorem Tidy.insert (h : Tidy t) (m : Message φ) : Tidy (t.insertMessageInternal m) where
  ordered := by
    show StableQueue.Ordered _ _ (Message.insertInto _ t.queue)
    rw [Message.insertInto_eq_put]
    exact h.ordered.put h.stamps
  stamps := by
    intro x hx
    show x.stamp < t.inserted + 1
    rcases Message.mem_insertInto.mp hx with rfl | hx
    · exact Nat.lt_succ_self _
    · exact Nat.lt_succ_of_lt (h.stamps x hx)

theorem Tidy.filter (h : Tidy t) (p : Message φ → Bool) {t' : MessageLoop φ}
    (hqueue : t'.queue = t.queue.filter p) (hinserted : t'.inserted = t.inserted) : Tidy t' where
  ordered := by
    rw [hqueue]
    exact h.ordered.filter p
  stamps := by
    rw [hqueue, hinserted]
    exact fun m hm => h.stamps m (List.mem_filter.mp hm).1

theorem Tidy.reinsert (h : Tidy t) (batch : List (Message φ)) (m : Message φ) :
    Tidy (t.reinsert batch m) := by
  have hcalled : Tidy { t with phase := .deliver batch none } := ⟨h.ordered, h.stamps⟩
  unfold MessageLoop.reinsert
  dsimp only
  split_ifs
  · exact ⟨h.ordered, h.stamps⟩
  · exact hcalled.insert _
  · exact hcalled

theorem Tidy.step (h : Tidy t) (e : LoopEvent φ) : Tidy (t.step e) := by
  cases e with
  | post now func delay interval isCurrent =>
    have hinsert := h.insert
      { id := t.lastMessageID, deliverAt := if delay = 0 then 0 else now + delay, interval, func
        occurrence := t.posts.length, stamp := 0 }
    exact ⟨hinsert.ordered, hinsert.stamps⟩
  | signal =>
    obtain ⟨phase, unsignalled, hsignal, -, -⟩ := t.signal_frame
    show Tidy t.signal
    rw [hsignal]
    exact ⟨h.ordered, h.stamps⟩
  | cancel id => exact h.filter _ rfl rfl
  | take now =>
    unfold MessageLoop.step
    dsimp only
    split
    · exact h.filter _ rfl rfl
    · exact h
  | finish =>
    unfold MessageLoop.step
    dsimp only
    split
    · exact h.reinsert _ _
    · exact h
  | _ =>
    unfold MessageLoop.step
    dsimp only
    split
    all_goals first | exact h | exact ⟨h.ordered, h.stamps⟩

theorem tidy_exec (events : List (LoopEvent φ)) : Tidy (Runs.exec step ({} : MessageLoop φ) events) :=
  have hrun : Runs.Along step (fun _ _ => True) ({} : MessageLoop φ) events :=
    Runs.along_of_forall fun _ _ _ => trivial
  hrun.invariant (fun _ e h _ => h.step e) tidy_init

end MessageLoop

end Tgvoip
