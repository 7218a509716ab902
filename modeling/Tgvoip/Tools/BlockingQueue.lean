import Mathlib.Data.List.Nodup
import Mathlib.Data.Int.Notation
import Mathlib.Tactic.SplitIfs
import Tgvoip.Lib.Runs

/-!
# BlockingQueue — items go from any threads to any threads, in order

`tools/BlockingQueue.h` and the semaphore of `tools/threading.h`. `Put` is
one section under the mutex: it appends an item and releases the semaphore.
`GetBlocking` acquires the semaphore before it takes the mutex; between the
two, other threads put and get.

A run is any interleaving of these sections. A thread that has acquired and
not yet popped is owed an item, and `Sound` counts it against the queue.
-/

namespace Tgvoip

structure BlockingQueue (τ : Type*) where
  queue : List τ := []
  capacity : ℕ
  /-- The value of the semaphore. -/
  semaphore : ℕ := 0
  deriving DecidableEq, Repr

namespace BlockingQueue

variable {τ : Type*} (q : BlockingQueue τ)

/-- `Put`; nothing comes after the `abort`. -/
def put (thing : τ) : Option (BlockingQueue τ) :=
  let q := { q with queue := q.queue ++ [thing] }
  if q.queue.length > q.capacity then none else some { q with semaphore := q.semaphore + 1 }

/-- `semaphore.Acquire()`, where it does not block. -/
def acquire : Option (BlockingQueue τ) :=
  if q.semaphore = 0 then none else some { q with semaphore := q.semaphore - 1 }

/-- `GetInternal`; the front of an empty list is not defined. -/
def getInternal : Option (τ × BlockingQueue τ) :=
  match q.queue with
  | [] => none
  | r :: queue => some (r, { q with queue })

variable {q} {thing r : τ} {q' : BlockingQueue τ}

theorem put_eq_some (hroom : q.queue.length < q.capacity) :
    q.put thing = some { q with
      queue := q.queue ++ [thing], semaphore := q.semaphore + 1 } := by
  unfold put
  rw [if_neg ?_]
  show ¬ (q.queue ++ [thing]).length > q.capacity
  rw [List.length_append, List.length_singleton]
  omega

theorem acquire_eq_some (h : 0 < q.semaphore) :
    q.acquire = some { q with semaphore := q.semaphore - 1 } := by
  unfold acquire
  rw [if_neg (Nat.ne_of_gt h)]

theorem acquire_eq_none (h : q.semaphore = 0) : q.acquire = none := if_pos h

end BlockingQueue

/-- The threads around a queue. -/
structure QueueThreads (ι τ : Type*) where
  q : BlockingQueue τ
  /-- The threads in `GetBlocking` that have acquired, and not yet popped. -/
  acquired : List ι := []
  /-- `Put` called `abort`, or `GetInternal` ran on an empty queue. -/
  aborted : Bool := false
  underflow : Bool := false
  /-- History: the items in the order they were pushed, and popped by whom. -/
  pushed : List τ := []
  popped : List (ι × τ) := []
  deriving DecidableEq, Repr

inductive QueueEvent (ι τ : Type*) where
  | put (thing : τ)
  | acquire (consumer : ι)
  /-- The section of `GetBlocking` under the mutex. -/
  | getInternal (consumer : ι)
  deriving DecidableEq, Repr

namespace QueueThreads

section
variable {ι τ : Type*} [DecidableEq ι] (t : QueueThreads ι τ)

/-- What a thread that cannot go on does is wait. -/
def step : QueueEvent ι τ → QueueThreads ι τ
  | .put thing =>
    match t.q.put thing with
    | none => { t with aborted := true }
    | some q => { t with q, pushed := t.pushed ++ [thing] }
  | .acquire consumer =>
    if consumer ∈ t.acquired then t
    else
      match t.q.acquire with
      | none => t
      | some q => { t with q, acquired := consumer :: t.acquired }
  | .getInternal consumer =>
    if consumer ∈ t.acquired then
      match t.q.getInternal with
      | none => { t with underflow := true }
      | some (r, q) =>
        { t with
          q, acquired := t.acquired.erase consumer, popped := t.popped ++ [(consumer, r)] }
    else t

end

variable {ι τ : Type*} (t : QueueThreads ι τ)

/-- Fewer items than the capacity are in the queue where another is put. -/
def Room (t : QueueThreads ι τ) : QueueEvent ι τ → Prop
  | .put _ => t.q.queue.length < t.q.capacity
  | .acquire _ | .getInternal _ => True

instance (t : QueueThreads ι τ) : ∀ e, Decidable (Room t e)
  | .put _ => inferInstanceAs (Decidable (_ < _))
  | .acquire _ | .getInternal _ => .isTrue trivial

/-- **The queue loses, duplicates and reorders nothing.** -/
structure Sound : Prop where
  /-- What was popped, and what is still in the queue, is what was pushed. -/
  order : t.popped.map (·.2) ++ t.q.queue = t.pushed
  /-- Each item that was popped went to one thread. -/
  unique : ∀ n thing, n < t.popped.length → t.pushed[n]? = some thing →
    ∃! consumer, t.popped[n]? = some (consumer, thing)
  neverEmpty : t.underflow = false
  neverFull : t.aborted = false
  /-- The semaphore counts the items that no thread is owed. -/
  count : (t.q.semaphore : ℤ) = t.q.queue.length - t.acquired.length

/-- What makes it so. -/
structure Inv (t : QueueThreads ι τ) : Prop where
  order : t.popped.map (·.2) ++ t.q.queue = t.pushed
  neverEmpty : t.underflow = false
  neverFull : t.aborted = false
  count : t.q.semaphore + t.acquired.length = t.q.queue.length

variable {t}

theorem Inv.sound (h : Inv t) : Sound t where
  order := h.order
  neverEmpty := h.neverEmpty
  neverFull := h.neverFull
  count := by
    have hcount := h.count
    omega
  unique := by
    intro n thing hn hthing
    rw [← h.order, List.getElem?_append_left (by rwa [List.length_map]), List.getElem?_map] at hthing
    obtain ⟨⟨consumer, r⟩, hpopped, rfl⟩ := Option.map_eq_some_iff.mp hthing
    refine ⟨consumer, hpopped, fun other hother => ?_⟩
    rw [hpopped] at hother
    exact (Prod.mk.inj (Option.some.inj hother)).1.symm

theorem inv_init (capacity : ℕ) : Inv ({ q := { capacity } } : QueueThreads ι τ) where
  order := rfl
  neverEmpty := rfl
  neverFull := rfl
  count := rfl

variable [DecidableEq ι]

theorem Inv.put (h : Inv t) {thing : τ} (hroom : t.q.queue.length < t.q.capacity) :
    Inv (t.step (.put thing)) := by
  unfold step
  dsimp only
  rw [BlockingQueue.put_eq_some hroom]
  refine ⟨?_, h.neverEmpty, h.neverFull, ?_⟩
  · show _ ++ (t.q.queue ++ [thing]) = t.pushed ++ [thing]
    rw [← List.append_assoc, h.order]
  · show t.q.semaphore + 1 + t.acquired.length = (t.q.queue ++ [thing]).length
    rw [List.length_append, List.length_singleton, ← h.count]
    omega

theorem Inv.acquire (h : Inv t) (consumer : ι) : Inv (t.step (.acquire consumer)) := by
  unfold step
  dsimp only
  split_ifs
  · exact h
  · rcases Nat.eq_zero_or_pos t.q.semaphore with hzero | hpos
    · rw [BlockingQueue.acquire_eq_none hzero]
      exact h
    · rw [BlockingQueue.acquire_eq_some hpos]
      refine ⟨h.order, h.neverEmpty, h.neverFull, ?_⟩
      show t.q.semaphore - 1 + (t.acquired.length + 1) = t.q.queue.length
      rw [← h.count]
      omega

/-- A thread that has acquired finds an item. -/
theorem Inv.getInternal (h : Inv t) (consumer : ι) : Inv (t.step (.getInternal consumer)) := by
  unfold step
  dsimp only
  split_ifs with hacquired
  · have hcount := h.count
    have hpos : 0 < t.acquired.length := List.length_pos_of_mem hacquired
    cases hqueue : t.q.queue with
    | nil =>
      rw [hqueue, List.length_nil] at hcount
      omega
    | cons r queue =>
      have hget : t.q.getInternal = some (r, { t.q with queue }) := by
        unfold BlockingQueue.getInternal
        rw [hqueue]
      rw [hget]
      refine ⟨?_, h.neverEmpty, h.neverFull, ?_⟩
      · show (t.popped ++ [(consumer, r)]).map (·.2) ++ queue = t.pushed
        rw [← h.order, hqueue, List.map_append, List.append_assoc]
        rfl
      · show t.q.semaphore + (t.acquired.erase consumer).length = queue.length
        rw [hqueue, List.length_cons] at hcount
        rw [List.length_erase_of_mem hacquired]
        omega
  · exact h

theorem Inv.step (h : Inv t) {e : QueueEvent ι τ} (he : Room t e) : Inv (t.step e) := by
  cases e with
  | put thing => exact h.put he
  | acquire consumer => exact h.acquire consumer
  | getInternal consumer => exact h.getInternal consumer

/-- **The queue is sound** in every interleaving in which it is never full. -/
theorem queue_sound (capacity : ℕ) (events : List (QueueEvent ι τ))
    (hrun : Runs.Along step Room ({ q := { capacity } } : QueueThreads ι τ) events) :
    Sound (Runs.exec step ({ q := { capacity } } : QueueThreads ι τ) events) := by
  have hinv := hrun.invariant (fun _ _ h he => h.step he) (inv_init capacity)
  exact hinv.sound

/-- The thread that acquires first pops last. -/
def overtaking : List (QueueEvent Bool ℕ) :=
  [.put 5, .acquire true, .put 6, .acquire false, .getInternal false, .put 7, .getInternal true]

theorem queue_sound_overtaking :
    Runs.Along step Room ({ q := { capacity := 3 } } : QueueThreads Bool ℕ) overtaking ∧
      Sound (Runs.exec step ({ q := { capacity := 3 } } : QueueThreads Bool ℕ) overtaking) := by
  have hrun : Runs.Along step Room ({ q := { capacity := 3 } } : QueueThreads Bool ℕ) overtaking := by
    decide +kernel
  exact ⟨hrun, queue_sound 3 overtaking hrun⟩

example : (Runs.exec step ({ q := { capacity := 3 } } : QueueThreads Bool ℕ) overtaking).popped =
    [(false, 5), (true, 6)] := by
  decide +kernel

end QueueThreads

end Tgvoip
