import Mathlib.Data.List.Perm.Basic
import Tgvoip.Audio.OpusDecoder

/-!
# OpusEncoder — captured sound on its way to the encoder thread

`controller/audio/OpusEncoder.cpp`: `Callback` copies 20 ms of sound into a
buffer of a pool of ten and puts it into a queue for ten, `RunThread` takes
the buffers out, and `Stop` puts an empty buffer to wake the thread up.

Each operation on the pool, on the queue and on its semaphore is a step, and
so is each look at `running`. The encoder is started once, and stopped at
most once. Any number of callbacks may be under way; what the thread does
with the sound is not modelled.

The ten buffers of the pool fill the queue, so that the empty buffer has a
place only if one of them is elsewhere; and the thread comes to it only if
it waits at an empty queue, since it looks at `running` before it takes
another buffer. The last section says that these two are all that matters.
-/

namespace Tgvoip

open Runs

/-! ## The threads -/

/-- Where `RunThread` is. -/
inductive EncoderPhase where
  | notStarted
  /-- At `while (running)`. -/
  | checking
  /-- At the semaphore of `queue.GetBlocking()`, and behind it. -/
  | getting
  | popping
  /-- With a buffer, which is given back where the round ends. -/
  | processing (slot : ℕ)
  | ended
  deriving DecidableEq, Repr

namespace EncoderPhase

/-- The thread has acquired, and not yet popped. -/
def acquired : EncoderPhase → ℕ
  | popping => 1
  | notStarted | checking | getting | processing _ | ended => 0

/-- The buffer the thread has. -/
def slot : EncoderPhase → Option ℕ
  | processing slot => some slot
  | notStarted | checking | getting | popping | ended => none

end EncoderPhase

structure OpusEncoder where
  running : Bool := false
  thread : EncoderPhase := .notStarted
  /-- Buffers by their place in the pool; `none` is the empty buffer of `Stop`. -/
  queue : BlockingQueue (Option ℕ) := { capacity := 10 }
  bufferPool : BufferPool 10 := {}
  complexity : ℕ := 10
  /-- The buffers that callbacks have taken from the pool and not put. -/
  pending : List ℕ := []
  /-- `Stop` has cleared `running`, and not put its buffer. -/
  stopping : Bool := false
  /-- `Put` called `abort`, or an item was taken from an empty queue. -/
  aborted : Bool := false
  underflow : Bool := false
  /-- History: what was put, and what the thread took. -/
  put : List (Option ℕ) := []
  taken : List (Option ℕ) := []
  deriving DecidableEq

inductive CaptureEvent where
  | start
  /-- `Stop` up to its `Put`, and the `Put`. -/
  | stop
  | stopPut
  /-- A callback takes a buffer, and puts it. -/
  | callbackGet
  | callbackPut (slot : ℕ)
  /-- The encoder thread goes on. -/
  | encoder
  deriving DecidableEq, Repr

namespace OpusEncoder

def putItem (t : OpusEncoder) (item : Option ℕ) : OpusEncoder :=
  match t.queue.put item with
  | none => { t with aborted := true }
  | some queue => { t with queue, put := t.put ++ [item] }

/-- The next operation of `RunThread`. -/
def runThread (t : OpusEncoder) : OpusEncoder :=
  match t.thread with
  | .notStarted | .ended => t
  | .checking => { t with thread := if t.running then .getting else .ended }
  | .getting =>
    match t.queue.acquire with
    | none => t
    | some queue => { t with queue, thread := .popping }
  | .popping =>
    match t.queue.getInternal with
    | none => { t with underflow := true }
    | some (none, queue) => { t with queue, thread := .ended, taken := t.taken ++ [none] }
    | some (some slot, queue) =>
      { t with queue, thread := .processing slot, taken := t.taken ++ [some slot] }
  | .processing slot => { t with bufferPool := t.bufferPool.free slot, thread := .checking }

def act (t : OpusEncoder) : CaptureEvent → OpusEncoder
  | .start =>
    if t.running ∨ t.thread ≠ .notStarted then t
    else { t with running := true, thread := .checking }
  | .stop => if t.running then { t with running := false, stopping := true } else t
  | .stopPut => if t.stopping then { t with stopping := false }.putItem none else t
  | .callbackGet =>
    match t.bufferPool.get with
    -- the handler of `bad_alloc`
    | none => { t with complexity := if t.complexity > 1 then t.complexity - 1 else t.complexity }
    | some (slot, bufferPool) => { t with bufferPool, pending := slot :: t.pending }
  | .callbackPut slot =>
    if slot ∈ t.pending then { t with pending := t.pending.erase slot }.putItem (some slot) else t
  | .encoder => t.runThread

/-- Nothing comes after `abort`. -/
def step (t : OpusEncoder) (e : CaptureEvent) : OpusEncoder := if t.aborted then t else t.act e

/-- However the threads go on, the empty buffer is taken when the encoder thread has gone
on often enough. -/
def MarkerTaken (t : OpusEncoder) : Prop :=
  ∃ n, ∀ es : List CaptureEvent, n ≤ es.count .encoder →
    (exec step t es).aborted = true ∨ none ∈ (exec step t es).taken

/-- **What a step owes**: no `Put` finds the queue full, what is taken is
what was put first, and the empty buffer of `Stop` will be taken. -/
structure Good (t : OpusEncoder) (e : CaptureEvent) : Prop where
  room : (t.step e).aborted = false
  order : (t.step e).taken <+: (t.step e).put
  marker : e = .stopPut → t.stopping = true → MarkerTaken (t.step e)

/-- **The steps that pay**: `Stop` puts its buffer while the thread waits at
an empty queue, and while it is there a callback finds fewer than ten items. -/
def Fits (t : OpusEncoder) : CaptureEvent → Prop
  | .stopPut => t.stopping = true → t.thread = .getting ∧ t.queue.queue = []
  | .callbackPut slot => slot ∈ t.pending → none ∈ t.queue.queue → t.queue.queue.length < 10
  | .start | .stop | .callbackGet | .encoder => True

instance (t : OpusEncoder) : ∀ e, Decidable (Fits t e)
  | .stopPut => inferInstanceAs (Decidable (_ → _))
  | .callbackPut _ => inferInstanceAs (Decidable (_ → _ → _))
  | .start | .stop | .callbackGet | .encoder => .isTrue trivial

/-! ## The invariant -/

/-- The buffers of the pool that are in the queue, with a callback, or with the thread. -/
def held (t : OpusEncoder) : List ℕ :=
  t.queue.queue.filterMap id ++ t.pending ++ t.thread.slot.toList

structure Inv (t : OpusEncoder) : Prop where
  going : t.aborted = false
  capacity : t.queue.capacity = 10
  count : t.queue.semaphore + t.thread.acquired = t.queue.queue.length
  order : t.taken ++ t.queue.queue = t.put
  distinct : t.held.Nodup
  used : ∀ slot ∈ t.held, slot ∈ t.bufferPool.used
  small : ∀ slot ∈ t.bufferPool.used, slot < 10
  offset : t.bufferPool.offset < 10
  /-- The empty buffer is put by `Stop` only. -/
  fresh : t.thread = .notStarted ∨ t.running = true ∨ t.stopping = true → none ∉ t.put
  started : t.running = true ∨ t.stopping = true → t.thread ≠ .notStarted
  cleared : t.stopping = true → t.running = false

variable {t : OpusEncoder} {item : Option ℕ} {slot : ℕ}

theorem inv_init : Inv {} where
  going := rfl
  capacity := rfl
  count := rfl
  order := rfl
  distinct := List.nodup_nil
  used _ h := by cases h
  small _ h := by cases h
  offset := by decide
  fresh _ h := by cases h
  started h := by rcases h with h | h <;> cases h
  cleared h := by cases h

theorem step_eq (h : t.aborted = false) (e : CaptureEvent) : t.step e = t.act e := by
  simp [step, h]

theorem putItem_eq (hroom : t.queue.queue.length < t.queue.capacity) :
    t.putItem item = { t with
      queue := { t.queue with
        queue := t.queue.queue ++ [item], semaphore := t.queue.semaphore + 1 }
      put := t.put ++ [item] } := by
  rw [putItem, BlockingQueue.put_eq_some hroom]

theorem putItem_aborted : (t.putItem item).aborted = false ↔
    t.aborted = false ∧ t.queue.queue.length < t.queue.capacity := by
  by_cases hroom : t.queue.queue.length < t.queue.capacity
  · simp [putItem_eq hroom, hroom]
  · have hput : t.queue.put item = none := by
      unfold BlockingQueue.put
      rw [if_pos ?_]
      show (t.queue.queue ++ [item]).length > t.queue.capacity
      rw [List.length_append, List.length_singleton]
      omega
    simp [putItem, hput, hroom]

/-- Without the empty buffer, the queue and one more buffer are from the pool. -/
theorem Inv.room (h : Inv t) (hslot : slot ∈ t.pending) (hnone : none ∉ t.queue.queue) :
    t.queue.queue.length < 10 := by
  have hlength : (t.queue.queue.filterMap id).length = t.queue.queue.length := by
    rw [List.length_filterMap_eq_countP, List.countP_eq_length]
    intro item hitem
    cases item with
    | none => exact absurd hitem hnone
    | some slot => rfl
  have hdistinct : (slot :: t.queue.queue.filterMap id).Nodup := by
    have hparts := (List.nodup_append'.mp (List.nodup_append'.mp h.distinct).1)
    exact List.nodup_cons.mpr ⟨fun hmem => hparts.2.2 hmem hslot, hparts.1⟩
  have hsub : slot :: t.queue.queue.filterMap id ⊆ List.range 10 := by
    intro x hx
    have hheld : x ∈ t.held := by
      rcases List.mem_cons.mp hx with rfl | hx
      · exact List.mem_append_left _ (List.mem_append_right _ hslot)
      · exact List.mem_append_left _ (List.mem_append_left _ hx)
    exact List.mem_range.mpr (h.small x (h.used x hheld))
  have hle := (hdistinct.subperm hsub).length_le
  rw [List.length_cons, hlength, List.length_range] at hle
  omega

theorem Inv.none_notMem (h : Inv t) (hfresh : t.stopping = true) : none ∉ t.queue.queue := by
  intro hmem
  apply h.fresh (.inr (.inr hfresh))
  rw [← h.order]
  exact List.mem_append_right _ hmem

/-! ## What each event does -/

/-- A buffer on its way into the queue. -/
theorem Inv.putItem (h : Inv t) (hroom : t.queue.queue.length < 10) {pending : List ℕ}
    {stopping : Bool} (hheld : (item.toList ++ pending).Perm t.pending)
    (hstopping : stopping = true → t.stopping = true)
    (hfresh : t.thread = .notStarted ∨ t.running = true ∨ stopping = true → item ≠ none) :
    Inv ({ t with pending, stopping }.putItem item) := by
  rw [putItem_eq (by rw [h.capacity]; exact hroom)]
  have hperm : ((t.queue.queue ++ [item]).filterMap id ++ pending ++ t.thread.slot.toList).Perm
      t.held := by
    rw [List.filterMap_append, held, List.append_assoc (t.queue.queue.filterMap id)]
    have hitem : [item].filterMap id = item.toList := by cases item <;> rfl
    rw [hitem]
    exact (hheld.append_left _).append_right _
  refine { h with
    count := ?_, order := ?_, distinct := ?_, used := ?_, fresh := ?_, started := ?_
    cleared := fun hcase => h.cleared (hstopping hcase) }
  · have hcount := h.count
    show t.queue.semaphore + 1 + t.thread.acquired = (t.queue.queue ++ [item]).length
    rw [List.length_append, List.length_singleton, ← hcount]
    omega
  · rw [← h.order, List.append_assoc]
  · exact hperm.nodup_iff.mpr h.distinct
  · exact fun slot hslot => h.used slot (hperm.mem_iff.mp hslot)
  · intro hcase hmem
    rcases List.mem_append.mp hmem with hmem | hmem
    · exact h.fresh (hcase.imp_right fun hc => hc.imp_right hstopping) hmem
    · exact hfresh hcase (List.mem_singleton.mp hmem).symm
  · exact fun hcase => h.started (hcase.imp_right hstopping)

theorem Inv.start (h : Inv t) : Inv (t.act .start) := by
  unfold act
  dsimp only
  split
  · exact h
  · rename_i hnot
    obtain ⟨-, hthread⟩ := not_or.mp hnot
    rw [not_not] at hthread
    have hcount := h.count
    have hdistinct := h.distinct
    have hused := h.used
    unfold held at hdistinct hused
    rw [hthread] at hcount hdistinct hused
    refine { h with
      count := hcount, distinct := hdistinct, used := hused
      fresh := fun _ => h.fresh (.inl hthread), started := fun _ => EncoderPhase.noConfusion
      cleared := fun hstopping => absurd hthread (h.started (.inr hstopping)) }

theorem Inv.stop (h : Inv t) : Inv (t.act .stop) := by
  unfold act
  dsimp only
  split
  · rename_i hrunning
    exact { h with
      fresh := fun _ => h.fresh (.inr (.inl hrunning))
      started := fun _ => h.started (.inl hrunning), cleared := fun _ => rfl }
  · exact h

theorem Inv.stopPut (h : Inv t) (hfits : Fits t .stopPut) : Inv (t.act .stopPut) := by
  unfold act
  dsimp only
  split
  · rename_i hstopping
    obtain ⟨hthread, hempty⟩ := hfits hstopping
    have hroom : t.queue.queue.length < 10 := by
      rw [hempty]
      decide
    refine h.putItem hroom (List.Perm.refl _) (fun hfalse => by cases hfalse) ?_
    rintro (hidle | hrunning | hfalse)
    · exact absurd hidle (h.started (.inr hstopping))
    · exact absurd (h.cleared hstopping) (by simp [hrunning])
    · cases hfalse
  · exact h

theorem Inv.callbackGet (h : Inv t) : Inv (t.act .callbackGet) := by
  unfold act
  dsimp only
  split
  · exact { h with }
  · rename_i slot bufferPool hget
    obtain ⟨rfl, hfree, rfl⟩ := BufferPool.of_getLoop_eq_some hget
    have hnew : t.bufferPool.offset ∉ t.held := fun hmem => hfree (h.used _ hmem)
    have hperm : (t.queue.queue.filterMap id ++ (t.bufferPool.offset :: t.pending) ++
        t.thread.slot.toList).Perm (t.bufferPool.offset :: t.held) :=
      List.perm_middle.append_right _
    refine { h with distinct := ?_, used := ?_, small := ?_, offset := ?_ }
    · exact hperm.nodup_iff.mpr (List.nodup_cons.mpr ⟨hnew, h.distinct⟩)
    · intro slot hslot
      refine Finset.mem_insert.mpr ?_
      exact (List.mem_cons.mp (hperm.mem_iff.mp hslot)).imp_right (h.used slot)
    · intro slot hslot
      rcases Finset.mem_insert.mp hslot with rfl | hslot
      · exact h.offset
      · exact h.small slot hslot
    · exact Nat.mod_lt _ (by decide)

theorem Inv.callbackPut (h : Inv t) (hfits : Fits t (.callbackPut slot)) :
    Inv (t.act (.callbackPut slot)) := by
  unfold act
  dsimp only
  split
  · rename_i hslot
    have hroom : t.queue.queue.length < 10 := by
      by_cases hnone : none ∈ t.queue.queue
      · exact hfits hslot hnone
      · exact h.room hslot hnone
    exact h.putItem hroom (List.perm_cons_erase hslot).symm id fun _ => Option.some_ne_none slot
  · exact h

/-- The thread reads `running`. -/
theorem Inv.checking (h : Inv t) (hthread : t.thread = .checking) :
    Inv { t with thread := if t.running then .getting else .ended } := by
  have hcount := h.count
  have hdistinct := h.distinct
  have hused := h.used
  unfold held at hdistinct hused
  rw [hthread] at hcount hdistinct hused
  have hnext : (if t.running then EncoderPhase.getting else .ended) ≠ .notStarted := by
    split <;> exact EncoderPhase.noConfusion
  refine { h with
    count := ?_, distinct := ?_, used := ?_, fresh := ?_, started := fun _ => hnext }
  · dsimp only
    split <;> exact hcount
  · unfold held
    dsimp only
    split <;> exact hdistinct
  · unfold held
    dsimp only
    split <;> exact hused
  · exact fun hcase => h.fresh (.inr (hcase.resolve_left hnext))

/-- The thread comes through the semaphore. -/
theorem Inv.getting (h : Inv t) (hthread : t.thread = .getting) (hpos : 0 < t.queue.semaphore) :
    Inv { t with
      queue := { t.queue with semaphore := t.queue.semaphore - 1 }, thread := .popping } := by
  have hcount := h.count
  have hdistinct := h.distinct
  have hused := h.used
  unfold held at hdistinct hused
  rw [hthread] at hcount hdistinct hused
  refine { h with
    count := ?_, distinct := hdistinct, used := hused
    fresh := fun hcase => h.fresh (.inr (hcase.resolve_left EncoderPhase.noConfusion))
    started := fun _ => EncoderPhase.noConfusion }
  show t.queue.semaphore - 1 + 1 = t.queue.queue.length
  rw [← hcount]
  show _ = t.queue.semaphore + 0
  omega

/-- It takes an item: the empty buffer, or one to process. -/
theorem Inv.popping (h : Inv t) (hthread : t.thread = .popping) {queue : List (Option ℕ)}
    (hqueue : t.queue.queue = item :: queue) :
    Inv { t with
      queue := { t.queue with queue }, thread := item.elim .ended .processing
      taken := t.taken ++ [item] } := by
  have hcount := h.count
  have hdistinct := h.distinct
  have hused := h.used
  have horder := h.order
  unfold held at hdistinct hused
  rw [hthread, hqueue] at hcount hdistinct hused
  rw [hqueue] at horder
  have hslot : (item.elim EncoderPhase.ended .processing).slot = item := by
    cases item <;> rfl
  have hacquired : (item.elim EncoderPhase.ended .processing).acquired = 0 := by
    cases item <;> rfl
  have hnext : item.elim EncoderPhase.ended .processing ≠ .notStarted := by
    cases item <;> exact EncoderPhase.noConfusion
  have hitem : (item :: queue).filterMap id = item.toList ++ queue.filterMap id := by
    cases item <;> rfl
  have hperm : (queue.filterMap id ++ t.pending ++ item.toList).Perm
      ((item :: queue).filterMap id ++ t.pending ++ EncoderPhase.popping.slot.toList) := by
    rw [hitem, List.append_assoc item.toList]
    exact List.perm_append_comm.trans (List.Perm.of_eq (List.append_nil _).symm)
  refine { h with
    count := ?_, order := ?_, distinct := ?_, used := ?_
    fresh := fun hcase => h.fresh (.inr (hcase.resolve_left hnext))
    started := fun _ => hnext }
  · show t.queue.semaphore + _ = queue.length
    rw [hacquired]
    exact Nat.succ.inj hcount
  · show t.taken ++ [item] ++ queue = t.put
    rw [← horder, List.append_assoc, List.singleton_append]
  · unfold held
    rw [hslot]
    exact hperm.nodup_iff.mpr hdistinct
  · intro slot hmem
    unfold held at hmem
    rw [hslot] at hmem
    exact hused slot (hperm.mem_iff.mp hmem)

/-- It gives its buffer back. -/
theorem Inv.processing (h : Inv t) (hthread : t.thread = .processing slot) :
    Inv { t with bufferPool := t.bufferPool.free slot, thread := .checking } := by
  have hcount := h.count
  have hdistinct := h.distinct
  have hused := h.used
  unfold held at hdistinct hused
  rw [hthread] at hcount hdistinct hused
  obtain ⟨hrest, -, hapart⟩ := List.nodup_append'.mp hdistinct
  refine { h with
    count := hcount, distinct := ?_, used := ?_, small := ?_
    fresh := fun hcase => h.fresh (.inr (hcase.resolve_left EncoderPhase.noConfusion))
    started := fun _ => EncoderPhase.noConfusion }
  · unfold held
    simpa [EncoderPhase.slot] using hrest
  · intro x hx
    unfold held at hx
    simp only [EncoderPhase.slot, Option.toList_none, List.append_nil] at hx
    refine Finset.mem_erase.mpr ⟨?_, hused x (List.mem_append_left _ hx)⟩
    rintro rfl
    exact hapart hx (List.mem_singleton_self _)
  · exact fun x hx => h.small x (Finset.mem_of_mem_erase hx)

/-- **The thread's next operation** keeps the buffers apart. -/
theorem Inv.runThread (h : Inv t) : Inv t.runThread := by
  unfold OpusEncoder.runThread
  split
  · exact h
  · exact h
  · rename_i hthread
    exact h.checking hthread
  · rename_i hthread
    rcases Nat.eq_zero_or_pos t.queue.semaphore with hzero | hpos
    · rw [BlockingQueue.acquire_eq_none hzero]
      exact h
    · rw [BlockingQueue.acquire_eq_some hpos]
      exact h.getting hthread hpos
  · rename_i hthread
    have hcount := h.count
    rw [hthread] at hcount
    cases hqueue : t.queue.queue with
    | nil =>
      -- the semaphore had counted an item
      rw [hqueue] at hcount
      cases hcount
    | cons item queue =>
      have hget : t.queue.getInternal = some (item, { t.queue with queue }) := by
        unfold BlockingQueue.getInternal
        rw [hqueue]
      rw [hget]
      cases item with
      | none => exact h.popping hthread hqueue
      | some slot => exact h.popping hthread hqueue
  · rename_i slot hthread
    exact h.processing hthread

/-- **The step lemma.** -/
theorem Inv.step (h : Inv t) {e : CaptureEvent} (hfits : Fits t e) : Inv (t.step e) := by
  rw [step_eq h.going]
  cases e with
  | start => exact h.start
  | stop => exact h.stop
  | stopPut => exact h.stopPut hfits
  | callbackGet => exact h.callbackGet
  | callbackPut slot => exact h.callbackPut hfits
  | encoder => exact h.runThread

/-! ## The empty buffer on its way -/

/-- How many operations of the thread there are to go, at most. -/
def Due (t : OpusEncoder) : ℕ → Prop
  | 0 => t.aborted = true ∨ none ∈ t.taken
  | 1 => t.thread = .popping ∧ t.queue.queue.head? = some none
  | _ => t.thread = .getting ∧ t.queue.queue.head? = some none ∧ 0 < t.queue.semaphore

/-- A `Put` leaves the thread and the front of the queue alone. -/
theorem putItem_cases (t : OpusEncoder) (item : Option ℕ) :
    (t.putItem item).aborted = true ∨ t.putItem item = { t with
      queue := { t.queue with
        queue := t.queue.queue ++ [item], semaphore := t.queue.semaphore + 1 }
      put := t.put ++ [item] } := by
  by_cases hroom : t.queue.queue.length < t.queue.capacity
  · exact .inr (putItem_eq hroom)
  · left
    rw [← Bool.not_eq_false]
    exact fun h => hroom (putItem_aborted.mp h).2

/-- **The other threads** only append to the queue. -/
theorem step_other {e : CaptureEvent} (he : e ≠ .encoder) (hstarted : t.thread ≠ .notStarted) :
    (t.step e).aborted = true ∨
      (t.step e).thread = t.thread ∧ t.queue.queue <+: (t.step e).queue.queue ∧
        t.queue.semaphore ≤ (t.step e).queue.semaphore := by
  have hput : ∀ (stopping : Bool) (pending : List ℕ) (item : Option ℕ),
      ({ t with stopping, pending }.putItem item).aborted = true ∨
        ({ t with stopping, pending }.putItem item).thread = t.thread ∧
        t.queue.queue <+: ({ t with stopping, pending }.putItem item).queue.queue ∧
        t.queue.semaphore ≤ ({ t with stopping, pending }.putItem item).queue.semaphore := by
    intro stopping pending item
    refine (putItem_cases { t with stopping, pending } item).imp_right fun h => ?_
    rw [h]
    exact ⟨rfl, List.prefix_append _ _, Nat.le_succ _⟩
  have hsame : t.thread = t.thread ∧ t.queue.queue <+: t.queue.queue ∧
      t.queue.semaphore ≤ t.queue.semaphore := ⟨rfl, List.prefix_refl _, Nat.le_refl _⟩
  rw [step]
  split
  · rename_i haborted
    exact .inl haborted
  · cases e with
    | start =>
        rw [act, if_pos (.inr hstarted)]
        exact .inr hsame
    | stop =>
        rw [act]
        split
        · exact .inr hsame
        · exact .inr hsame
    | stopPut =>
        rw [act]
        split
        · exact hput false t.pending none
        · exact .inr hsame
    | callbackGet =>
        rw [act]
        split
        · exact .inr hsame
        · exact .inr hsame
    | callbackPut slot =>
        rw [act]
        split
        · exact hput t.stopping _ (some slot)
        · exact .inr hsame
    | encoder => exact absurd rfl he

theorem taken_runThread : t.taken <+: t.runThread.taken := by
  unfold runThread
  split
  · exact List.prefix_refl _
  · exact List.prefix_refl _
  · exact List.prefix_refl _
  · split
    · exact List.prefix_refl _
    · exact List.prefix_refl _
  · split
    · exact List.prefix_refl _
    · exact List.prefix_append _ _
    · exact List.prefix_append _ _
  · exact List.prefix_refl _

theorem putItem_taken (t : OpusEncoder) (item : Option ℕ) : (t.putItem item).taken = t.taken := by
  unfold putItem
  split <;> rfl

/-- What is taken stays so. -/
theorem taken_step (t : OpusEncoder) (e : CaptureEvent) : t.taken <+: (t.step e).taken := by
  rw [step]
  split
  · exact List.prefix_refl _
  · cases e with
    | start =>
        rw [act]
        split <;> exact List.prefix_refl _
    | stop =>
        rw [act]
        split <;> exact List.prefix_refl _
    | stopPut =>
        rw [act]
        split
        · rw [putItem_taken]
        · exact List.prefix_refl _
    | callbackGet =>
        rw [act]
        split <;> exact List.prefix_refl _
    | callbackPut slot =>
        rw [act]
        split
        · rw [putItem_taken]
        · exact List.prefix_refl _
    | encoder => exact taken_runThread

theorem Due.zero_step (h : Due t 0) (e : CaptureEvent) : Due (t.step e) 0 := by
  rcases h with haborted | htaken
  · left
    rw [step, if_pos haborted]
    exact haborted
  · exact .inr ((taken_step t e).subset htaken)

/-- The thread comes one operation nearer. -/
theorem Due.encoder {k : ℕ} (h : Due t (k + 1)) : ∃ j ≤ k, Due (t.step .encoder) j := by
  rw [step]
  split
  · rename_i haborted
    exact ⟨0, Nat.zero_le _, .inl haborted⟩
  · rw [act, runThread]
    cases k with
    | zero =>
        obtain ⟨hthread, hfront⟩ := h
        obtain ⟨queue, hqueue⟩ := List.head?_eq_some_iff.mp hfront
        refine ⟨0, Nat.le_refl _, .inr ?_⟩
        simp [hthread, BlockingQueue.getInternal, hqueue]
    | succ k =>
        obtain ⟨hthread, hfront, hpos⟩ := h
        refine ⟨1, Nat.succ_le_succ (Nat.zero_le _), ?_⟩
        simp only [hthread]
        rw [BlockingQueue.acquire_eq_some hpos]
        exact ⟨rfl, hfront⟩

theorem Due.other {k : ℕ} (h : Due t (k + 1)) {e : CaptureEvent} (he : e ≠ .encoder) :
    ∃ j ≤ k + 1, Due (t.step e) j := by
  have hprefix : ∀ q, t.queue.queue <+: q → t.queue.queue.head? = some none →
      q.head? = some none := by
    rintro q ⟨items, rfl⟩ hfront
    rw [List.head?_append, hfront]
    rfl
  have hstarted : t.thread ≠ .notStarted := by
    cases k with
    | zero => rw [h.1]; exact EncoderPhase.noConfusion
    | succ k => rw [h.1]; exact EncoderPhase.noConfusion
  rcases step_other he hstarted with haborted | ⟨hthread, hqueue, hsemaphore⟩
  · exact ⟨0, Nat.zero_le _, .inl haborted⟩
  · refine ⟨k + 1, Nat.le_refl _, ?_⟩
    cases k with
    | zero => exact ⟨hthread.trans h.1, hprefix _ hqueue h.2⟩
    | succ k => exact ⟨hthread.trans h.1, hprefix _ hqueue h.2.1, h.2.2.trans_le hsemaphore⟩

/-- **The empty buffer is taken** when the thread has gone on often enough. -/
theorem Due.run {k : ℕ} (h : Due t k) {es : List CaptureEvent} (hes : k ≤ es.count .encoder) :
    Due (exec step t es) 0 := by
  induction es generalizing t k with
  | nil =>
      rw [List.count_nil, Nat.le_zero] at hes
      exact hes ▸ h
  | cons e es ih =>
      cases k with
      | zero => exact ih (h.zero_step e) (Nat.zero_le _)
      | succ k =>
          by_cases he : e = .encoder
          · subst he
            obtain ⟨j, hj, hdue⟩ := h.encoder
            rw [List.count_cons_self] at hes
            exact ih hdue (by omega)
          · obtain ⟨j, hj, hdue⟩ := h.other he
            rw [List.count_cons_of_ne he] at hes
            exact ih hdue (hj.trans hes)

/-! ## The empty buffer left behind -/

/-- The thread ends before it comes to the empty buffer. -/
structure Lost (t : OpusEncoder) : Prop where
  going : t.aborted = false
  cleared : t.running = false
  notTaken : none ∉ t.taken
  thread : t.thread = .checking ∨ t.thread = .ended ∨ (∃ slot, t.thread = .processing slot) ∨
    (t.thread = .getting ∨ t.thread = .popping) ∧ ∃ slot, t.queue.queue.head? = some (some slot)

theorem Lost.step (h : Lost t) : Lost (t.step .encoder) := by
  rw [step_eq h.going, act, runThread]
  rcases h.thread with hthread | hthread | ⟨slot, hthread⟩ | ⟨hthread | hthread, slot, hfront⟩
  · simp only [hthread, h.cleared]
    exact ⟨h.going, rfl, h.notTaken, .inr (.inl rfl)⟩
  · simp only [hthread]
    exact h
  · simp only [hthread]
    exact ⟨h.going, h.cleared, h.notTaken, .inl rfl⟩
  · simp only [hthread]
    rcases Nat.eq_zero_or_pos t.queue.semaphore with hzero | hpos
    · rw [BlockingQueue.acquire_eq_none hzero]
      exact h
    · rw [BlockingQueue.acquire_eq_some hpos]
      exact ⟨h.going, h.cleared, h.notTaken, .inr (.inr (.inr ⟨.inr rfl, slot, hfront⟩))⟩
  · obtain ⟨queue, hqueue⟩ := List.head?_eq_some_iff.mp hfront
    have hget : t.queue.getInternal = some (some slot, { t.queue with queue }) := by
      unfold BlockingQueue.getInternal
      rw [hqueue]
    simp only [hthread, hget]
    refine ⟨h.going, h.cleared, ?_, .inr (.inr (.inl ⟨slot, rfl⟩))⟩
    simpa using h.notTaken

theorem Lost.not_markerTaken (h : Lost t) : ¬ MarkerTaken t := by
  rintro ⟨n, hn⟩
  have hlost : Lost (exec OpusEncoder.step t (List.replicate n .encoder)) := by
    clear hn
    induction n generalizing t with
    | zero => exact h
    | succ n ih => exact ih h.step
  rcases hn _ (List.count_replicate_self ..).ge with haborted | htaken
  · rw [hlost.going] at haborted
    cases haborted
  · exact hlost.notTaken htaken

/-! ## Runs -/

/-- **Stop's Put** leads to the empty buffer being taken only if it fits. -/
theorem Inv.fits_stopPut (h : Inv t) (hroom : (t.step .stopPut).aborted = false)
    (hmarker : t.stopping = true → MarkerTaken (t.step .stopPut)) : Fits t .stopPut := by
  intro hstopping
  by_contra hnot
  refine Lost.not_markerTaken ?_ (hmarker hstopping)
  have hnone := h.none_notMem hstopping
  have hcount := h.count
  rw [step_eq h.going, act, if_pos hstopping] at hroom ⊢
  rw [putItem_eq (putItem_aborted.mp hroom).2]
  have hfront : t.queue.queue ≠ [] →
      ∃ slot, (t.queue.queue ++ [none]).head? = some (some slot) := by
    intro hne
    cases hqueue : t.queue.queue with
    | nil => exact absurd hqueue hne
    | cons item queue =>
        cases item with
        | none => exact absurd (hqueue ▸ List.mem_cons_self) hnone
        | some slot => exact ⟨slot, rfl⟩
  refine ⟨h.going, h.cleared hstopping, fun hmem => ?_, ?_⟩
  · apply h.fresh (.inr (.inr hstopping))
    rw [← h.order]
    exact List.mem_append_left _ hmem
  · dsimp only
    cases hthread : t.thread with
    | notStarted => exact absurd hthread (h.started (.inr hstopping))
    | checking => exact .inl rfl
    | getting => exact .inr (.inr (.inr ⟨.inl rfl, hfront fun hnil => hnot ⟨hthread, hnil⟩⟩))
    | popping =>
        refine .inr (.inr (.inr ⟨.inr rfl, hfront fun hnil => ?_⟩))
        rw [hthread, hnil] at hcount
        cases hcount
    | processing slot => exact .inr (.inr (.inl ⟨slot, rfl⟩))
    | ended => exact .inr (.inl rfl)

/-- And if it fits, the thread is on its way to it. -/
theorem Inv.markerTaken (h : Inv t) (hfits : Fits t .stopPut) (hstopping : t.stopping = true) :
    MarkerTaken (t.step .stopPut) := by
  obtain ⟨hthread, hempty⟩ := hfits hstopping
  refine ⟨2, fun es hes => Due.run (k := 2) ?_ hes⟩
  rw [step_eq h.going, act, if_pos hstopping, putItem_eq ?_]
  · exact ⟨hthread, by simp [hempty], Nat.succ_pos _⟩
  · show t.queue.queue.length < t.queue.capacity
    rw [h.capacity, hempty]
    decide

theorem Inv.good_iff (h : Inv t) (e : CaptureEvent) : Good t e ↔ Fits t e := by
  constructor
  · intro hgood
    cases e with
    | stopPut => exact h.fits_stopPut hgood.room (hgood.marker rfl)
    | callbackPut slot =>
        intro hslot _
        have hroom := hgood.room
        rw [step_eq h.going, act, if_pos hslot] at hroom
        rw [← h.capacity]
        exact (putItem_aborted.mp hroom).2
    | start => trivial
    | stop => trivial
    | callbackGet => trivial
    | encoder => trivial
  · intro hfits
    have hstep := h.step hfits
    refine ⟨hstep.going, ?_, ?_⟩
    · rw [← hstep.order]
      exact List.prefix_append _ _
    · rintro rfl hstopping
      exact h.markerTaken hfits hstopping

/-- **The capture queue, exactly**: in every interleaving of the callbacks, the encoder
thread, `Start` and `Stop`, no `Put` aborts, buffers are taken in their order and the empty
buffer is taken in the end, if and only if each `Put` comes when it fits. -/
theorem capture_good_iff (es : List CaptureEvent) :
    Along step Good {} es ↔ Along step Fits {} es :=
  along_congr (I := Inv) (A := fun _ _ => True) (fun _ e h _ => h.good_iff e)
    (fun _ _ h _ hfits => h.step hfits) inv_init (along_of_forall fun _ _ _ => trivial)

-- a stop that finds the thread at the empty queue, with a buffer put after it
example : Along step Fits {} [.callbackGet, .callbackPut 0, .start, .encoder, .encoder, .encoder,
    .encoder, .encoder, .callbackGet, .stop, .stopPut, .callbackPut 1, .encoder, .encoder] := by
  decide

/-- Sound from before the start fills the queue, and there is no place for `Stop`. -/
theorem capture_good_fails :
    ¬ Along step Good {} ([.callbackGet, .callbackPut 0, .callbackGet, .callbackPut 1,
      .callbackGet, .callbackPut 2, .callbackGet, .callbackPut 3, .callbackGet, .callbackPut 4,
      .callbackGet, .callbackPut 5, .callbackGet, .callbackPut 6, .callbackGet, .callbackPut 7,
      .callbackGet, .callbackPut 8, .callbackGet, .callbackPut 9, .start, .stop] ++
        [.stopPut]) := by
  intro h
  have hlast := (along_append.mp h).2.1.room
  exact absurd hlast (by decide)

end OpusEncoder

end Tgvoip
