import Tgvoip.Tools.MessageLoop

/-!
# Wakeups — `Run` waits, and what wakes it

`Run` reads the head of the queue under one mutex and waits with another,
and `Post` holds neither when it signals. A signal that comes between the
two is lost: `pthread_cond_signal` wakes a thread that waits, and remembers
nothing. (The event that stands for the condition on Windows is remembered
until the next wait.) And what is left to wait is added to the time as it is
when the wait begins, not as it was when the head was read.

`Prompt` is what has to hold of a step for `Run` not to sleep on work.
-/

namespace Tgvoip.MessageLoop

variable {φ : Type*} (t : MessageLoop φ)

/-- **`Run` does not sleep on work**: where it waits, and each `Post` that has inserted
has signalled, nothing in the queue is due before the wait ends. -/
def Awake : Prop :=
  match t.phase with
  | .waiting none => t.unsignalled = 0 → t.queue = []
  | .waiting (some limit) => t.unsignalled = 0 → ∀ m ∈ t.queue, limit ≤ m.deliverAt
  | _ => True

/-- `Run` has read the head of the queue, and goes to wait: this long. -/
def waits : Option (Option Time) :=
  match t.phase with
  | .checked none => some none
  | .checked (some waitTimeout) => if waitTimeout > 0 then some (some waitTimeout) else none
  | _ => none

/-- The message is not due before a wait of `waitTimeout` from `start` on ends. -/
def NotBefore (start : Time) (waitTimeout : Option Time) (m : Message φ) : Prop :=
  ∃ w ∈ waitTimeout, start + w ≤ m.deliverAt

/-- The last signal that is owed does not come after `Run` has read the head and before
it waits, unless nothing is due before the wait ends; and a wait with a limit begins at
the time that was read. -/
def Prompt : LoopEvent φ → Prop
  | .signal => t.unsignalled = 1 →
      ∀ waitTimeout ∈ t.waits, ∀ m ∈ t.queue, NotBefore t.checkedAt waitTimeout m
  | .wait now => t.unsignalled = 0 → t.queue ≠ [] → t.waits.isSome → now ≤ t.checkedAt
  | _ => True

/-- What `Run` relies on from the reading of the head to the end of the wait. -/
def Seen : Prop :=
  match t.phase with
  | .checked _ => t.unsignalled = 0 →
      ∀ waitTimeout ∈ t.waits, ∀ m ∈ t.queue, NotBefore t.checkedAt waitTimeout m
  | .waiting limit => t.unsignalled = 0 → ∀ m ∈ t.queue, ∃ time ∈ limit, time ≤ m.deliverAt
  | _ => True

instance (start : Time) (waitTimeout : Option Time) (m : Message φ) :
    Decidable (NotBefore start waitTimeout m) :=
  inferInstanceAs (Decidable (∃ w ∈ waitTimeout, start + w ≤ m.deliverAt))

instance (t : MessageLoop φ) : ∀ e, Decidable (Prompt t e)
  | .signal => inferInstanceAs (Decidable (t.unsignalled = 1 →
      ∀ waitTimeout ∈ t.waits, ∀ m ∈ t.queue, NotBefore t.checkedAt waitTimeout m))
  | .wait now => inferInstanceAs
      (Decidable (t.unsignalled = 0 → t.queue ≠ [] → t.waits.isSome → now ≤ t.checkedAt))
  | .post .. | .cancel _ | .cancelSelf | .check _ | .wake | .take _ | .start _ | .finish =>
      .isTrue trivial

variable {t}

theorem seen_of_deliver {batch : List (Message φ)} {current : Option (Message φ)}
    (hphase : t.phase = .deliver batch current) : Seen t := by
  unfold Seen
  rw [hphase]
  trivial

theorem seen_of_woken (hphase : t.phase = .woken) : Seen t := by
  unfold Seen
  rw [hphase]
  trivial

theorem Seen.awake (h : Seen t) : Awake t := by
  unfold Awake
  unfold Seen at h
  split
  · rename_i hphase
    rw [hphase] at h
    intro hsignalled
    refine List.eq_nil_iff_forall_not_mem.mpr fun m hm => ?_
    obtain ⟨time, htime, -⟩ := h hsignalled m hm
    cases htime
  · rename_i limit hphase
    rw [hphase] at h
    intro hsignalled m hm
    obtain ⟨time, htime, hle⟩ := h hsignalled m hm
    cases htime
    exact hle
  · trivial

/-! ## The head of the queue -/

theorem head_le (h : Tidy t) {head : Message φ} (hhead : t.queue.head? = some head) :
    ∀ m ∈ t.queue, head.deliverAt ≤ m.deliverAt := by
  obtain ⟨rest, hqueue⟩ := List.head?_eq_some_iff.mp hhead
  intro m hm
  have hordered := h.ordered
  rw [hqueue] at hm hordered
  rcases List.mem_cons.mp hm with rfl | hm
  · exact le_refl _
  · exact ((List.pairwise_cons.mp hordered).1 m hm).key_le

/-- **No message is due** before the head of the queue is. -/
theorem notBefore_head (h : Tidy t) (now : Time) :
    ∀ m ∈ t.queue, NotBefore now (t.queue.head?.map (·.deliverAt - now)) m := by
  intro m hm
  cases hhead : t.queue.head? with
  | none =>
    rw [List.head?_eq_none_iff.mp hhead] at hm
    cases hm
  | some head =>
    refine ⟨head.deliverAt - now, rfl, ?_⟩
    rw [add_sub_cancel]
    exact head_le h hhead m hm

theorem waits_checked {waitTimeout w : Option Time} (hphase : t.phase = .checked waitTimeout)
    (hwaits : w ∈ t.waits) : w = waitTimeout := by
  unfold waits at hwaits
  rw [hphase] at hwaits
  cases waitTimeout with
  | none => cases hwaits; rfl
  | some waitTimeout =>
    dsimp only at hwaits
    split_ifs at hwaits
    · cases hwaits
      rfl
    · cases hwaits

/-! ## The steps -/

theorem Seen.signal (h : Seen t) (he : Prompt t .signal) : Seen t.signal := by
  unfold MessageLoop.signal
  split_ifs with hsignalled
  · exact h
  · unfold Seen
    cases hphase : t.phase with
    | checked waitTimeout =>
      intro hnone w hw
      refine he (by dsimp only at hnone; omega) w ?_
      unfold waits at hw ⊢
      rw [hphase]
      exact hw
    | deliver batch current => trivial
    | waiting limit => trivial
    | woken => trivial

/-- What is inserted by another thread is to be signalled. -/
theorem Seen.post (now : Time) (func : Option φ) (delay interval : Time) (isCurrent : Bool) :
    Seen (t.post now func delay interval isCurrent) := by
  have hunsignalled : t.phase.current = none →
      (t.post now func delay interval isCurrent).unsignalled = t.unsignalled + 1 := by
    intro hcurrent
    unfold MessageLoop.post
    simp [hcurrent]
  unfold Seen
  show match t.phase with
    | .checked _ => _
    | .waiting limit => _
    | _ => True
  cases hphase : t.phase with
  | checked waitTimeout =>
    intro hnone
    rw [hunsignalled (by rw [hphase]; rfl)] at hnone
    cases hnone
  | waiting limit =>
    intro hnone
    rw [hunsignalled (by rw [hphase]; rfl)] at hnone
    cases hnone
  | deliver batch current => trivial
  | woken => trivial

theorem Seen.cancel (h : Seen t) (id : UInt32) : Seen (t.cancel id) := by
  have hmem : ∀ m ∈ (t.cancel id).queue, m ∈ t.queue := fun m hm => (List.mem_filter.mp hm).1
  unfold Seen at h ⊢
  show match t.phase with
    | .checked _ => _
    | .waiting limit => _
    | _ => True
  cases hphase : t.phase with
  | checked waitTimeout =>
    rw [hphase] at h
    exact fun hsignalled w hw m hm => h hsignalled w hw m (hmem m hm)
  | waiting limit =>
    rw [hphase] at h
    exact fun hsignalled m hm => h hsignalled m (hmem m hm)
  | deliver batch current => trivial
  | woken => trivial

/-- `Run` goes to wait. -/
theorem Seen.wait (h : Seen t) {now : Time} (he : Prompt t (.wait now)) :
    Seen (t.step (.wait now)) := by
  unfold MessageLoop.step
  dsimp only
  split
  · rename_i hphase
    intro hsignalled m hm
    unfold Seen at h
    rw [hphase] at h
    obtain ⟨w, hw, -⟩ := h hsignalled none (by unfold waits; rw [hphase]; rfl) m hm
    cases hw
  · rename_i waitTimeout hphase
    by_cases hpos : waitTimeout > 0
    · have hwaits : t.waits = some (some waitTimeout) := by
        unfold waits
        rw [hphase]
        exact if_pos hpos
      rw [if_pos hpos]
      intro hsignalled m hm
      unfold Seen at h
      rw [hphase] at h
      obtain ⟨w, hw, hle⟩ := h hsignalled _ hwaits m hm
      cases hw
      have hnow := he hsignalled (List.ne_nil_of_mem hm) (by rw [hwaits]; rfl)
      exact ⟨_, rfl, (add_le_add_left hnow waitTimeout).trans hle⟩
    · rw [if_neg hpos]
      exact seen_of_woken rfl
  · exact h

theorem Seen.step (htidy : Tidy t) (h : Seen t) {e : LoopEvent φ} (he : Prompt t e) :
    Seen (t.step e) := by
  cases e with
  | post now func delay interval isCurrent => exact Seen.post now func delay interval isCurrent
  | signal => exact h.signal he
  | cancel id => exact h.cancel id
  | wait now => exact h.wait he
  | check now =>
    unfold MessageLoop.step
    dsimp only
    split
    · intro _ w hw m hm
      rw [waits_checked rfl hw]
      exact notBefore_head htidy now m hm
    · exact h
  | finish =>
    unfold MessageLoop.step
    dsimp only
    split
    · exact seen_of_deliver (reinsert_phase t _ _)
    · exact h
  | _ =>
    unfold MessageLoop.step
    dsimp only
    split
    all_goals first | exact h | exact seen_of_woken rfl | exact seen_of_deliver rfl

/-- **`Run` never sleeps on work**, in every run whose signals and waits are prompt. -/
theorem never_sleeps_on_work (events : List (LoopEvent φ))
    (hrun : Runs.Along step Prompt ({} : MessageLoop φ) events) :
    Awake (Runs.exec step ({} : MessageLoop φ) events) := by
  have hinv := hrun.invariant (I := fun t => Tidy t ∧ Seen t)
    (fun _ e h he => ⟨h.1.step e, h.2.step h.1 he⟩) ⟨tidy_init, trivial⟩
  exact hinv.2.awake

/-- A message is waited for, and one without a delay wakes `Run`. -/
def promptRun : List (LoopEvent Unit) :=
  [.post 1 (some ()) 3 0 false, .check 1, .signal, .wait 1, .post 2 (some ()) 0 0 false, .signal,
    .take 2, .start 2, .finish, .check 2, .wait 2]

theorem never_sleeps_on_work_prompt :
    Runs.Along step Prompt ({} : MessageLoop Unit) promptRun ∧
      Awake (Runs.exec step ({} : MessageLoop Unit) promptRun) := by
  have hrun : Runs.Along step Prompt ({} : MessageLoop Unit) promptRun := by decide +kernel
  exact ⟨hrun, never_sleeps_on_work promptRun hrun⟩

example : (Runs.exec step ({} : MessageLoop Unit) promptRun).phase = .waiting (some 4) := by
  decide +kernel

/-- **A signal is lost** between the reading of the head and the wait: `Run` sleeps
though there is a message it did not read. -/
theorem lost_signal {waitTimeout : Option Time} {m : Message φ}
    (hphase : t.phase = .checked waitTimeout) (hwaits : waitTimeout ∈ t.waits)
    (hlast : t.unsignalled = 1) (hm : m ∈ t.queue)
    (hdue : ¬ NotBefore t.checkedAt waitTimeout m) :
    ¬ Awake (t.signal.step (.wait t.checkedAt)) := by
  have hsignal : t.signal = { t with unsignalled := 0, phase := .checked waitTimeout } := by
    unfold MessageLoop.signal
    rw [if_neg (by rw [hlast]; exact one_ne_zero), hlast, hphase]
  rw [hsignal]
  intro hawake
  cases waitTimeout with
  | none =>
    have hnil : t.queue = [] := hawake rfl
    rw [hnil] at hm
    cases hm
  | some waitTimeout =>
    have hpos : waitTimeout > 0 := by
      unfold waits at hwaits
      rw [hphase] at hwaits
      by_contra hnot
      dsimp only at hwaits
      rw [if_neg hnot] at hwaits
      cases hwaits
    unfold MessageLoop.step at hawake
    dsimp only at hawake
    rw [if_pos hpos] at hawake
    exact hdue ⟨waitTimeout, rfl, hawake rfl m hm⟩

/-- `Run` finds an empty queue, a message without a delay is posted, and `Run` waits. -/
theorem never_sleeps_on_work_fails :
    ¬ ∀ events : List (LoopEvent Unit), Runs.Along step Ticks ({} : MessageLoop Unit) events →
      Awake (Runs.exec step ({} : MessageLoop Unit) events) := by
  intro h
  have hawake := h [.check 1, .post 2 (some ()) 0 0 false, .signal, .wait 2] (by decide +kernel)
  have hnil := hawake rfl
  cases hnil

end Tgvoip.MessageLoop
