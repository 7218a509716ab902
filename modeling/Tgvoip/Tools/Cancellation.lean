import Tgvoip.Tools.MessageLoop

/-!
# Cancellation — what `Cancel` reaches

`Cancel` erases a message from the queue. `Run` moves the messages that are
due out of the queue before it calls their functions, and puts a repeating
one back after its function has returned: a message that is cancelled in
between is delivered all the same, or comes again.

`Settled` says that no such message is under way, and this is exactly when a
cancel is final.
-/

namespace Tgvoip.MessageLoop

variable {φ : Type*} (t : MessageLoop φ) (id : UInt32)

/-- The message is one of `id`, of the first `n` that were posted, and has a function. -/
def Concerns (n : ℕ) (m : Message φ) : Prop :=
  m.id = id ∧ m.occurrence < n ∧ m.func.isSome = true

instance (n : ℕ) (m : Message φ) : Decidable (Concerns id n m) :=
  inferInstanceAs (Decidable (_ ∧ _ ∧ _))

/-- **The cancel is final**: whatever follows, the function is not started any more. -/
def CancelFinal : Prop :=
  ∀ events, Runs.Along step Ticks (t.cancel id) events →
    ∀ s ∈ (Runs.exec step (t.cancel id) events).started.drop t.started.length,
      ¬ Concerns id t.posts.length s.message

/-- The message is not one of those that wait to be delivered in this iteration, and
the function that is running is not one that will be inserted again. -/
structure Settled : Prop where
  batch : ∀ m ∈ t.phase.batch, ¬ Concerns id t.posts.length m
  current : ∀ m ∈ t.phase.current, Concerns id t.posts.length m →
    t.cancelCurrent = true ∨ m.interval ≤ 0

variable {t id}

/-! ## A settled message -/

/-- No message that concerns is left, other than one whose function is running for
the last time. -/
structure Gone (id : UInt32) (n : ℕ) (t : MessageLoop φ) : Prop where
  queue : ∀ m ∈ t.queue, ¬ Concerns id n m
  batch : ∀ m ∈ t.phase.batch, ¬ Concerns id n m
  current : ∀ m ∈ t.phase.current, Concerns id n m → t.cancelCurrent = true ∨ m.interval ≤ 0
  posts : n ≤ t.posts.length

variable {n : ℕ} {t' : MessageLoop φ} {e : LoopEvent φ}

theorem Settled.gone (h : Settled t id) : Gone id t.posts.length (t.cancel id) where
  queue := by
    intro m hm hconcerns
    have hne : m.id ≠ id := by simpa [cancel] using (List.mem_filter.mp hm).2
    exact hne hconcerns.1
  batch := h.batch
  current := h.current
  posts := Nat.le_refl _

/-- What was inserted is no message that concerns. -/
theorem Gone.insert (h : Gone id n t) {m : Message φ} (hm : ¬ Concerns id n m) :
    ∀ x ∈ (t.insertMessageInternal m).queue, ¬ Concerns id n x := by
  intro x hx
  rcases Message.mem_insertInto.mp hx with rfl | hx
  · exact hm
  · exact h.queue x hx

theorem concerns_startedAt (m : Message φ) (now : Time) :
    Concerns id n (m.startedAt now) ↔ Concerns id n m := by
  unfold Message.startedAt
  split <;> rfl

theorem Gone.start {now : Time} (h : Gone id n t) :
    Gone id n (t.step (.start now)) ∧ ∃ new, (t.step (.start now)).started = t.started ++ new ∧
      ∀ s ∈ new, ¬ Concerns id n s.message := by
  unfold step
  dsimp only
  split
  · rename_i m batch hphase
    have hbatch := h.batch
    rw [hphase] at hbatch
    have hm : ¬ Concerns id n (m.startedAt now) := by
      rw [concerns_startedAt]
      exact hbatch m List.mem_cons_self
    refine ⟨⟨h.queue, fun x hx => hbatch x (List.mem_cons_of_mem m hx), ?_, h.posts⟩, _, rfl, ?_⟩
    · intro x hx hconcerns
      cases hx
      exact absurd hconcerns hm
    · intro s hs
      rw [List.mem_singleton.mp hs]
      exact hm
  · exact ⟨h, [], (List.append_nil _).symm, fun _ hs => absurd hs List.not_mem_nil⟩

theorem Gone.finish (h : Gone id n t) : Gone id n (t.step .finish) := by
  unfold step
  dsimp only
  split
  · rename_i batch m hphase
    have hbatch := h.batch
    have hcurrent := h.current
    rw [hphase] at hbatch hcurrent
    have hnone : ∀ x ∈ (none : Option (Message φ)), Concerns id n x →
        t.cancelCurrent = true ∨ x.interval ≤ 0 := fun _ hx => by cases hx
    unfold reinsert
    dsimp only
    split_ifs with hcancel hinterval
    · exact ⟨h.queue, hbatch, hnone, h.posts⟩
    · have hm : ¬ Concerns id n { m with deliverAt := m.deliverAt + m.interval } := by
        intro hconcerns
        rcases hcurrent m rfl hconcerns with hflag | hone
        · exact hcancel hflag
        · exact absurd hinterval (not_lt.mpr hone)
      exact ⟨h.insert hm, hbatch, hnone, h.posts⟩
    · exact ⟨h.queue, hbatch, hnone, h.posts⟩
  · exact h

/-- A phase of `Run` without messages. -/
theorem Gone.pause (h : Gone id n t) (hqueue : ∀ m ∈ t'.queue, m ∈ t.queue)
    (hphase : t'.phase.batch = [] ∧ t'.phase.current = none)
    (hposts : t'.posts = t.posts) : Gone id n t' where
  queue := fun m hm => h.queue m (hqueue m hm)
  batch := by
    rw [hphase.1]
    exact fun _ hm => absurd hm List.not_mem_nil
  current := by
    rw [hphase.2]
    exact fun _ hm => by cases hm
  posts := hposts ▸ h.posts

theorem Gone.step (h : Gone id n t) (e : LoopEvent φ) : Gone id n (t.step e) := by
  cases e with
  | post now func delay interval isCurrent =>
    refine ⟨h.insert ?_, h.batch, h.current, h.posts.trans ?_⟩
    · exact fun hconcerns => absurd hconcerns.2.1 (Nat.not_lt.mpr h.posts)
    · simp [post, MessageLoop.step]
  | signal =>
    show Gone id n t.signal
    obtain ⟨phase, unsignalled, hsignal, hbatch, hcurrent⟩ := t.signal_frame
    rw [hsignal]
    refine ⟨h.queue, ?_, ?_, h.posts⟩
    · rw [hbatch]
      exact h.batch
    · rw [hcurrent]
      exact h.current
  | cancel id' =>
    exact ⟨fun m hm => h.queue m (List.mem_filter.mp hm).1, h.batch, h.current, h.posts⟩
  | cancelSelf =>
    unfold MessageLoop.step
    dsimp only
    split
    · exact ⟨h.queue, h.batch, fun _ _ _ => .inl rfl, h.posts⟩
    · exact h
  | check now =>
    unfold MessageLoop.step
    dsimp only
    split
    · exact h.pause (fun _ hm => hm) ⟨rfl, rfl⟩ rfl
    · exact h
  | wait now =>
    unfold MessageLoop.step
    dsimp only
    split
    · exact h.pause (fun _ hm => hm) ⟨rfl, rfl⟩ rfl
    · refine h.pause (fun _ hm => hm) ?_ rfl
      dsimp only
      split_ifs
      · exact ⟨rfl, rfl⟩
      · exact ⟨rfl, rfl⟩
    · exact h
  | wake =>
    unfold MessageLoop.step
    dsimp only
    split
    · exact h.pause (fun _ hm => hm) ⟨rfl, rfl⟩ rfl
    · exact h
  | take now =>
    unfold MessageLoop.step
    dsimp only
    split
    · exact ⟨fun m hm => h.queue m (List.mem_filter.mp hm).1,
        fun m hm => h.queue m (List.mem_filter.mp hm).1, fun _ hm => (by cases hm), h.posts⟩
    · exact h
  | start now => exact h.start.1
  | finish => exact h.finish

theorem Gone.started (h : Gone id n t) (e : LoopEvent φ) :
    ∃ new, (t.step e).started = t.started ++ new ∧ ∀ s ∈ new, ¬ Concerns id n s.message := by
  by_cases hstart : ∃ now, e = .start now
  · obtain ⟨now, rfl⟩ := hstart
    exact h.start.2
  · exact ⟨[], by rw [started_step_of_ne t fun now he => hstart ⟨now, he⟩, List.append_nil],
      fun _ hs => absurd hs List.not_mem_nil⟩

theorem Gone.exec (h : Gone id n t) (events : List (LoopEvent φ)) :
    ∃ new, (Runs.exec MessageLoop.step t events).started = t.started ++ new ∧
      ∀ s ∈ new, ¬ Concerns id n s.message := by
  induction events generalizing t with
  | nil => exact ⟨[], (List.append_nil _).symm, fun _ hs => absurd hs List.not_mem_nil⟩
  | cons e events ih =>
    obtain ⟨new, hnew, hnone⟩ := h.started e
    obtain ⟨new', hnew', hnone'⟩ := ih (h.step e)
    refine ⟨new ++ new', ?_, ?_⟩
    · rw [Runs.exec_cons, hnew', hnew, List.append_assoc]
    · intro s hs
      rcases List.mem_append.mp hs with hs | hs
      · exact hnone s hs
      · exact hnone' s hs

/-- **A settled message** is not started any more. -/
theorem Settled.cancelFinal (h : Settled t id) : CancelFinal t id := by
  intro events _ s hs
  obtain ⟨new, hnew, hnone⟩ := h.gone.exec events
  rw [hnew, show (t.cancel id).started = t.started from rfl, List.drop_left] at hs
  exact hnone s hs

/-! ## A message that is under way -/

/-- `t'` can follow, at the time `now`. -/
def Follows (now : Time) (t t' : MessageLoop φ) : Prop :=
  ∃ events, Runs.Along MessageLoop.step Ticks t events ∧ Runs.exec MessageLoop.step t events = t' ∧
    t'.clock ≤ now

namespace Follows

variable {now : Time} {t'' : MessageLoop φ} {batch rest : List (Message φ)} {m : Message φ}

theorem refl (h : t.clock ≤ now) : Follows now t t := ⟨[], trivial, rfl, h⟩

theorem trans (h : Follows now t t') (h' : Follows now t' t'') : Follows now t t'' := by
  obtain ⟨events, hrun, rfl, -⟩ := h
  obtain ⟨events', hrun', rfl, hclock⟩ := h'
  exact ⟨events ++ events', Runs.along_append.mpr ⟨hrun, hrun'⟩, Runs.exec_append .., hclock⟩

theorem step {e : LoopEvent φ} (he : Ticks t e) (hclock : (t.step e).clock ≤ now) :
    Follows now t (t.step e) :=
  ⟨[e], ⟨he, trivial⟩, rfl, hclock⟩

/-- The function that is running returns; one that repeats is in the queue again. -/
theorem finish (hclock : t.clock ≤ now) (hphase : t.phase = .deliver batch (some m)) :
    ∃ t', Follows now t t' ∧ t'.phase = .deliver batch none ∧ (∀ x ∈ t.queue, x ∈ t'.queue) ∧
      (t.cancelCurrent = false → 0 < m.interval →
        ∃ stamp, { m with deliverAt := m.deliverAt + m.interval, stamp } ∈ t'.queue) := by
  have hstep : t.step .finish = t.reinsert batch m := by
    unfold MessageLoop.step
    rw [hphase]
  have hfollows : Follows now t (t.reinsert batch m) := by
    rw [← hstep]
    refine Follows.step trivial ?_
    rw [hstep]
    unfold reinsert
    dsimp only
    split_ifs <;> exact hclock
  refine ⟨_, hfollows, ?_⟩
  unfold reinsert
  dsimp only
  split_ifs with hcancel hinterval
  · exact ⟨rfl, fun _ hx => hx, fun hnot => absurd hnot (by simp [hcancel])⟩
  · refine ⟨rfl, fun x hx => Message.mem_insertInto.mpr (.inr hx), fun _ _ => ⟨t.inserted, ?_⟩⟩
    exact Message.mem_insertInto.mpr (.inl rfl)
  · exact ⟨rfl, fun _ hx => hx, fun _ hpos => absurd hpos hinterval⟩

/-- The messages in front are delivered. -/
theorem deliver (hnow : 0 < now) (hclock : t.clock ≤ now)
    (hphase : t.phase = .deliver (batch ++ rest) none) :
    ∃ t', Follows now t t' ∧ t'.phase = .deliver rest none ∧ ∀ x ∈ t.queue, x ∈ t'.queue := by
  induction batch generalizing t with
  | nil => exact ⟨t, refl hclock, hphase, fun _ hx => hx⟩
  | cons m batch ih =>
    have hstart : t.step (.start now) = { t with
        phase := .deliver (batch ++ rest) (some (m.startedAt now))
        cancelCurrent := false
        started := t.started ++
          [{ message := m.startedAt now, time := now, iteration := t.iteration }]
        clock := now } := by
      unfold MessageLoop.step
      rw [hphase]
      rfl
    have hfollows : Follows now t (t.step (.start now)) :=
      Follows.step ⟨hclock, hnow⟩ (by rw [hstart])
    have hclock' : (t.step (.start now)).clock ≤ now := by rw [hstart]
    have hphase' : (t.step (.start now)).phase =
        .deliver (batch ++ rest) (some (m.startedAt now)) := by rw [hstart]
    obtain ⟨t₁, h₁, hphase₁, hqueue₁, -⟩ := finish hclock' hphase'
    have hclock₁ : t₁.clock ≤ now := by
      obtain ⟨-, -, -, hclock₁⟩ := h₁
      exact hclock₁
    obtain ⟨t', h', hphase', hqueue'⟩ := ih hclock₁ hphase₁
    refine ⟨t', (hfollows.trans h₁).trans h', hphase', fun x hx => hqueue' x (hqueue₁ x ?_)⟩
    rw [hstart]
    exact hx

/-- However long `Run` waits, it wakes. -/
theorem step_wake (t : MessageLoop φ) (waitTimeout : Option Time) :
    (MessageLoop.step { t with phase := .checked waitTimeout, clock := now }
      (.wait now)).step .wake = { t with phase := .woken, clock := now } := by
  cases waitTimeout with
  | none => rfl
  | some w => by_cases hw : w > 0 <;> simp [MessageLoop.step, hw]

/-- A message that is due is taken out of the queue in the next iteration. -/
theorem take (hnow : 0 < now) (hclock : t.clock ≤ now) (hphase : t.phase = .deliver [] none)
    (hm : m ∈ t.queue) (hdue : m.deliverAt ≤ now) :
    ∃ t' batch, Follows now t t' ∧ t'.phase = .deliver batch none ∧ m ∈ batch := by
  let waitTimeout := t.queue.head?.map (·.deliverAt - now)
  let read : MessageLoop φ := { t with clock := now, checkedAt := now }
  let checked : MessageLoop φ := { read with phase := .checked waitTimeout, clock := now }
  let woken : MessageLoop φ := { read with phase := .woken, clock := now }
  have hcheck : Follows now t checked := by
    have hstep : t.step (.check now) = checked := by
      unfold MessageLoop.step
      rw [hphase]
    rw [← hstep]
    exact Follows.step ⟨hclock, hnow⟩ (by rw [hstep])
  have hwait : Follows now checked woken :=
    ⟨[.wait now, .wake], ⟨⟨le_refl now, hnow⟩, trivial, trivial⟩, step_wake read waitTimeout,
      le_refl now⟩
  have htake : Follows now woken (woken.step (.take now)) :=
    Follows.step ⟨le_refl now, hnow⟩ (le_refl now)
  have hmem : m ∈ t.queue.filter (·.due now) := by
    refine List.mem_filter.mpr ⟨hm, ?_⟩
    simp [Message.due, hdue]
  exact ⟨_, _, (hcheck.trans hwait).trans htake, rfl, hmem⟩

end Follows

/-- A message that will be delivered is started. -/
theorem not_cancelFinal {now : Time} {m : Message φ} {batch : List (Message φ)} (hnow : 0 < now)
    (h : Follows now (t.cancel id) t') (hphase : t'.phase = .deliver batch none) (hm : m ∈ batch)
    (hconcerns : Concerns id t.posts.length m) : ¬ CancelFinal t id := by
  obtain ⟨pre, post, rfl⟩ := List.append_of_mem hm
  have hclock : t'.clock ≤ now := by
    obtain ⟨-, -, -, hclock⟩ := h
    exact hclock
  obtain ⟨front, hfront, hphase, -⟩ := Follows.deliver hnow hclock hphase
  obtain ⟨events, hrun, hend, hclock⟩ := h.trans hfront
  intro hfinal
  have hstart : front.step (.start now) = { front with
      phase := .deliver post (some (m.startedAt now))
      cancelCurrent := false
      started := front.started ++
        [{ message := m.startedAt now, time := now, iteration := front.iteration }]
      clock := now } := by
    unfold step
    rw [hphase]
  have hall : Runs.Along step Ticks (t.cancel id) (events ++ [.start now]) :=
    Runs.along_append.mpr ⟨hrun, by rw [hend]; exact ⟨⟨hclock, hnow⟩, trivial⟩⟩
  have hexec : Runs.exec step (t.cancel id) (events ++ [.start now]) = front.step (.start now) := by
    rw [Runs.exec_append, hend]
    rfl
  obtain ⟨more, hmore⟩ := started_exec (t.cancel id) events
  rw [hend] at hmore
  refine hfinal _ hall ⟨m.startedAt now, now, front.iteration⟩ ?_
    ((concerns_startedAt m now).mpr hconcerns)
  rw [hexec, hstart, ← hmore]
  show _ ∈ (t.started ++ more ++ _).drop t.started.length
  rw [List.append_assoc, List.drop_left]
  exact List.mem_append_right _ List.mem_cons_self

/-- **When a cancel is final**, in every state that is reached. -/
theorem cancel_final_iff (before : List (LoopEvent φ)) (id : UInt32) :
    CancelFinal (Runs.exec step ({} : MessageLoop φ) before) id ↔
      Settled (Runs.exec step ({} : MessageLoop φ) before) id := by
  generalize Runs.exec step ({} : MessageLoop φ) before = t
  refine ⟨fun hfinal => ⟨?_, ?_⟩, Settled.cancelFinal⟩
  · intro m hm hconcerns
    let now : Time := max t.clock 1
    have hnow : 0 < now := lt_max_of_lt_right one_pos
    have hclock : (t.cancel id).clock ≤ now := le_max_left _ _
    cases hphase : t.phase with
    | deliver batch current =>
      rw [hphase] at hm
      cases current with
      | none =>
        exact not_cancelFinal hnow (.refl hclock) (hphase : (t.cancel id).phase = _) hm hconcerns hfinal
      | some c =>
        obtain ⟨t', h, hphase', -, -⟩ :=
          Follows.finish (t := t.cancel id) hclock (hphase : (t.cancel id).phase = _)
        exact not_cancelFinal hnow h hphase' hm hconcerns hfinal
    | _ =>
      rw [hphase] at hm
      cases hm
  · intro m hm hconcerns
    by_contra hnot
    rw [not_or, Bool.not_eq_true, not_le] at hnot
    let now : Time := max (max t.clock 1) (m.deliverAt + m.interval)
    have hnow : 0 < now := lt_max_of_lt_left (lt_max_of_lt_right one_pos)
    have hclock : (t.cancel id).clock ≤ now := (le_max_left _ _).trans (le_max_left _ _)
    cases hphase : t.phase with
    | deliver batch current =>
      rw [hphase] at hm
      obtain rfl : current = some m := hm
      obtain ⟨t₁, h₁, hphase₁, -, hagain⟩ :=
        Follows.finish (t := t.cancel id) hclock (hphase : (t.cancel id).phase = _)
      obtain ⟨stamp, hstamp⟩ := hagain hnot.1 hnot.2
      have hclock₁ : t₁.clock ≤ now := by
        obtain ⟨-, -, -, hclock₁⟩ := h₁
        exact hclock₁
      -- the rest of the batch is delivered, and the message is taken in the next iteration
      rw [← List.append_nil batch] at hphase₁
      obtain ⟨t₂, h₂, hphase₂, hqueue⟩ := Follows.deliver hnow hclock₁ hphase₁
      have hclock₂ : t₂.clock ≤ now := by
        obtain ⟨-, -, -, hclock₂⟩ := h₂
        exact hclock₂
      obtain ⟨t₃, batch', h₃, hphase₃, hmem⟩ :=
        Follows.take hnow hclock₂ hphase₂ (hqueue _ hstamp) (le_max_right _ _)
      exact not_cancelFinal hnow ((h₁.trans h₂).trans h₃) hphase₃ hmem hconcerns hfinal
    | _ =>
      rw [hphase] at hm
      cases hm

/-- Two messages without a delay are posted, and the function of the first
cancels the second. -/
def batchRun : List (LoopEvent Unit) :=
  [.post 1 (some ()) 0 0 false, .post 1 (some ()) 0 0 false, .check 1, .wait 1, .take 1, .start 1]

theorem cancel_final_fails :
    ¬ ∀ (before : List (LoopEvent Unit)) (id : UInt32),
      CancelFinal (Runs.exec step ({} : MessageLoop Unit) before) id := by
  intro h
  have hstarted : ∃ s ∈ (Runs.exec step ((Runs.exec step ({} : MessageLoop Unit) batchRun).cancel 2)
      [.finish, .start 1]).started.drop
        (Runs.exec step ({} : MessageLoop Unit) batchRun).started.length,
      Concerns 2 (Runs.exec step ({} : MessageLoop Unit) batchRun).posts.length s.message := by
    decide +kernel
  obtain ⟨s, hs, hconcerns⟩ := hstarted
  exact h batchRun 2 [.finish, .start 1] (by decide +kernel) s hs hconcerns

-- a repeating message that cancels itself by its id comes again
example : (Runs.exec step ((Runs.exec step ({} : MessageLoop Unit)
    [.post 1 (some ()) 0 1 false, .check 1, .wait 1, .take 1, .start 1]).cancel 1)
      [.finish, .check 2, .wait 2, .take 2, .start 2]).started.map (·.message.deliverAt) = [1, 2] := by
  decide +kernel

end Tgvoip.MessageLoop
