import Tgvoip.Lib.Runs
import Mathlib.Data.List.Basic

/-!
# Fallible — steps that can fail, and their runs

A step `σ → ε → Except φ σ` either leads on or ends the run. `AlongOk` says
that a property holds at every step of a run that is taken, that is up to
the first failure; its rules are those of `Runs` for the state
`Except φ σ`. `Yields` is a triple for a single step: what its result has,
and when one of the failures cannot occur. The last section is about calls
in `EStateM`: their equations, and `Returns` for those that do not throw.
-/

namespace Fallible

open Runs

universe u v

variable {σ : Type u} {φ : Type v} {ε α : Type*}

theorem bind_eq_ok {α β : Type u} {x : Except φ α} {f : α → Except φ β} {b : β} :
    (x >>= f) = .ok b ↔ ∃ a, x = .ok a ∧ f a = .ok b := by
  cases x with
  | error e => exact ⟨fun h => (nomatch h), fun ⟨_, h, _⟩ => (nomatch h)⟩
  | ok a => exact ⟨fun h => ⟨a, rfl, h⟩, fun ⟨_, rfl, h⟩ => h⟩

theorem pure_eq_ok {a b : σ} : (pure a : Except φ σ) = .ok b ↔ a = b :=
  ⟨fun h => Except.ok.inj h, fun h => h ▸ rfl⟩

/-- What an evaluation shows of a result. -/
theorem eq_of_map_eq_ok {x : Except φ σ} {s : σ} {a : α} (f : σ → α) (h : x = .ok s)
    (hf : x.map f = .ok a) : f s = a := by
  subst h
  exact Except.ok.inj hf

theorem exists_of_map_eq_ok {x : Except φ σ} {f : σ → α} {a : α} (h : x.map f = .ok a) :
    ∃ s, x = .ok s ∧ f s = a := by
  cases x with
  | error e => cases h
  | ok s => exact ⟨s, rfl, Except.ok.inj h⟩

/-- A loop whose rounds all succeed, each as a step of a total one, succeeds
as the total one does. -/
theorem exists_foldlM {m : Type u → Type v} [Monad m] [LawfulMonad m] {R : σ → α → Prop}
    {f : σ → ε → m σ} {g : α → ε → α} {es : List ε}
    (h : ∀ s t, ∀ e ∈ es, R s t → ∃ s', f s e = pure s' ∧ R s' (g t e)) {s : σ} {t : α}
    (hr : R s t) : ∃ s', es.foldlM f s = pure s' ∧ R s' (es.foldl g t) := by
  induction es generalizing s t with
  | nil => exact ⟨s, rfl, hr⟩
  | cons e es ih =>
      obtain ⟨s', hs, hr'⟩ := h s t e List.mem_cons_self hr
      rw [List.foldlM_cons, hs, pure_bind]
      exact ih (fun s t e' he => h s t e' (List.mem_cons_of_mem e he)) hr'

/-- **The loop rule**, for an invariant that speaks of the rounds to come. -/
theorem foldlM_invariant_rest {I : List α → σ → Prop} {f : σ → α → Except φ σ} {as : List α}
    {s s' : σ} (keep : ∀ a as s s', I (a :: as) s → f s a = .ok s' → I as s') (hs : I as s)
    (h : as.foldlM f s = .ok s') : I [] s' := by
  induction as generalizing s with
  | nil => exact pure_eq_ok.mp h ▸ hs
  | cons a as ih =>
      rw [List.foldlM_cons] at h
      obtain ⟨t, ht, h⟩ := bind_eq_ok.mp h
      exact ih (keep a as s t hs ht) h

/-- The loop rule for what every round keeps. -/
theorem foldlM_invariant {I : σ → Prop} {f : σ → α → Except φ σ} {as : List α} {s s' : σ}
    (keep : ∀ s, ∀ a ∈ as, ∀ s', I s → f s a = .ok s' → I s') (hs : I s)
    (h : as.foldlM f s = .ok s') : I s' := by
  have hend : (∀ a ∈ ([] : List α), a ∈ as) ∧ I s' := by
    refine foldlM_invariant_rest (I := fun rest s => (∀ a ∈ rest, a ∈ as) ∧ I s) ?_
      ⟨fun _ ha => ha, hs⟩ h
    intro a rest s s' ⟨hsub, hs⟩ hstep
    exact ⟨fun b hb => hsub b (List.mem_cons_of_mem a hb),
      keep s a (hsub a List.mem_cons_self) s' hs hstep⟩
  exact hend.2

/-- The step on a run that may have failed already. -/
def tryStep (step : σ → ε → Except φ σ) (s : Except φ σ) (e : ε) : Except φ σ := s >>= (step · e)

/-- `P` holds at every step that is taken of the run over the events. -/
def AlongOk (step : σ → ε → Except φ σ) (P : σ → ε → Prop) (s : σ) (es : List ε) : Prop :=
  Along (tryStep step) (fun r e => ∀ t, r = .ok t → P t e) (.ok s) es

variable {step : σ → ε → Except φ σ} {P Q : σ → ε → Prop} {I : σ → Prop}

instance AlongOk.decidable [∀ s e, Decidable (P s e)] (s : σ) (es : List ε) :
    Decidable (AlongOk step P s es) :=
  have : ∀ (r : Except φ σ) (e : ε), Decidable (∀ t, r = .ok t → P t e)
    | .error _, _ => .isTrue fun _ h => nomatch h
    | .ok t, e => decidable_of_iff (P t e) ⟨fun h _ ht => Except.ok.inj ht ▸ h, fun h => h t rfl⟩
  inferInstanceAs (Decidable (Along _ _ _ es))

theorem alongOk_cons {s : σ} {e : ε} {es : List ε} :
    AlongOk step P s (e :: es) ↔ P s e ∧ ∀ s', step s e = .ok s' → AlongOk step P s' es := by
  have hfail : ∀ (x : φ) (es : List ε),
      Along (tryStep step) (fun r e => ∀ t, r = .ok t → P t e) (.error x) es := by
    intro x es
    induction es with
    | nil => trivial
    | cons e es ih => exact ⟨fun t ht => (nomatch ht), ih⟩
  rw [AlongOk, along_cons]
  refine and_congr ⟨fun h => h s rfl, fun h t ht => Except.ok.inj ht ▸ h⟩ ?_
  show Along _ _ (step s e) es ↔ _
  cases step s e with
  | error x => exact ⟨fun _ s' h => (nomatch h), fun _ => hfail x es⟩
  | ok t => exact ⟨fun h s' hs => Except.ok.inj hs ▸ h, fun h => h t rfl⟩

/-- **The strengthening rule** for runs that can fail. -/
theorem AlongOk.strengthen (keep : ∀ s e s', I s → P s e → step s e = .ok s' → I s')
    (imp : ∀ s e, I s → P s e → Q s e) {s : σ} {es : List ε} (hs : I s)
    (hrun : AlongOk step P s es) : AlongOk step Q s es := by
  refine Along.strengthen (I := fun r => ∀ t, r = .ok t → I t) ?_ ?_
    (fun t ht => Except.ok.inj ht ▸ hs) hrun
  · intro r e hr hp t ht
    obtain ⟨a, rfl, ha⟩ := bind_eq_ok.mp ht
    exact keep a e t (hr a rfl) (hp a rfl) ha
  · intro r e hr hp t ht
    exact imp t e (hr t ht) (hp t ht)

/-- **The equivalence rule** for runs that can fail: where two properties of a step agree
under an invariant that every step keeps, they agree along the run. -/
theorem alongOk_congr (iff : ∀ s e, I s → (P s e ↔ Q s e))
    (keep : ∀ s e s', I s → step s e = .ok s' → I s') {s : σ} {es : List ε} (hs : I s) :
    AlongOk step P s es ↔ AlongOk step Q s es := by
  constructor
  · intro hrun
    exact hrun.strengthen (fun s e s' hI _ => keep s e s' hI) (fun s e hI => (iff s e hI).mp) hs
  · intro hrun
    exact hrun.strengthen (fun s e s' hI _ => keep s e s' hI) (fun s e hI => (iff s e hI).mpr) hs

/-- The equivalence rule for a run whose steps are known to meet `A`. -/
theorem AlongOk.congr {A : σ → ε → Prop} (iff : ∀ s e, I s → A s e → (P s e ↔ Q s e))
    (keep : ∀ s e s', I s → A s e → step s e = .ok s' → I s') {s : σ} {es : List ε} (hs : I s)
    (hrun : AlongOk step A s es) : AlongOk step P s es ↔ AlongOk step Q s es := by
  induction es generalizing s with
  | nil => exact Iff.rfl
  | cons e es ih =>
      obtain ⟨hA, hrest⟩ := alongOk_cons.mp hrun
      rw [alongOk_cons, alongOk_cons, iff s e hs hA]
      refine and_congr_right fun _ => forall_congr' fun t => forall_congr' fun ht => ?_
      exact ih (keep s e t hs hA ht) (hrest t ht)

/-- What holds of every event in every state holds along every run. -/
theorem alongOk_of_forall {s : σ} {es : List ε} (h : ∀ e ∈ es, ∀ s, P s e) :
    AlongOk step P s es := by
  induction es generalizing s with
  | nil => trivial
  | cons e es ih =>
      exact alongOk_cons.mpr ⟨h e List.mem_cons_self s,
        fun _ _ => ih fun e he => h e (List.mem_cons_of_mem _ he)⟩

/-- **The invariant rule** for runs that can fail: what every admissible step
keeps holds at the end. -/
theorem AlongOk.invariant (keep : ∀ s e s', I s → P s e → step s e = .ok s' → I s') {s s' : σ}
    {es : List ε} (hs : I s) (hrun : AlongOk step P s es) (h : es.foldlM step s = .ok s') :
    I s' := by
  induction es generalizing s with
  | nil => exact pure_eq_ok.mp h ▸ hs
  | cons e es ih =>
      obtain ⟨he, hrest⟩ := alongOk_cons.mp hrun
      rw [List.foldlM_cons] at h
      obtain ⟨t, ht, h⟩ := bind_eq_ok.mp h
      exact ih (keep s e t hs he ht) (hrest t ht) h

/-- **The measure rule**: a run is no longer than what every step takes from. -/
theorem AlongOk.length_le {measure : σ → ℕ}
    (keep : ∀ s e s', I s → P s e → step s e = .ok s' → I s' ∧ measure s' < measure s)
    {s s' : σ} {es : List ε} (hs : I s) (hrun : AlongOk step P s es)
    (h : es.foldlM step s = .ok s') : es.length ≤ measure s := by
  induction es generalizing s with
  | nil => exact Nat.zero_le _
  | cons e es ih =>
      obtain ⟨he, hrest⟩ := alongOk_cons.mp hrun
      rw [List.foldlM_cons] at h
      obtain ⟨t, ht, h⟩ := bind_eq_ok.mp h
      obtain ⟨hkept, hlt⟩ := keep s e t hs he ht
      exact Nat.lt_of_le_of_lt (ih hkept (hrest t ht) h) hlt

/-- A run splits at every point. -/
theorem alongOk_append {s : σ} {es fs : List ε} :
    AlongOk step P s (es ++ fs) ↔
      AlongOk step P s es ∧ ∀ s', es.foldlM step s = .ok s' → AlongOk step P s' fs := by
  induction es generalizing s with
  | nil =>
      constructor
      · intro h
        exact ⟨trivial, fun s' hs' => pure_eq_ok.mp hs' ▸ h⟩
      · intro h
        exact h.2 s rfl
  | cons e es ih =>
      simp only [List.cons_append, alongOk_cons, ih, List.foldlM_cons]
      constructor
      · intro ⟨he, h⟩
        refine ⟨⟨he, fun t ht => (h t ht).1⟩, ?_⟩
        intro s' hs'
        obtain ⟨t, ht, hs'⟩ := bind_eq_ok.mp hs'
        exact (h t ht).2 s' hs'
      · intro ⟨⟨he, hes⟩, hfs⟩
        refine ⟨he, fun t ht => ⟨hes t ht, ?_⟩⟩
        intro s' hs'
        exact hfs s' (bind_eq_ok.mpr ⟨t, ht, hs'⟩)

/-- What holds along a run holds at its last step. -/
theorem AlongOk.last {s s' : σ} {es : List ε} {e : ε} (h : AlongOk step P s (es ++ [e]))
    (hrun : es.foldlM step s = .ok s') : P s' e :=
  (alongOk_cons.mp ((alongOk_append.mp h).2 s' hrun)).1

/-- A run can be continued by a step that is right wherever the run ends. -/
theorem AlongOk.snoc {s : σ} {es : List ε} {e : ε} (h : AlongOk step P s es)
    (hlast : ∀ s', es.foldlM step s = .ok s' → P s' e) : AlongOk step P s (es ++ [e]) := by
  induction es generalizing s with
  | nil => exact alongOk_cons.mpr ⟨hlast s rfl, fun _ _ => trivial⟩
  | cons d es ih =>
      obtain ⟨hd, hrest⟩ := alongOk_cons.mp h
      refine alongOk_cons.mpr ⟨hd, fun t ht => ih (hrest t ht) fun s' hs' => hlast s' ?_⟩
      rw [List.foldlM_cons, ht]
      exact hs'

theorem alongOk_and {s : σ} {es : List ε} :
    AlongOk step (fun s e => P s e ∧ Q s e) s es ↔ AlongOk step P s es ∧ AlongOk step Q s es := by
  induction es generalizing s with
  | nil => exact ⟨fun _ => ⟨trivial, trivial⟩, fun _ => trivial⟩
  | cons e es ih =>
      simp only [alongOk_cons, ih]
      exact ⟨fun ⟨⟨hp, hq⟩, h⟩ => ⟨⟨hp, fun t ht => (h t ht).1⟩, hq, fun t ht => (h t ht).2⟩,
        fun ⟨⟨hp, h⟩, hq, h'⟩ => ⟨⟨hp, hq⟩, fun t ht => ⟨h t ht, h' t ht⟩⟩⟩

/-! ## Results, and a failure that is avoided -/

/-- The result of `x` has `Q`, and under `A` the failure `bad` is avoided. -/
structure Yields (bad : φ) (A : Prop) (Q : σ → Prop) (x : Except φ σ) : Prop where
  ok : ∀ s, x = .ok s → Q s
  avoids : A → x ≠ .error bad

namespace Yields

variable {bad : φ} {A B : Prop} {P Q : σ → Prop} {x : Except φ σ} {s : σ}

theorem pure (h : Q s) : Yields bad A Q (Pure.pure s) where
  ok := fun _ hs => pure_eq_ok.mp hs ▸ h
  avoids := fun _ h => nomatch h

theorem error {e : φ} (h : A → e ≠ bad) : Yields bad A Q (.error e) where
  ok := fun _ h => nomatch h
  avoids := fun hA he => h hA (Except.error.inj he)

theorem mono (h : Yields bad B P x) (hA : A → B) (hQ : ∀ s, P s → Q s) : Yields bad A Q x where
  ok := fun s hs => hQ s (h.ok s hs)
  avoids := fun ha => h.avoids (hA ha)

theorem bind {τ : Type u} {P : τ → Prop} {x : Except φ τ} {f : τ → Except φ σ}
    (hx : Yields bad A P x) (hf : ∀ a, x = .ok a → P a → Yields bad A Q (f a)) :
    Yields bad A Q (x >>= f) := by
  cases x with
  | error e =>
      apply error
      intro hA he
      exact hx.avoids hA (congrArg Except.error he)
  | ok a => exact hf a rfl (hx.ok a rfl)

/-- The loop rule: what every round keeps, while it avoids the failure. -/
theorem foldlM {I : σ → Prop} {f : σ → α → Except φ σ} {as : List α}
    (keep : ∀ s, ∀ a ∈ as, I s → Yields bad A I (f s a)) (hs : I s) :
    Yields bad A I (as.foldlM f s) := by
  induction as generalizing s with
  | nil => exact pure hs
  | cons a as ih =>
      rw [List.foldlM_cons]
      apply bind (keep s a List.mem_cons_self hs)
      intro s' _ hs'
      exact ih (fun s b hb => keep s b (List.mem_cons_of_mem a hb)) hs'

end Yields

/-! ## Calls that keep their state when they throw -/

section
variable {φ σ α β : Type u} {s s' : σ} {m : EStateM φ σ α} {a : α} {fault : φ}

theorem bind_ok {f : α → EStateM φ σ β} (h : m s = .ok a s') : (m >>= f) s = f a s' := by
  show EStateM.bind m f s = _
  rw [EStateM.bind, h]

theorem bind_error {f : α → EStateM φ σ β} (h : m s = .error fault s') :
    (m >>= f) s = .error fault s' := by
  show EStateM.bind m f s = _
  rw [EStateM.bind, h]

theorem map_ok (f : α → β) (h : m s = .ok a s') : (f <$> m) s = .ok (f a) s' := by
  show EStateM.map f m s = _
  rw [EStateM.map, h]

theorem map_error (f : α → β) (h : m s = .error fault s') :
    (f <$> m) s = .error fault s' := by
  show EStateM.map f m s = _
  rw [EStateM.map, h]

/-- The call does not throw, and this holds of what it returns and leaves. -/
def Returns (m : EStateM φ σ α) (s : σ) (Q : α → σ → Prop) : Prop :=
  ∃ a s', m s = .ok a s' ∧ Q a s'

theorem Returns.pure {Q : α → σ → Prop} (h : Q a s) : Returns (pure a : EStateM φ σ α) s Q :=
  ⟨a, s, rfl, h⟩

theorem Returns.bind {f : α → EStateM φ σ β} {Q : β → σ → Prop}
    (h : Returns m s fun a s' => Returns (f a) s' Q) : Returns (m >>= f) s Q := by
  obtain ⟨a, s', hm, b, s'', hf, hq⟩ := h
  exact ⟨b, s'', (bind_ok hm).trans hf, hq⟩

/-- The rule for a call that is known. -/
theorem Returns.bind_ok {f : α → EStateM φ σ β} {Q : β → σ → Prop} (h : m s = .ok a s')
    (hf : Returns (f a) s' Q) : Returns (m >>= f) s Q :=
  .bind ⟨a, s', h, hf⟩

theorem Returns.mono {P Q : α → σ → Prop} (h : Returns m s P) (hpq : ∀ a s', P a s' → Q a s') :
    Returns m s Q := by
  obtain ⟨a, s', hm, hp⟩ := h
  exact ⟨a, s', hm, hpq a s' hp⟩

end

end Fallible
