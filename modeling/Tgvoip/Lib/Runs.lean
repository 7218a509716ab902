import Mathlib.Data.Nat.Notation
import Mathlib.Logic.Basic
import Mathlib.Tactic.SplitIfs

/-!
# Runs — executions of a step function

The one induction every run result of the development rests on. A
system is a step function `step : σ → ε → σ`; a run is a list of events
folded over it. `Along` says that a property of (state, event) pairs
holds at EVERY step of a run, which is how both a run's premises (the
events are admissible) and its conclusions (each step did the right
thing) are stated. `Along.invariant` carries a state invariant to the
end of the run, `Along.strengthen` turns premises into conclusions
under an invariant, `Along.countdown` counts the events until something is
reached.
-/

namespace Runs

variable {σ ε : Type*}

/-- The state at the end of the run over `es`. -/
def exec (step : σ → ε → σ) (s : σ) (es : List ε) : σ := es.foldl step s

@[simp] theorem exec_nil (step : σ → ε → σ) (s : σ) : exec step s [] = s := rfl

@[simp] theorem exec_cons (step : σ → ε → σ) (s : σ) (e : ε) (es : List ε) :
    exec step s (e :: es) = exec step (step s e) es := rfl

theorem exec_append (step : σ → ε → σ) (s : σ) (es fs : List ε) :
    exec step s (es ++ fs) = exec step (exec step s es) fs := by
  simp [exec, List.foldl_append]

/-- `P` holds at every step of the run over the events, from `s` on. -/
def Along (step : σ → ε → σ) (P : σ → ε → Prop) : σ → List ε → Prop
  | _, [] => True
  | s, e :: es => P s e ∧ Along step P (step s e) es

variable {step : σ → ε → σ} {P Q : σ → ε → Prop} {I : σ → Prop}

@[simp] theorem along_nil (s : σ) : Along step P s [] ↔ True := Iff.rfl

@[simp] theorem along_cons (s : σ) (e : ε) (es : List ε) :
    Along step P s (e :: es) ↔ P s e ∧ Along step P (step s e) es := Iff.rfl

instance Along.decidable [∀ s e, Decidable (P s e)] :
    ∀ (s : σ) (es : List ε), Decidable (Along step P s es)
  | _, [] => .isTrue trivial
  | s, e :: es =>
      have := Along.decidable (step s e) es
      inferInstanceAs (Decidable (P s e ∧ Along step P (step s e) es))

/-- **The invariant rule**: what holds at the start and is kept by every
admissible step holds at the end. -/
theorem Along.invariant (keep : ∀ s e, I s → P s e → I (step s e)) {s : σ} {es : List ε}
    (hs : I s) (hrun : Along step P s es) : I (exec step s es) := by
  induction es generalizing s with
  | nil => exact hs
  | cons e es ih => exact ih (keep s e hs hrun.1) hrun.2

/-- The invariant rule for steps that are all admissible. -/
theorem exec_invariant (keep : ∀ s e, I s → I (step s e)) {s : σ} {es : List ε} (hs : I s) :
    I (exec step s es) := by
  induction es generalizing s with
  | nil => exact hs
  | cons e es ih => exact ih (keep s e hs)

/-- **The strengthening rule**: under an invariant that the premises keep,
whatever follows from invariant and premise holds at every step. -/
theorem Along.strengthen (keep : ∀ s e, I s → P s e → I (step s e))
    (imp : ∀ s e, I s → P s e → Q s e) {s : σ} {es : List ε}
    (hs : I s) (hrun : Along step P s es) : Along step Q s es := by
  induction es generalizing s with
  | nil => trivial
  | cons e es ih => exact ⟨imp s e hs hrun.1, ih (keep s e hs hrun.1) hrun.2⟩

theorem Along.mono (imp : ∀ s e, P s e → Q s e) {s : σ} {es : List ε}
    (hrun : Along step P s es) : Along step Q s es :=
  hrun.strengthen (I := fun _ => True) (fun _ _ _ _ => trivial) (fun s e _ => imp s e) trivial

/-- **The equivalence rule**: where two properties of a step agree under an
invariant, and the steps that have them keep it, they agree along the run.
`A` is what the run is known to meet. -/
theorem along_congr {A : σ → ε → Prop} (iff : ∀ s e, I s → A s e → (P s e ↔ Q s e))
    (keep : ∀ s e, I s → A s e → Q s e → I (step s e)) {s : σ} {es : List ε}
    (hs : I s) (hrun : Along step A s es) : Along step P s es ↔ Along step Q s es := by
  induction es generalizing s with
  | nil => exact Iff.rfl
  | cons e es ih =>
      rw [along_cons, along_cons, iff s e hs hrun.1]
      exact and_congr_right fun hQ => ih (keep s e hs hrun.1 hQ) hrun.2

/-- **The countdown rule**: what each counted event brings one nearer, and the others keep, is
nearer by the number of counted events at the end. -/
theorem Along.countdown {I : ℕ → σ → Prop} {counted : ε → Bool}
    (keep : ∀ n s e, I n s → P s e → I (if counted e then n - 1 else n) (step s e))
    {n : ℕ} {s : σ} {es : List ε} (hs : I n s) (hrun : Along step P s es) :
    I (n - es.countP counted) (exec step s es) := by
  induction es generalizing n s with
  | nil => exact hs
  | cons e es ih =>
      have hnext := ih (keep n s e hs hrun.1) hrun.2
      rw [exec_cons, List.countP_cons]
      split_ifs at hnext ⊢ with hcounted
      · rwa [Nat.sub_sub, Nat.add_comm] at hnext
      · exact hnext

/-- A run splits at every point. -/
theorem along_append {s : σ} {es fs : List ε} :
    Along step P s (es ++ fs) ↔ Along step P s es ∧ Along step P (exec step s es) fs := by
  induction es generalizing s with
  | nil => exact ⟨fun h => ⟨trivial, h⟩, fun h => h.2⟩
  | cons e es ih => rw [List.cons_append, along_cons, along_cons, ih, and_assoc, exec_cons]

theorem along_and {s : σ} {es : List ε} :
    Along step (fun s e => P s e ∧ Q s e) s es ↔ Along step P s es ∧ Along step Q s es := by
  induction es generalizing s with
  | nil => simp
  | cons e es ih =>
      rw [along_cons, along_cons, along_cons, ih]
      exact and_and_and_comm

/-- What holds of every event in every state holds along every run. -/
theorem along_of_forall {s : σ} {es : List ε} (h : ∀ e ∈ es, ∀ s, P s e) : Along step P s es := by
  induction es generalizing s with
  | nil => trivial
  | cons e es ih =>
      exact ⟨h e List.mem_cons_self s, ih fun e he => h e (List.mem_cons_of_mem _ he)⟩

end Runs
