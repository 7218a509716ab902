import Mathlib.Control.Monad.Writer
import Mathlib.Data.List.Basic

/-!
# AccessLog — computations that note what they do

A computation gives a value and a log of what it did on the way: what it
read, what it wrote, which intermediate results it had. `Within P` says that
everything noted has `P`; its rules follow the computation's own structure.
The log of a loop is the logs of its rounds, one after the other.
-/

namespace AccessLog

variable {ε α β : Type}

abbrev Noted (ε α : Type) := Writer (List ε) α

def note (e : ε) : Noted ε Unit := tell [e]

def value (w : Noted ε α) : α := (WriterT.run w).run.1

def log (w : Noted ε α) : List ε := (WriterT.run w).run.2

@[simp] theorem value_pure (a : α) : value (pure a : Noted ε α) = a := rfl

@[simp] theorem log_pure (a : α) : log (pure a : Noted ε α) = [] := rfl

@[simp] theorem value_bind (w : Noted ε α) (f : α → Noted ε β) :
    value (w >>= f) = value (f (value w)) := rfl

@[simp] theorem log_bind (w : Noted ε α) (f : α → Noted ε β) :
    log (w >>= f) = log w ++ log (f (value w)) := rfl

@[simp] theorem log_note (e : ε) : log (note e) = [e] := rfl

@[simp] theorem log_forM (xs : List β) (f : β → Noted ε Unit) :
    log (xs.forM f) = xs.flatMap fun x => log (f x) := by
  induction xs with
  | nil => rfl
  | cons x xs ih =>
      show log (f x) ++ log (xs.forM f) = _
      rw [ih, List.flatMap_cons]

/-- Everything noted has the property. -/
def Within (P : ε → Prop) (w : Noted ε α) : Prop := ∀ e ∈ log w, P e

variable {P : ε → Prop}

theorem Within.pure (a : α) : Within P (pure a : Noted ε α) := by
  intro e he
  cases he

theorem within_note {e : ε} (h : P e) : Within P (note e) := by
  intro e' he
  rw [log_note, List.mem_singleton] at he
  exact he ▸ h

theorem Within.bind {w : Noted ε α} {f : α → Noted ε β} (hw : Within P w)
    (hf : Within P (f (value w))) : Within P (w >>= f) := by
  intro e he
  rw [log_bind, List.mem_append] at he
  exact he.elim (hw e) (hf e)

/-- One computation after another. -/
theorem Within.seq {w : Noted ε α} {v : Noted ε β} (hw : Within P w) (hv : Within P v) :
    Within P (w >>= fun _ => v) :=
  hw.bind hv

theorem within_forM {xs : List β} {f : β → Noted ε Unit} (h : ∀ x ∈ xs, Within P (f x)) :
    Within P (xs.forM f) := by
  intro e he
  rw [log_forM, List.mem_flatMap] at he
  obtain ⟨x, hx, he⟩ := he
  exact h x hx e he

end AccessLog
