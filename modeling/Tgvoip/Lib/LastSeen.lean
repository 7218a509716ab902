import Mathlib.Logic.Function.Basic

/-!
# LastSeen — telling a repetition by the last tag of its key

A reader of tagged items keeps, for each key, the tag of the item it saw
last, and takes an item for a repetition when its tag is there already.
The table is then a function of what was seen (`Holds`), whether or not
repetitions are written to it.
-/

namespace LastSeen

variable {κ τ : Type*} [DecidableEq κ] {seen : List (κ × τ)} {table : κ → τ} {blank t : τ} {k : κ}

/-- The tag seen last with the key. -/
def lastTag (seen : List (κ × τ)) (k : κ) : Option τ := (seen.reverse.find? (·.1 == k)).map (·.2)

theorem lastTag_snoc (seen : List (κ × τ)) (k k' : κ) (t : τ) :
    lastTag (seen ++ [(k, t)]) k' = if k = k' then some t else lastTag seen k' := by
  rw [lastTag, List.reverse_append, List.reverse_singleton, List.singleton_append, List.find?_cons]
  by_cases hk : k = k'
  · simp [hk]
  · have hbeq : (k == k') = false := beq_eq_false_iff_ne.mpr hk
    rw [hbeq, if_neg hk, lastTag]

/-- The table has the last tag of every key, and is blank elsewhere. -/
def Holds (blank : τ) (table : κ → τ) (seen : List (κ × τ)) : Prop :=
  ∀ k, table k = (lastTag seen k).getD blank

theorem Holds.nil : Holds blank (fun _ : κ => blank) [] := fun _ => rfl

/-- An item that is written down. -/
theorem Holds.note (h : Holds blank table seen) (k : κ) (t : τ) :
    Holds blank (Function.update table k t) (seen ++ [(k, t)]) := by
  intro k'
  rw [lastTag_snoc]
  by_cases hk : k = k'
  · subst hk
    rw [Function.update_self, if_pos rfl, Option.getD_some]
  · rw [Function.update_of_ne (Ne.symm hk), if_neg hk]
    exact h k'

/-- An item the table has already. -/
theorem Holds.skip (h : Holds blank table seen) (hk : table k = t) :
    Holds blank table (seen ++ [(k, t)]) := by
  have hsame : Function.update table k t = table := by rw [← hk, Function.update_eq_self]
  exact hsame ▸ h.note k t

/-- The table tells a repetition of the last item, unless its tag is blank. -/
theorem Holds.eq_iff (h : Holds blank table seen) (ht : t ≠ blank) :
    table k = t ↔ lastTag seen k = some t := by
  rw [h k]
  cases lastTag seen k with
  | none => simp [ht.symm]
  | some t' => simp

end LastSeen
