import Mathlib.Algebra.Order.Group.Defs
import Mathlib.Algebra.Order.Sub.Basic
import Mathlib.Order.BoundedOrder.Basic

/-!
# RecentPeak — the greatest value of the last span of time

A list of entries, each with the time it was made at. Those that are older
than a span are forgotten, and once forgotten they need never come back, as
long as time does not: forgetting twice is forgetting once, at the later
time (`recent_recent`).
-/

namespace RecentPeak

variable {ε T V : Type*}

section
variable [AddCommGroup T] [LinearOrder T]
variable (time : ε → T) (span : T)

/-- The entries that are not yet as old as the span. -/
def recent (now : T) (entries : List ε) : List ε :=
  entries.filter fun e => now - time e < span

variable {time span} {now later : T}

@[simp] theorem recent_nil : recent time span now [] = [] := rfl

theorem recent_cons (e : ε) (entries : List ε) :
    recent time span now (e :: entries) =
      if now - time e < span then e :: recent time span now entries
      else recent time span now entries := by
  simp only [recent, List.filter_cons, decide_eq_true_eq]

theorem recent_append (entries others : List ε) :
    recent time span now (entries ++ others) =
      recent time span now entries ++ recent time span now others :=
  List.filter_append ..

theorem recent_recent [IsOrderedAddMonoid T] (hle : now ≤ later) (entries : List ε) :
    recent time span later (recent time span now entries) = recent time span later entries := by
  rw [recent, recent, List.filter_filter]
  apply List.filter_congr
  intro e _
  have hearlier : later - time e < span → now - time e < span :=
    (sub_le_sub_right hle _).trans_lt
  simpa using hearlier

end

/-- The greatest value, or the least one that there is. -/
def peak [LinearOrder V] [OrderBot V] (value : ε → V) (entries : List ε) : V :=
  entries.foldr (fun e m => max (value e) m) ⊥

section
variable [LinearOrder V] [OrderBot V] {value : ε → V}

@[simp] theorem peak_nil : peak value [] = ⊥ := rfl

@[simp] theorem peak_cons (e : ε) (entries : List ε) :
    peak value (e :: entries) = max (value e) (peak value entries) := rfl

end

end RecentPeak
