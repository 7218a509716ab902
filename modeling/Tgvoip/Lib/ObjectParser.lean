import Tgvoip.Lib.ByteReader

/-!
# ObjectParser — parsing into an object under construction

A parser that fills the fields of an object as it goes can fail half way
and leave the object as it is then. `Parse σ` is that: a state of the
object and the bytes left, kept on failure too. A failure is a refusal
(`reject`: a checked read found too few bytes, or the contents are wrong)
or a `crash` (an unchecked read, an exception, a failed assertion).

`Safe` is the absence of crashes. `Uniform` says that the object never
steers the parser: whether it succeeds, fails or crashes, and on which
bytes it stops, is decided by the bytes alone. Both are `Closed`: shown of
the basic parsers, they hold of what is composed of them. `Needs` counts
the bytes without which a parser crashes, `AtMost` those it takes.
-/

namespace ObjectParser

open ByteReader

inductive Failure where
  | reject
  | crash
  deriving DecidableEq, Repr

abbrev Parse (σ : Type) := EStateM Failure (σ × Bytes)

variable {σ α β : Type}

/-- A checked read. -/
def tryRead (p : Reader α) : Parse σ α := fun s =>
  match p.run s.2 with
  | none => .error .reject s
  | some (a, rest) => .ok a (s.1, rest)

/-- A read that throws when bytes are missing. -/
def read (p : Reader α) : Parse σ α := fun s =>
  match p.run s.2 with
  | none => .error .crash s
  | some (a, rest) => .ok a (s.1, rest)

def reject : Parse σ α := fun s => .error .reject s

/-- Set fields of the object. -/
def edit (f : σ → σ) : Parse σ Unit := fun s => .ok () (f s.1, s.2)

/-- A checked read into a field. -/
def field (p : Reader α) (set : α → σ → σ) : Parse σ Unit := do
  let a ← tryRead p
  edit (set a)

def onlyIf (c : Bool) (m : Parse σ Unit) : Parse σ Unit := if c then m else pure ()

def refuseIf (c : Bool) : Parse σ Unit := if c then reject else pure ()

/-! ## Running -/

theorem bind_ok {m : Parse σ α} {f : α → Parse σ β} {s s' : σ × Bytes} {a : α}
    (h : m s = .ok a s') : (m >>= f) s = f a s' := by
  show EStateM.bind m f s = _
  rw [EStateM.bind, h]

theorem bind_error {m : Parse σ α} {f : α → Parse σ β} {s s' : σ × Bytes} {e : Failure}
    (h : m s = .error e s') : (m >>= f) s = .error e s' := by
  show EStateM.bind m f s = _
  rw [EStateM.bind, h]

@[simp] theorem pure_run (a : α) (s : σ × Bytes) : (pure a : Parse σ α) s = .ok a s := rfl

@[simp] theorem edit_bind (f : σ → σ) (k : Unit → Parse σ β) (o : σ) (bs : Bytes) :
    (edit f >>= k) (o, bs) = k () (f o, bs) := rfl

@[simp] theorem onlyIf_edit_bind (c : Bool) (f : σ → σ) (k : Unit → Parse σ β) (o : σ) (bs : Bytes) :
    (onlyIf c (edit f) >>= k) (o, bs) = k () (if c then f o else o, bs) := by
  cases c <;> rfl

@[simp] theorem reject_bind (k : α → Parse σ β) (s : σ × Bytes) :
    ((reject : Parse σ α) >>= k) s = .error .reject s := rfl

theorem tryRead_ok {p : Reader α} {o : σ} {bs rest : Bytes} {a : α}
    (h : p.run bs = some (a, rest)) : tryRead p (o, bs) = .ok a (o, rest) := by
  simp [tryRead, h]

/-- A checked read of encoded bytes goes on behind them. -/
theorem tryRead_bind {p : Reader α} {k : α → Parse σ β} {o : σ} {bs rest : Bytes} {a : α}
    (h : Decodes p bs a) : (tryRead p >>= k) (o, bs ++ rest) = k a (o, rest) :=
  bind_ok (tryRead_ok (h rest))

/-- A checked read of which only the end counts. -/
theorem tryRead_skip_iff {p : Reader α} {o : σ} {bs rest : Bytes} :
    (tryRead p >>= fun _ => (pure () : Parse σ Unit)) (o, bs) = .ok () (o, rest) ↔
      ∃ a, p.run bs = some (a, rest) := by
  cases h : p.run bs with
  | none =>
      have hfail : tryRead p (o, bs) = .error .reject (o, bs) := by simp [tryRead, h]
      rw [bind_error hfail]
      exact ⟨fun h => (nomatch h), fun ⟨_, h⟩ => (nomatch h)⟩
  | some r =>
      obtain ⟨a, r⟩ := r
      rw [bind_ok (tryRead_ok h), pure_run]
      constructor
      · intro hok
        cases hok
        exact ⟨a, rfl⟩
      · rintro ⟨a', ha'⟩
        cases ha'
        rfl

/-- `m` takes exactly the bytes `bs` and turns the object `o` into `o'`. -/
def Fills (m : Parse σ α) (bs : Bytes) (a : α) (o o' : σ) : Prop :=
  ∀ rest, m (o, bs ++ rest) = .ok a (o', rest)

section
variable {m : Parse σ α} {f : α → Parse σ β} {bs cs : Bytes} {a : α} {b : β} {o o' o'' : σ}

theorem Fills.bind (hm : Fills m bs a o o') (hf : Fills (f a) cs b o' o'') :
    Fills (m >>= f) (bs ++ cs) b o o'' := by
  intro rest
  rw [List.append_assoc, bind_ok (hm (cs ++ rest))]
  exact hf rest

theorem Fills.pure (a : α) (o : σ) : Fills (pure a) [] a o o := fun _ => rfl

theorem Fills.tryRead {p : Reader α} (h : Decodes p bs a) (o : σ) :
    Fills (tryRead p) bs a o o := fun rest => tryRead_ok (h rest)

theorem Fills.read {p : Reader α} (h : Decodes p bs a) (o : σ) :
    Fills (read p) bs a o o := by
  intro rest
  show ObjectParser.read p (o, bs ++ rest) = _
  simp [ObjectParser.read, h rest]

/-- Nothing is read behind the last part. -/
theorem Fills.last (hm : Fills m bs a o o') (g : α → β) :
    Fills (m >>= fun a => Pure.pure (g a)) bs (g a) o o' := by
  have hlast := hm.bind (f := fun a => Pure.pure (g a)) (Fills.pure (g a) o')
  rwa [List.append_nil] at hlast

theorem Fills.field {p : Reader α} {g : α → σ → σ} (h : Decodes p bs a) (o : σ) :
    Fills (field p g) bs () o (g a o) := fun _ => tryRead_bind h

theorem Fills.edit_bind {g : σ → σ} {k : Unit → Parse σ β} (h : Fills (k ()) cs b (g o) o'') :
    Fills (edit g >>= k) cs b o o'' := fun rest => h rest

theorem Fills.accept_bind {c : Bool} {k : Unit → Parse σ β} (hc : c = false)
    (h : Fills (k ()) cs b o o'') : Fills (refuseIf c >>= k) cs b o o'' := by
  subst hc
  exact fun rest => h rest

theorem Fills.onlyIf_true {c : Bool} {m : Parse σ Unit} (hc : c = true) (h : Fills m bs () o o') :
    Fills (onlyIf c m) bs () o o' := by
  subst hc
  exact h

theorem Fills.onlyIf_false {c : Bool} {m : Parse σ Unit} (hc : c = false) :
    Fills (onlyIf c m) [] () o o := by
  subst hc
  exact fun _ => rfl

/-- The parser goes on behind the bytes it took. -/
theorem Fills.run_bind (hm : Fills m bs a o o') (rest : Bytes) :
    (m >>= f) (o, bs ++ rest) = f a (o', rest) := bind_ok (hm rest)

/-- A loop of checked reads into fields, one for each element. -/
theorem Fills.forM {ι : Type} {p : Reader α} {g : ι → α → σ → σ} {e : ι → Bytes} {v : ι → α}
    (is : List ι) (h : ∀ i ∈ is, Decodes p (e i) (v i)) (o : σ) :
    Fills (is.forM fun i => ObjectParser.field p (g i)) (is.flatMap e) () o
      (is.foldl (fun o i => g i (v i) o) o) := by
  induction is generalizing o with
  | nil => exact Fills.pure () o
  | cons i is ih =>
      rw [List.flatMap_cons, List.foldl_cons]
      exact (Fills.field (h i List.mem_cons_self) o).bind
        (ih (fun j hj => h j (List.mem_cons_of_mem _ hj)) _)

/-- Nothing follows: the object as the parser leaves it. -/
theorem Fills.run (h : Fills m bs a o o') : m (o, bs) = .ok a (o', []) := by
  simpa using h []

end

/-! ## Properties that sequencing keeps -/

/-- A property the checked parsers have, and sequencing keeps. -/
structure Closed (P : ∀ {α : Type}, Parse σ α → Prop) : Prop where
  pure : ∀ {α : Type} (a : α), P (pure a)
  reject : ∀ {α : Type}, P (reject : Parse σ α)
  edit : ∀ f : σ → σ, P (edit f)
  tryRead : ∀ {α : Type} (p : Reader α), P (tryRead p)
  bind : ∀ {α β : Type} {m : Parse σ α} {f : α → Parse σ β}, P m → (∀ a, P (f a)) → P (m >>= f)

section
variable {P : ∀ {α : Type}, Parse σ α → Prop}

theorem Closed.field (h : Closed P) (p : Reader α) (set : α → σ → σ) : P (field p set) :=
  h.bind (h.tryRead p) fun a => h.edit (set a)

theorem Closed.refuseIf (h : Closed P) (c : Bool) : P (refuseIf c) := by
  cases c
  · exact h.pure ()
  · exact h.reject

theorem Closed.onlyIf (h : Closed P) {m : Parse σ Unit} (c : Bool) (hm : P m) : P (onlyIf c m) := by
  cases c
  · exact h.pure ()
  · exact hm

theorem Closed.forM (h : Closed P) {ι : Type} {m : ι → Parse σ Unit} (is : List ι)
    (hm : ∀ i, P (m i)) : P (is.forM m) := by
  induction is with
  | nil => exact h.pure ()
  | cons i is ih => exact h.bind (hm i) fun _ => ih

end

/-- `m` never crashes. -/
def Safe (m : Parse σ α) : Prop := ∀ s s', m s ≠ .error .crash s'

theorem closed_safe : Closed (@Safe σ) where
  pure _ _ _ h := by cases h
  reject _ _ h := by cases h
  edit _ _ _ h := by cases h
  tryRead p s s' h := by
    simp only [tryRead] at h
    split at h <;> cases h
  bind {_ _ m f} hm hf s s' h := by
    cases hr : m s with
    | ok a t =>
        rw [bind_ok hr] at h
        exact hf a t s' h
    | error e t =>
        rw [bind_error hr] at h
        cases h
        exact hm s s' hr

/-- What a run shows of the bytes: the value and the bytes left, or the
failure. -/
def shape : EStateM.Result Failure (σ × Bytes) α → Except Failure (α × Bytes)
  | .ok a s => .ok (a, s.2)
  | .error e _ => .error e

/-- The object does not steer: the run's shape depends on the bytes only. -/
def Uniform (m : Parse σ α) : Prop := ∀ o o' bs, shape (m (o, bs)) = shape (m (o', bs))

theorem uniform_read (p : Reader α) : Uniform (read p : Parse σ α) := by
  intro o o' bs
  simp only [read]
  cases p.run bs <;> rfl

theorem Uniform.bind {m : Parse σ α} {f : α → Parse σ β} (hm : Uniform m)
    (hf : ∀ a, Uniform (f a)) : Uniform (m >>= f) := by
  intro o o' bs
  have h := hm o o' bs
  cases hr : m (o, bs) with
  | ok a t =>
      cases hr' : m (o', bs) with
      | ok a' t' =>
          obtain ⟨p, cs⟩ := t
          obtain ⟨p', cs'⟩ := t'
          simp only [hr, hr', shape, Except.ok.injEq, Prod.mk.injEq] at h
          obtain ⟨rfl, rfl⟩ := h
          rw [bind_ok hr, bind_ok hr']
          exact hf a p p' cs
      | error e' t' =>
          rw [hr, hr'] at h
          cases h
  | error e t =>
      cases hr' : m (o', bs) with
      | ok a' t' =>
          rw [hr, hr'] at h
          cases h
      | error e' t' =>
          rw [hr, hr'] at h
          cases h
          rw [bind_error hr, bind_error hr']
          rfl

/-- A uniform parser succeeds on the same bytes whatever the object. -/
theorem Uniform.ok_iff {m : Parse σ α} (h : Uniform m) (o o' : σ) (bs : Bytes) (a : α) :
    (∃ s, m (o, bs) = .ok a s) ↔ ∃ s, m (o', bs) = .ok a s := by
  have hsh := h o o' bs
  cases hr : m (o, bs) with
  | ok b t =>
      cases hr' : m (o', bs) with
      | ok b' t' =>
          simp only [hr, hr', shape, Except.ok.injEq, Prod.mk.injEq] at hsh
          simp [hsh.1]
      | error e' t' =>
          rw [hr, hr'] at hsh
          cases hsh
  | error e t =>
      cases hr' : m (o', bs) with
      | ok b' t' =>
          rw [hr, hr'] at hsh
          cases hsh
      | error e' t' => simp

theorem closed_uniform : Closed (@Uniform σ) where
  pure _ _ _ _ := rfl
  reject _ _ _ := rfl
  edit _ _ _ _ := rfl
  tryRead p o o' bs := by
    simp only [tryRead]
    cases p.run bs <;> rfl
  bind hm hf := hm.bind hf

/-! ## Two objects -/

/-- Where `m` succeeds on an object it does so on each related one, and leaves
them related. -/
def Coupled (R S : σ → σ → Prop) (m : Parse σ α) : Prop :=
  ∀ o p bs a o' rest, R o p → m (o, bs) = .ok a (o', rest) →
    ∃ p', m (p, bs) = .ok a (p', rest) ∧ S o' p'

section
variable {R S T : σ → σ → Prop} {m : Parse σ α} {f : α → Parse σ β}

theorem Coupled.pure (a : α) : Coupled R R (Pure.pure a : Parse σ α) := by
  intro o p bs b o' rest hR h
  cases h
  exact ⟨p, rfl, hR⟩

theorem Coupled.reject : Coupled R S (reject : Parse σ α) := by
  intro o p bs a o' rest _ h
  cases h

theorem Coupled.edit {g : σ → σ} (h : ∀ o p, R o p → S (g o) (g p)) : Coupled R S (edit g) := by
  intro o p bs a o' rest hR hrun
  cases hrun
  exact ⟨g p, rfl, h o p hR⟩

theorem Coupled.tryRead (p : Reader α) : Coupled R R (tryRead p) := by
  intro o o₂ bs a o' rest hR h
  unfold ObjectParser.tryRead at h ⊢
  dsimp only at h ⊢
  cases hr : p.run bs with
  | none =>
      rw [hr] at h
      cases h
  | some r =>
      rw [hr] at h
      cases h
      exact ⟨o₂, rfl, hR⟩

theorem Coupled.read (p : Reader α) : Coupled R R (read p) := by
  intro o o₂ bs a o' rest hR h
  unfold ObjectParser.read at h ⊢
  dsimp only at h ⊢
  cases hr : p.run bs with
  | none =>
      rw [hr] at h
      cases h
  | some r =>
      rw [hr] at h
      cases h
      exact ⟨o₂, rfl, hR⟩

theorem Coupled.bind (hm : Coupled R S m) (hf : ∀ a, Coupled S T (f a)) :
    Coupled R T (m >>= f) := by
  intro o p bs b o' rest hR h
  cases hr : m (o, bs) with
  | error e t =>
      rw [bind_error hr] at h
      cases h
  | ok a t =>
      obtain ⟨o₁, cs⟩ := t
      rw [bind_ok hr] at h
      obtain ⟨p₁, hp, hS⟩ := hm o p bs a o₁ cs hR hr
      rw [bind_ok hp]
      exact hf a o₁ p₁ cs b o' rest hS h

theorem Coupled.mono (hm : Coupled R S m) (h : ∀ o p, S o p → T o p) : Coupled R T m := by
  intro o p bs a o' rest hR hrun
  obtain ⟨p', hp, hS⟩ := hm o p bs a o' rest hR hrun
  exact ⟨p', hp, h o' p' hS⟩

theorem Coupled.field {p : Reader α} {set : α → σ → σ}
    (h : ∀ a o o₂, R o o₂ → S (set a o) (set a o₂)) : Coupled R S (field p set) :=
  (Coupled.tryRead p).bind fun a => .edit (h a)

theorem Coupled.refuseIf (c : Bool) : Coupled R R (refuseIf c : Parse σ Unit) := by
  cases c
  · exact .pure ()
  · exact .reject

/-- Both branches have to leave them related in the same way. -/
theorem Coupled.onlyIf {c : Bool} {m : Parse σ Unit} (hm : c = true → Coupled R S m)
    (h : c = false → ∀ o p, R o p → S o p) : Coupled R S (onlyIf c m) := by
  cases c
  · exact (Coupled.pure ()).mono (h rfl)
  · exact hm rfl

theorem Coupled.forM {ι : Type} {m : ι → Parse σ Unit} (is : List ι)
    (hm : ∀ i, Coupled R R (m i)) : Coupled R R (is.forM m) := by
  induction is with
  | nil => exact .pure ()
  | cons i is ih => exact (hm i).bind fun _ => ih

/-- A branch that leaves the objects as related as they were. -/
theorem Coupled.onlyIf_same (c : Bool) {m : Parse σ Unit} (hm : Coupled R R m) :
    Coupled R R (ObjectParser.onlyIf c m) :=
  .onlyIf (fun _ => hm) fun _ _ _ hR => hR

end

/-- The second object is what `g` makes of the first. -/
def Paired (g : σ → σ) (o p : σ) : Prop := p = g o

section
variable {g : σ → σ}

theorem Coupled.edit_paired {f : σ → σ} (h : ∀ o, f (g o) = g (f o)) :
    Coupled (Paired g) (Paired g) (ObjectParser.edit f) := by
  refine .edit ?_
  rintro o _ rfl
  exact h o

theorem Coupled.field_paired {p : Reader α} {set : α → σ → σ}
    (h : ∀ a o, set a (g o) = g (set a o)) : Coupled (Paired g) (Paired g) (ObjectParser.field p set) :=
  (Coupled.tryRead p).bind fun a => .edit_paired (h a)

end

/-! ## How many bytes a parser needs -/

/-- `m` crashes exactly on the byte strings shorter than they ask for
themselves. -/
def Needs (m : Parse σ α) (need : Bytes → ℕ) : Prop :=
  ∀ o bs, (∃ s, m (o, bs) = .error .crash s) ↔ bs.length < need bs

theorem Safe.needs {m : Parse σ α} (h : Safe m) : Needs m fun _ => 0 := fun o bs =>
  ⟨fun ⟨s, hs⟩ => absurd hs (h (o, bs) s), fun h => absurd h (Nat.not_lt_zero _)⟩

theorem Needs.of_eq {m : Parse σ α} {need need' : Bytes → ℕ} (h : Needs m need)
    (hn : ∀ bs, need bs = need' bs) : Needs m need' := by
  rwa [show need' = need from funext fun bs => (hn bs).symm]

theorem Needs.assoc {γ : Type} {m : Parse σ α} {g : α → Parse σ β} {f : β → Parse σ γ}
    {need : Bytes → ℕ} (h : Needs (m >>= fun a => g a >>= f) need) :
    Needs ((m >>= g) >>= f) need := by
  rwa [bind_assoc]

theorem Needs.edit_bind {g : σ → σ} {f : Unit → Parse σ α} {need : Bytes → ℕ}
    (h : Needs (f ()) need) : Needs (edit g >>= f) need := fun o bs => h (g o) bs

/-- Reading more: what the rest needs comes on top. -/
theorem Needs.read_bind [Inhabited α] {p : Reader α} {f : α → Parse σ β} {size : Bytes → ℕ}
    {need : α → Bytes → ℕ} (hp : Measured p size) (hf : ∀ a, Needs (f a) (need a)) :
    Needs (read p >>= f) fun bs => size bs + need (peek p bs) (bs.drop (size bs)) := by
  intro o bs
  show _ ↔ bs.length < size bs + need (peek p bs) (bs.drop (size bs))
  by_cases h : size bs ≤ bs.length
  · have hok : read p (o, bs) = .ok (peek p bs) (o, bs.drop (size bs)) := by
      simp [read, hp bs, h]
    have hdrop := hf (peek p bs) o (bs.drop (size bs))
    rw [List.length_drop] at hdrop
    rw [bind_ok hok, hdrop]
    omega
  · have herr : read p (o, bs) = .error .crash (o, bs) := by
      simp [read, hp bs, h]
    rw [bind_error herr]
    exact ⟨fun _ => by omega, fun _ => ⟨_, rfl⟩⟩

/-- What comes after a parser that cannot crash any more. -/
theorem Needs.bind_safe {m : Parse σ α} {f : α → Parse σ β} {need : Bytes → ℕ} (hm : Needs m need)
    (hf : ∀ a, Safe (f a)) : Needs (m >>= f) need := by
  intro o bs
  rw [← hm o bs]
  cases hr : m (o, bs) with
  | ok a t =>
      rw [bind_ok hr]
      exact ⟨fun ⟨s, hs⟩ => absurd hs (hf a t s), fun ⟨s, hs⟩ => by cases hs⟩
  | error e t => rw [bind_error hr]; simp

theorem Needs.ite {c : Prop} [Decidable c] {m m' : Parse σ α} {need need' : Bytes → ℕ}
    (h : Needs m need) (h' : Needs m' need') :
    Needs (if c then m else m') fun bs => if c then need bs else need' bs := by
  by_cases hc : c
  · simpa only [hc, if_true] using h
  · simpa only [hc, if_false] using h'

theorem Needs.refuseIf_bind {c : Bool} {f : Unit → Parse σ β} {need : Bytes → ℕ}
    (h : Needs (f ()) need) :
    Needs (refuseIf c >>= f) fun bs => if c then 0 else need bs := by
  cases c with
  | true => exact closed_safe.reject.needs
  | false => exact h

theorem Needs.onlyIf_bind {c : Bool} {m : Parse σ Unit} {f : Unit → Parse σ β}
    {need need' : Bytes → ℕ} (h : Needs (m >>= f) need) (h' : Needs (f ()) need') :
    Needs (onlyIf c m >>= f) fun bs => if c then need bs else need' bs := by
  cases c with
  | true => exact h
  | false => exact h'

/-! ## How many bytes a parser can take -/

/-- A successful run of `m` takes at most `k` bytes. -/
def AtMost (m : Parse σ α) (k : ℕ) : Prop :=
  ∀ o o' bs rest a, m (o, bs) = .ok a (o', rest) → bs.length ≤ rest.length + k

theorem AtMost.pure (a : α) : AtMost (pure a : Parse σ α) 0 := by
  intro o o' bs rest b h
  cases h
  exact Nat.le_refl _

theorem AtMost.read {p : Reader α} {k : ℕ}
    (hp : ∀ bs a rest, p.run bs = some (a, rest) → bs.length ≤ rest.length + k) :
    AtMost (read p : Parse σ α) k := by
  intro o o' bs rest a h
  simp only [ObjectParser.read] at h
  cases hr : p.run bs with
  | none =>
      rw [hr] at h
      cases h
  | some r =>
      rw [hr] at h
      cases h
      exact hp bs r.1 r.2 hr

theorem AtMost.refuseIf (c : Bool) : AtMost (refuseIf c : Parse σ Unit) 0 := by
  cases c with
  | true =>
      intro o o' bs rest a h
      cases h
  | false => exact AtMost.pure ()

theorem AtMost.onlyIf {c : Bool} {m : Parse σ Unit} {k : ℕ} (h : AtMost m k) :
    AtMost (onlyIf c m) k := by
  cases c with
  | true => exact h
  | false =>
      intro o o' bs rest a hrun
      cases hrun
      exact Nat.le_add_right _ _

theorem AtMost.bind {m : Parse σ α} {f : α → Parse σ β} {k l : ℕ} (hm : AtMost m k)
    (hf : ∀ a, AtMost (f a) l) : AtMost (m >>= f) (k + l) := by
  intro o o' bs rest b h
  cases hr : m (o, bs) with
  | error e s =>
      rw [bind_error hr] at h
      cases h
  | ok a s =>
      rw [bind_ok hr] at h
      have hfirst := hm o s.1 bs s.2 a hr
      have hthen := hf a s.1 o' s.2 rest b h
      omega

end ObjectParser
