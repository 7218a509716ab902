import Mathlib.Data.List.Basic
import Tgvoip.Lib.BitMask

/-!
# ByteReader — reading and writing little-endian byte strings

A `Reader` consumes a prefix of a byte string and returns a value, or
fails. `Decodes p bs a` is the law a codec is composed from: the reader
`p` takes exactly the bytes `bs` for the value `a`, whatever follows.
The rules below mirror the reader's own structure, so a round trip of a
record is the chain of the round trips of its fields. `Takes p size` is
the converse bound: a value read by `p` accounts for `size` bytes.
`Measured p size` is about arbitrary bytes: how many of them `p` asks for.
-/

namespace ByteReader

open BitMask

abbrev Bytes := List UInt8

abbrev Reader := StateT Bytes Option

variable {α β : Type}

/-! ## Writers -/

def le16 (x : UInt16) : Bytes := [x.toUInt8, (x >>> 8).toUInt8]

def le32 (x : UInt32) : Bytes :=
  [x.toUInt8, (x >>> 8).toUInt8, (x >>> 16).toUInt8, (x >>> 24).toUInt8]

@[simp] theorem length_le16 (x : UInt16) : (le16 x).length = 2 := rfl

@[simp] theorem length_le32 (x : UInt32) : (le32 x).length = 4 := rfl

/-! ## Readers -/

def u8 : Reader UInt8
  | [] => none
  | b :: bs => some (b, bs)

def u16 : Reader UInt16
  | a :: b :: bs => some (a.toUInt16 ||| (b.toUInt16 <<< 8), bs)
  | _ => none

def u32 : Reader UInt32
  | a :: b :: c :: d :: bs =>
      some (a.toUInt32 ||| (b.toUInt32 <<< 8) ||| (c.toUInt32 <<< 16) ||| (d.toUInt32 <<< 24), bs)
  | _ => none

/-- The next `n` bytes. -/
def bytes (n : ℕ) : Reader Bytes := fun bs =>
  if bs.length < n then none else some (bs.take n, bs.drop n)

/-- How many bytes are left. -/
def remaining : Reader ℕ := fun bs => some (bs.length, bs)

/-- `p` on a byte string of its own; what `p` leaves of it is dropped. -/
def within (part : Bytes) (p : Reader α) : Reader α := fun bs => (p.run part).map fun r => (r.1, bs)

/-- `p`, `n` times. -/
def times (p : Reader α) : ℕ → Reader (List α)
  | 0 => pure []
  | n + 1 => do
      let a ← p
      let as ← times p n
      pure (a :: as)

/-- The next bytes are `bs` and stand for `a`. -/
def Decodes (p : Reader α) (bs : Bytes) (a : α) : Prop :=
  ∀ rest, p.run (bs ++ rest) = some (a, rest)

theorem Decodes.pure (a : α) : Decodes (pure a) [] a := fun _ => rfl

theorem Decodes.bind {p : Reader α} {f : α → Reader β} {bs cs : Bytes} {a : α} {b : β}
    (hp : Decodes p bs a) (hf : Decodes (f a) cs b) : Decodes (p >>= f) (bs ++ cs) b := by
  intro rest
  rw [List.append_assoc, StateT.run_bind, hp]
  exact hf rest

theorem Decodes.map {p : Reader α} {bs : Bytes} {a : α} (f : α → β) (hp : Decodes p bs a) :
    Decodes (f <$> p) bs (f a) := by
  intro rest
  rw [StateT.run_map, hp]
  rfl

/-- The last field of a record: nothing follows in the code. -/
theorem Decodes.last {p : Reader α} {f : α → β} {bs : Bytes} {a : α} (hp : Decodes p bs a) :
    Decodes (p >>= fun a => Pure.pure (f a)) bs (f a) := by
  have := hp.bind (f := fun a => Pure.pure (f a)) (Decodes.pure (f a))
  rwa [List.append_nil] at this

theorem Decodes.run_nil {p : Reader α} {bs : Bytes} {a : α} (h : Decodes p bs a) :
    p.run bs = some (a, []) := by
  simpa using h []

/-- Reading goes on behind the bytes of the first field. -/
theorem Decodes.run_bind {p : Reader α} {f : α → Reader β} {bs : Bytes} {a : α}
    (hp : Decodes p bs a) (rest : Bytes) : (p >>= f).run (bs ++ rest) = (f a).run rest := by
  rw [StateT.run_bind, hp]
  rfl

/-! ## Round trips of the primitive fields -/

theorem decodes_u8 (x : UInt8) : Decodes u8 [x] x := fun _ => rfl

/-- What is shifted above `a` is added to it. -/
theorem or_shiftLeft_of_lt {a k : ℕ} (b : ℕ) (h : a < 2 ^ k) : a ||| b <<< k = b * 2 ^ k + a := by
  rw [Nat.lor_comm, ← Nat.shiftLeft_add_eq_or_of_lt h, Nat.shiftLeft_eq]

theorem bit_toUInt8 (x : UInt32) (i : ℕ) :
    bit x.toUInt8.toUInt32 i = (decide (i < 8) && bit x i) := by
  show (x.toNat % 2 ^ 8).testBit i = _
  rw [Nat.testBit_mod_two_pow, bit]

theorem decodes_u16 (x : UInt16) : Decodes u16 (le16 x) x := by
  have hx : x.toUInt8.toUInt16 ||| ((x >>> 8).toUInt8.toUInt16 <<< 8) = x := by
    apply UInt16.toNat_inj.mp
    show (x.toNat % 2 ^ 8) ||| (((x.toNat >>> 8) % 2 ^ 8) <<< 8 % 2 ^ 16) = x.toNat
    apply Nat.eq_of_testBit_eq
    intro i
    simp only [Nat.testBit_or, Nat.testBit_mod_two_pow, Nat.testBit_shiftLeft,
      Nat.testBit_shiftRight]
    have hhigh : 16 ≤ i → x.toNat.testBit i = false := fun hi =>
      Nat.testBit_lt_two_pow (Nat.lt_of_lt_of_le x.toNat_lt (Nat.pow_le_pow_right (by decide) hi))
    have h8 : 8 ≤ i → 8 + (i - 8) = i := fun h => by omega
    grind
  intro rest
  show some (_, rest) = _
  rw [hx]

theorem decodes_u32 (x : UInt32) : Decodes u32 (le32 x) x := by
  have hx : x.toUInt8.toUInt32 ||| ((x >>> 8).toUInt8.toUInt32 <<< 8) |||
      ((x >>> 16).toUInt8.toUInt32 <<< 16) ||| ((x >>> 24).toUInt8.toUInt32 <<< 24) = x := by
    apply ext
    intro i hi
    have e8 : (8 : UInt32).toNat = 8 := rfl
    have e16 : (16 : UInt32).toNat = 16 := rfl
    have e24 : (24 : UInt32).toNat = 24 := rfl
    rw [bit_or, bit_or, bit_or, bit_shiftLeft _ _ (by decide), bit_shiftLeft _ _ (by decide),
      bit_shiftLeft _ _ (by decide)]
    simp only [bit_toUInt8]
    rw [bit_shiftRight _ _ (by decide), bit_shiftRight _ _ (by decide),
      bit_shiftRight _ _ (by decide), e8, e16, e24]
    have h8 : 8 ≤ i → i - 8 + 8 = i := fun h => by omega
    have h16 : 16 ≤ i → i - 16 + 16 = i := fun h => by omega
    have h24 : 24 ≤ i → i - 24 + 24 = i := fun h => by omega
    grind
  intro rest
  show some (_, rest) = _
  rw [hx]

theorem decodes_bytes (bs : Bytes) : Decodes (bytes bs.length) bs bs := by
  intro rest
  show (if _ then none else _) = _
  rw [if_neg (by simp), List.take_left', List.drop_left'] <;> rfl

theorem decodes_times {p : Reader α} {enc : α → Bytes} (as : List α)
    (h : ∀ a ∈ as, Decodes p (enc a) a) : Decodes (times p as.length) (as.flatMap enc) as := by
  induction as with
  | nil => exact Decodes.pure []
  | cons a as ih =>
      exact (h a List.mem_cons_self).bind (ih fun b hb => h b (List.mem_cons_of_mem _ hb)).last

theorem run_within {p : Reader α} {part r : Bytes} {a : α} (h : p.run part = some (a, r))
    (bs : Bytes) : (within part p).run bs = some (a, bs) := by
  show (p.run part).map _ = _
  rw [h]
  rfl

/-! ## How much a successful read took -/

theorem run_bind_eq_some {p : Reader α} {f : α → Reader β} {bs r : Bytes} {b : β} :
    (p >>= f).run bs = some (b, r) ↔ ∃ a r', p.run bs = some (a, r') ∧ (f a).run r' = some (b, r) := by
  rw [StateT.run_bind]
  cases p.run bs with
  | none => simp
  | some x =>
      constructor
      · exact fun h => ⟨x.1, x.2, rfl, h⟩
      · rintro ⟨a, r', hx, h⟩
        cases hx
        exact h

theorem run_map_eq_some {p : Reader α} {f : α → β} {bs r : Bytes} {b : β} :
    (f <$> p).run bs = some (b, r) ↔ ∃ a, p.run bs = some (a, r) ∧ f a = b := by
  rw [StateT.run_map]
  cases p.run bs with
  | none => simp
  | some x =>
      constructor
      · intro h
        cases h
        exact ⟨x.1, rfl, rfl⟩
      · rintro ⟨a, hx, rfl⟩
        cases hx
        rfl

/-! ### The bytes in front -/

theorem of_run_u8 {bs r : Bytes} {b : UInt8} (h : u8.run bs = some (b, r)) : bs = b :: r := by
  match bs, h with
  | _ :: _, h =>
      cases h
      rfl

theorem of_run_u16 {bs r : Bytes} {x : UInt16} (h : u16.run bs = some (x, r)) :
    ∃ front, front.length = 2 ∧ bs = front ++ r := by
  match bs, h with
  | a :: b :: bs, h =>
      cases h
      exact ⟨[a, b], rfl, rfl⟩

theorem of_run_u32 {bs r : Bytes} {x : UInt32} (h : u32.run bs = some (x, r)) :
    ∃ front, front.length = 4 ∧ bs = front ++ r := by
  match bs, h with
  | a :: b :: c :: d :: bs, h =>
      cases h
      exact ⟨[a, b, c, d], rfl, rfl⟩

theorem of_run_bytes {n : ℕ} {bs a r : Bytes} (h : (bytes n).run bs = some (a, r)) :
    a.length = n ∧ bs = a ++ r := by
  simp only [StateT.run, bytes] at h
  split at h
  · cases h
  · cases h
    exact ⟨List.length_take_of_le (by omega), (List.take_append_drop n bs).symm⟩

/-- A value read by `p` accounts for `size` bytes. -/
def Takes (p : Reader α) (size : α → ℕ) : Prop :=
  ∀ bs a r, p.run bs = some (a, r) → bs.length = size a + r.length

theorem takes_u8 : Takes u8 fun _ => 1 := by
  intro bs a r h
  cases bs with
  | nil => cases h
  | cons b bs =>
      cases h
      rw [List.length_cons, Nat.add_comm]

theorem takes_u16 : Takes u16 fun _ => 2 := by
  intro bs a r h
  match bs, h with
  | x :: y :: bs, h =>
      cases h
      simp only [List.length_cons]
      omega

theorem takes_u32 : Takes u32 fun _ => 4 := by
  intro bs a r h
  match bs, h with
  | w :: x :: y :: z :: bs, h =>
      cases h
      simp only [List.length_cons]
      omega

theorem takes_bytes (n : ℕ) : Takes (bytes n) List.length := by
  intro bs a r h
  simp only [StateT.run, bytes] at h
  split at h
  · cases h
  · cases h
    simp only [List.length_take, List.length_drop]
    omega

/-- The same for the end of a reader that took `k` bytes before. -/
def TakesFrom (k : ℕ) (p : Reader α) (size : α → ℕ) : Prop :=
  ∀ bs a r, p.run bs = some (a, r) → k + bs.length = size a + r.length

section
variable {p : Reader α} {f : α → Reader β} {n : α → ℕ} {size : β → ℕ} {k : ℕ}

theorem TakesFrom.takes (h : TakesFrom 0 p n) : Takes p n := by
  intro bs a r hrun
  have hall := h bs a r hrun
  rwa [Nat.zero_add] at hall

theorem TakesFrom.pure {a : α} (h : n a = k) : TakesFrom k (pure a) n := by
  intro bs b r hrun
  cases hrun
  rw [h]

/-- **A record takes what its fields take**, one after the other. -/
theorem TakesFrom.bind (hp : Takes p n) (hf : ∀ a, TakesFrom (k + n a) (f a) size) :
    TakesFrom k (p >>= f) size := by
  intro bs b r hrun
  obtain ⟨a, r', ha, hb⟩ := run_bind_eq_some.mp hrun
  have hfirst := hp bs a r' ha
  have hrest := hf a r' b r hb
  omega

theorem Takes.map {g : α → β} (h : Takes p fun a => size (g a)) : Takes (g <$> p) size := by
  intro bs b r hrun
  obtain ⟨a, ha, rfl⟩ := run_map_eq_some.mp hrun
  exact h bs a r ha

end

theorem takes_times {p : Reader α} {size : α → ℕ} (hp : Takes p size) (n : ℕ) :
    Takes (times p n) fun as => (as.map size).sum := by
  induction n with
  | zero =>
      intro bs as r h
      cases h
      simp
  | succ n ih =>
      have h : TakesFrom 0 (times p (n + 1)) fun as => (as.map size).sum :=
        .bind hp fun _ => .bind ih fun _ => .pure (by simp)
      exact h.takes

/-- What is encoded has the size of its value. -/
theorem Decodes.length {p : Reader α} {size : α → ℕ} {bs : Bytes} {a : α} (h : Decodes p bs a)
    (hp : Takes p size) : bs.length = size a := hp bs a [] h.run_nil

/-- **How many values are read** in front of `rest`: as many as are encoded there. -/
theorem run_times_behind {p : Reader α} {enc : α → Bytes} {size : α → ℕ} (hp : Takes p size)
    (hpos : ∀ a, 0 < size a) {as : List α} (h : ∀ a ∈ as, Decodes p (enc a) a) (n : ℕ)
    (rest : Bytes) :
    (∃ bs, (times p n).run (as.flatMap enc ++ rest) = some (bs, rest)) ↔ n = as.length := by
  constructor
  · rintro ⟨bs, hrun⟩
    induction as generalizing n bs with
    | nil =>
        cases n with
        | zero => rfl
        | succ n =>
            -- a value more would be taken from the rest
            obtain ⟨a, r, ha, hrun⟩ := run_bind_eq_some.mp hrun
            obtain ⟨bs', r', hbs, hend⟩ := run_bind_eq_some.mp hrun
            cases hend
            have hfirst : rest.length = size a + r.length := hp _ _ _ ha
            have hmore := takes_times hp n _ _ _ hbs
            have := hpos a
            omega
    | cons a as ih =>
        have ha := h a List.mem_cons_self
        rw [List.flatMap_cons, List.append_assoc] at hrun
        cases n with
        | zero =>
            have hsize := (Decodes.length ha hp).symm ▸ hpos a
            have hall : enc a ++ (as.flatMap enc ++ rest) = rest :=
              congrArg Prod.snd (Option.some.inj hrun)
            have hlength := congrArg List.length hall
            simp only [List.length_append] at hlength
            omega
        | succ n =>
            rw [times, ha.run_bind] at hrun
            obtain ⟨bs', r', hbs, hend⟩ := run_bind_eq_some.mp hrun
            cases hend
            rw [List.length_cons, ih (fun b hb => h b (List.mem_cons_of_mem a hb)) n bs' hbs]
  · rintro rfl
    exact ⟨as, decodes_times as h rest⟩

/-! ## How many bytes a reader asks for -/

/-- The value at the front of the bytes, if there are enough of them. -/
def peek [Inhabited α] (p : Reader α) (bs : Bytes) : α := ((p.run bs).map Prod.fst).getD default

/-- `p` takes the first `size bs` bytes, and fails if there are fewer. -/
def Measured [Inhabited α] (p : Reader α) (size : Bytes → ℕ) : Prop :=
  ∀ bs, p.run bs = if size bs ≤ bs.length then some (peek p bs, bs.drop (size bs)) else none

section
variable [Inhabited α] {p : Reader α} {size : Bytes → ℕ}

theorem Measured.of_run (henough : ∀ bs, size bs ≤ bs.length →
      ∃ a, p.run bs = some (a, bs.drop (size bs)))
    (hshort : ∀ bs, bs.length < size bs → p.run bs = none) : Measured p size := by
  intro bs
  by_cases h : size bs ≤ bs.length
  · obtain ⟨a, ha⟩ := henough bs h
    simp [peek, ha, h]
  · rw [if_neg h, hshort bs (Nat.not_le.mp h)]

theorem measured_u8 : Measured u8 fun _ => 1 := by
  refine Measured.of_run (fun bs h => ?_) fun bs h => ?_
  · cases bs with
    | nil => simp at h
    | cons b bs => exact ⟨b, rfl⟩
  · cases bs with
    | nil => rfl
    | cons b bs => simp at h

theorem measured_u32 : Measured u32 fun _ => 4 := by
  refine Measured.of_run (fun bs h => ?_) fun bs h => ?_
  · match bs, h with
    | a :: b :: c :: d :: bs, _ => exact ⟨_, rfl⟩
  · match bs, h with
    | [], _ => rfl
    | [_], _ => rfl
    | [_, _], _ => rfl
    | [_, _, _], _ => rfl

theorem measured_bytes (n : ℕ) : Measured (bytes n) fun _ => n := by
  refine Measured.of_run (fun bs h => ⟨bs.take n, ?_⟩) fun bs h => ?_
  · exact if_neg (Nat.not_lt.mpr h)
  · exact if_pos h

end

end ByteReader
