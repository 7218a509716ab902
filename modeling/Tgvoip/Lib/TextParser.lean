import Mathlib.Data.Nat.Digits.Lemmas
import Tgvoip.Lib.ByteReader
import Tgvoip.Lib.Fallible

/-!
# TextParser — parsers that look ahead, and decimal texts

A `Parser` takes a text from the front and fails with an error. Where the
end of a value is told by what follows it, as with a number, a text stands
for a value only in front of some rests: `Reads p follow text a`. The rule
for sequences (`Reads.bind`) asks that what the second parser takes may
follow the first. `Progress` is the converse: what a parser takes is not
empty, and it does not run out of rounds.

`Gives P p` says that whatever `p` gives is as `P` says.

`decimal n` is the text of a natural number, `readDecimal` reads one
(`readDecimal_decimal`).
-/

namespace TextParser

open ByteReader (Bytes)
open Fallible

/-- What a parser does with a text. -/
abbrev Parser (ε α : Type) := StateT Bytes (Except ε) α

variable {ε α β : Type} {p : Parser ε α} {f : α → Parser ε β} {follow followed : Bytes → Prop}
  {text rest : Bytes} {a : α} {b : β}

/-! ## What a text stands for -/

/-- In front of what may follow, the text is taken for `a`. -/
def Reads (p : Parser ε α) (follow : Bytes → Prop) (text : Bytes) (a : α) : Prop :=
  ∀ rest, follow rest → p.run (text ++ rest) = .ok (a, rest)

/-- Anything may follow. -/
abbrev Always : Bytes → Prop := fun _ => True

theorem Reads.pure (a : α) : Reads (pure a : Parser ε α) follow [] a := fun _ _ => rfl

theorem Reads.bind {more : Bytes} (hp : Reads p follow text a) (hf : Reads (f a) followed more b)
    (hfollow : ∀ rest, followed rest → follow (more ++ rest)) :
    Reads (p >>= f) followed (text ++ more) b := by
  intro rest hrest
  rw [List.append_assoc, StateT.run_bind, hp _ (hfollow rest hrest)]
  exact hf rest hrest

/-- Nothing more is read. -/
theorem Reads.map (g : α → β) (hp : Reads p follow text a) :
    Reads (g <$> p) follow text (g a) := by
  intro rest hrest
  rw [StateT.run_map, hp rest hrest]
  rfl

theorem Reads.mono (hp : Reads p follow text a) (h : ∀ rest, followed rest → follow rest) :
    Reads p followed text a := fun rest hrest => hp rest (h rest hrest)

theorem run_bind_ok {s mid : Bytes} (h : p.run s = .ok (a, mid)) :
    (p >>= f).run s = (f a).run mid := by
  rw [StateT.run_bind, h]
  rfl

theorem run_bind_eq_ok {s : Bytes} : (p >>= f).run s = .ok (b, rest) ↔
    ∃ a mid, p.run s = .ok (a, mid) ∧ (f a).run mid = .ok (b, rest) := by
  rw [StateT.run_bind, bind_eq_ok]
  simp

theorem run_bind_eq_error {s : Bytes} {e : ε} : (p >>= f).run s = .error e ↔
    p.run s = .error e ∨ ∃ a mid, p.run s = .ok (a, mid) ∧ (f a).run mid = .error e := by
  rw [StateT.run_bind]
  cases h : p.run s with
  | error e' =>
      constructor
      · exact fun h' => .inl (congrArg _ (Except.error.inj h'))
      · rintro (h' | ⟨a, mid, h', -⟩)
        · exact congrArg _ (Except.error.inj h')
        · cases h'
  | ok r =>
      obtain ⟨a, mid⟩ := r
      constructor
      · exact fun h' => .inr ⟨a, mid, rfl, h'⟩
      · rintro (h' | ⟨a', mid', h', hf⟩)
        · cases h'
        · cases h'
          exact hf

/-! ## How far a parser gets -/

/-- On the text `s` the parser takes `k` bytes at least, unless it fails, and does not
fail with `endless`. -/
def Consumes (endless : ε) (k : ℕ) (p : Parser ε α) (s : Bytes) : Prop :=
  p.run s ≠ .error endless ∧ ∀ a rest, p.run s = .ok (a, rest) → rest.length + k ≤ s.length

variable {endless e : ε} {s : Bytes} {j k : ℕ}

theorem Consumes.pure (a : α) : Consumes endless 0 (pure a : Parser ε α) s := by
  refine ⟨nofun, fun a' rest h => ?_⟩
  cases h
  exact Nat.le_refl _

theorem Consumes.throw (h : e ≠ endless) : Consumes endless k (throw e : Parser ε α) s :=
  ⟨fun h' => h (Except.error.inj h'), nofun⟩

theorem Consumes.mono (hp : Consumes endless j p s) (h : k ≤ j) : Consumes endless k p s :=
  ⟨hp.1, fun a rest hrun => Nat.le_trans (Nat.add_le_add_left h _) (hp.2 a rest hrun)⟩

/-- What the first parser does not take is left to the second. -/
theorem Consumes.bind (hp : Consumes endless j p s)
    (hf : ∀ a mid, p.run s = .ok (a, mid) → mid.length + j ≤ s.length →
      Consumes endless (k - j) (f a) mid) :
    Consumes endless k (p >>= f) s := by
  constructor
  · intro h
    obtain h | ⟨a, mid, hpa, h⟩ := run_bind_eq_error.mp h
    · exact hp.1 h
    · exact (hf a mid hpa (hp.2 a mid hpa)).1 h
  · intro b rest h
    obtain ⟨a, mid, hpa, h⟩ := run_bind_eq_ok.mp h
    have hmid := hp.2 a mid hpa
    have hrest := (hf a mid hpa hmid).2 b rest h
    omega

theorem Consumes.ite {c : Prop} [Decidable c] {q : Parser ε α}
    (hp : c → Consumes endless k p s) (hq : ¬ c → Consumes endless k q s) :
    Consumes endless k (if c then p else q) s := by
  split
  · exact hp ‹c›
  · exact hq ‹¬ c›

/-! ## What a parser gives -/

variable {P : β → Prop} {Q : α → Prop}

/-- Whatever the parser gives is as `P` says. -/
def Gives (P : α → Prop) (p : Parser ε α) : Prop := ∀ s a rest, p.run s = .ok (a, rest) → P a

theorem Gives.pure {a : α} (h : Q a) : Gives Q (pure a : Parser ε α) := by
  intro s b rest hrun
  cases hrun
  exact h

theorem Gives.throw (e : ε) : Gives Q (throw e : Parser ε α) := nofun

theorem Gives.bind (hp : Gives Q p) (hf : ∀ a, Q a → Gives P (f a)) : Gives P (p >>= f) := by
  intro s b rest h
  obtain ⟨a, mid, ha, hb⟩ := run_bind_eq_ok.mp h
  exact hf a (hp s a mid ha) mid b rest hb

/-- What the first parser gives does not count. -/
theorem Gives.after (hf : ∀ a, Gives P (f a)) : Gives P (p >>= f) := by
  intro s b rest h
  obtain ⟨a, mid, -, hb⟩ := run_bind_eq_ok.mp h
  exact hf a mid b rest hb

theorem Gives.ite {c : Prop} [Decidable c] {q : Parser ε α} (hp : c → Gives Q p)
    (hq : ¬ c → Gives Q q) : Gives Q (if c then p else q) := by
  split
  · exact hp ‹c›
  · exact hq ‹¬ c›

/-! ## Decimal texts -/

def isDigit (c : UInt8) : Bool := 0x30 ≤ c && c ≤ 0x39

/-- The byte of a digit. -/
def digit (d : ℕ) : UInt8 := UInt8.ofNat (0x30 + d)

/-- The text of a number. -/
def decimal (n : ℕ) : Bytes := if n = 0 then [digit 0] else ((Nat.digits 10 n).map digit).reverse

/-- The number of some digits. -/
def readDecimal (text : Bytes) : ℕ := text.foldl (fun n c => 10 * n + (c.toNat - 0x30)) 0

theorem toNat_digit {d : ℕ} (h : d < 10) : (digit d).toNat = 0x30 + d := by
  rw [digit, UInt8.toNat_ofNat']
  omega

theorem isDigit_digit {d : ℕ} (h : d < 10) : isDigit (digit d) = true := by
  rw [isDigit, Bool.and_eq_true, decide_eq_true_eq, decide_eq_true_eq, UInt8.le_iff_toNat_le,
    UInt8.le_iff_toNat_le, toNat_digit h]
  exact ⟨Nat.le_add_right _ _, by show 48 + d ≤ 57; omega⟩

theorem readDecimal_reverse (ds : List ℕ) (h : ∀ d ∈ ds, d < 10) :
    readDecimal (ds.map digit).reverse = Nat.ofDigits 10 ds := by
  induction ds with
  | nil => rfl
  | cons d ds ih =>
      have hd := h d List.mem_cons_self
      have hds := ih fun d hd => h d (List.mem_cons_of_mem _ hd)
      rw [List.map_cons, List.reverse_cons, readDecimal, List.foldl_append]
      rw [readDecimal] at hds
      rw [hds, List.foldl_cons, List.foldl_nil, toNat_digit hd, Nat.ofDigits_cons]
      show 10 * _ + (48 + d - 48) = d + 10 * _
      omega

theorem digits_lt (n : ℕ) : ∀ d ∈ Nat.digits 10 n, d < 10 :=
  fun _ hd => Nat.digits_lt_base (by decide) hd

/-- **A number is read back.** -/
theorem readDecimal_decimal (n : ℕ) : readDecimal (decimal n) = n := by
  rw [decimal]
  by_cases h : n = 0
  · rw [if_pos h, h]
    rfl
  · rw [if_neg h, readDecimal_reverse _ (digits_lt n), Nat.ofDigits_digits]

theorem isDigit_decimal (n : ℕ) : ∀ c ∈ decimal n, isDigit c = true := by
  intro c hc
  rw [decimal] at hc
  split at hc
  · rw [List.mem_singleton.mp hc]
    rfl
  · obtain ⟨d, hd, rfl⟩ := List.mem_map.mp (List.mem_reverse.mp hc)
    exact isDigit_digit (digits_lt n d hd)

/-- The text starts with a digit, which is zero for zero only. -/
theorem decimal_eq_cons (n : ℕ) : ∃ c text, decimal n = c :: text ∧ isDigit c = true ∧
    (c = 0x30 → text = []) := by
  by_cases h : n = 0
  · exact ⟨0x30, [], by rw [decimal, if_pos h]; rfl, rfl, fun _ => rfl⟩
  · have hne : Nat.digits 10 n ≠ [] := Nat.digits_ne_nil_iff_ne_zero.mpr h
    have hlast := Nat.getLast_digit_ne_zero 10 h
    have hsplit := List.dropLast_append_getLast hne
    have hlt := digits_lt n _ (List.getLast_mem hne)
    refine ⟨digit ((Nat.digits 10 n).getLast hne), ((Nat.digits 10 n).dropLast.map digit).reverse,
      ?_, isDigit_digit hlt, ?_⟩
    · rw [decimal, if_neg h]
      conv_lhs => rw [← hsplit]
      rw [List.map_append, List.reverse_append]
      rfl
    · intro hzero
      have hnat := congrArg UInt8.toNat hzero
      rw [toNat_digit hlt] at hnat
      have : (Nat.digits 10 n).getLast hne = 0 := by
        have h48 : (0x30 : UInt8).toNat = 48 := rfl
        omega
      exact absurd this hlast

/-- The digits are taken, up to what follows. -/
theorem dropWhile_isDigit {text rest : Bytes} (h : ∀ c ∈ text, isDigit c = true)
    (hrest : ∀ c, rest.head? = some c → isDigit c = false) :
    (text ++ rest).dropWhile isDigit = rest ∧ (text ++ rest).takeWhile isDigit = text := by
  rw [List.dropWhile_append_of_pos h, List.takeWhile_append_of_pos h]
  cases rest with
  | nil => exact ⟨rfl, List.append_nil text⟩
  | cons c rest =>
      have hc := hrest c rfl
      rw [List.dropWhile_cons, List.takeWhile_cons, hc]
      exact ⟨rfl, List.append_nil text⟩

/-! ### Their length -/

theorem readDecimal_snoc (text : Bytes) (c : UInt8) :
    readDecimal (text ++ [c]) = 10 * readDecimal text + (c.toNat - 0x30) := by
  rw [readDecimal, List.foldl_append]
  rfl

theorem readDecimal_lt {text : Bytes} (h : ∀ c ∈ text, isDigit c = true) :
    readDecimal text < 10 ^ text.length := by
  induction text using List.reverseRecOn with
  | nil => exact Nat.one_pos
  | append_singleton text c ih =>
      have hc := h c (List.mem_append_right _ (List.mem_singleton_self c))
      have hlt := ih fun d hd => h d (List.mem_append_left _ hd)
      rw [isDigit, Bool.and_eq_true, decide_eq_true_eq, decide_eq_true_eq, UInt8.le_iff_toNat_le,
        UInt8.le_iff_toNat_le] at hc
      have hdigit : c.toNat ≤ 57 := hc.2
      rw [readDecimal_snoc, List.length_append, List.length_singleton, Nat.pow_succ]
      omega

theorem length_decimal_le {n k : ℕ} (hk : 0 < k) (h : n < 10 ^ k) : (decimal n).length ≤ k := by
  rw [decimal]
  split
  · exact hk
  · rw [List.length_reverse, List.length_map]
    exact (Nat.digits_length_le_iff (by decide) n).mpr h

end TextParser
