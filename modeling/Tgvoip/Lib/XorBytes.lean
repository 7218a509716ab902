import Tgvoip.Lib.ByteReader

/-!
# XorBytes — byte strings combined by exclusive or

`xorInto r p` XORs the bytes of `p` into the first bytes of `r`, the way
a loop over a fixed buffer does: what `p` has beyond `r` is ignored, what
`r` has beyond `p` stays. Each `xorInto · p` undoes itself and any two of
them commute, so a buffer that took a list of strings in (`total`) gives
one of them back when the others are taken in once more.
-/

namespace XorBytes

open ByteReader (Bytes)

def xorInto : Bytes → Bytes → Bytes
  | r :: rs, p :: ps => (r ^^^ p) :: xorInto rs ps
  | rs, [] => rs
  | [], _ :: _ => []

/-- One byte of a buffer. -/
def xorAt (r : Bytes) (i : ℕ) (b : UInt8) : Bytes := r.modify i (· ^^^ b)

@[simp] theorem xorInto_nil (r : Bytes) : xorInto r [] = r := by cases r <;> rfl

@[simp] theorem nil_xorInto (p : Bytes) : xorInto [] p = [] := by cases p <;> rfl

@[simp] theorem xorInto_cons (r p : UInt8) (rs ps : Bytes) :
    xorInto (r :: rs) (p :: ps) = (r ^^^ p) :: xorInto rs ps := rfl

@[simp] theorem length_xorInto (r p : Bytes) : (xorInto r p).length = r.length := by
  induction r generalizing p with
  | nil => simp
  | cons r rs ih => cases p <;> simp [ih]

@[simp] theorem length_xorAt (r : Bytes) (i : ℕ) (b : UInt8) :
    (xorAt r i b).length = r.length := by
  simp [xorAt]

theorem xor_xor_self (a b : UInt8) : a ^^^ b ^^^ b = a := by
  rw [UInt8.xor_assoc, UInt8.xor_self, UInt8.xor_zero]

theorem xorInto_self (r p : Bytes) : xorInto (xorInto r p) p = r := by
  induction r generalizing p with
  | nil => simp
  | cons r rs ih =>
      cases p with
      | nil => simp
      | cons p ps => rw [xorInto_cons, xorInto_cons, ih, xor_xor_self]

theorem xorInto_right_comm (r p q : Bytes) :
    xorInto (xorInto r p) q = xorInto (xorInto r q) p := by
  induction r generalizing p q with
  | nil => simp
  | cons r rs ih =>
      cases p with
      | nil => simp
      | cons p ps =>
          cases q with
          | nil => simp
          | cons q qs => simp [ih, UInt8.xor_assoc, UInt8.xor_comm p q]

@[simp] theorem xorInto_zeros (r : Bytes) (n : ℕ) : xorInto r (List.replicate n 0) = r := by
  induction r generalizing n with
  | nil => simp
  | cons r rs ih =>
      cases n with
      | zero => simp
      | succ n => simp [List.replicate_succ, ih]

theorem zeros_xorInto (p : Bytes) : xorInto (List.replicate p.length 0) p = p := by
  induction p with
  | nil => simp
  | cons p ps ih => simp [List.replicate_succ, ih]

/-- A string that is taken in part by part. -/
theorem xorInto_append (r p q : Bytes) :
    xorInto r (p ++ q) = xorInto (xorInto r p) (List.replicate p.length 0 ++ q) := by
  induction r generalizing p with
  | nil => simp
  | cons r rs ih =>
      cases p with
      | nil => simp
      | cons p ps => simp [List.replicate_succ, ih]

/-- A byte at `i` is a string of zeros with this byte behind them. -/
theorem xorAt_eq_xorInto (r : Bytes) (i : ℕ) (b : UInt8) :
    xorAt r i b = xorInto r (List.replicate i 0 ++ [b]) := by
  induction r generalizing i with
  | nil => simp [xorAt]
  | cons r rs ih =>
      cases i with
      | zero => simp [xorAt]
      | succ i => simpa [xorAt, List.replicate_succ] using ih i

/-! ## Lists of strings -/

/-- All of `ps` into one buffer. -/
def total (r : Bytes) (ps : List Bytes) : Bytes := ps.foldl xorInto r

@[simp] theorem total_nil (r : Bytes) : total r [] = r := rfl

@[simp] theorem total_cons (r p : Bytes) (ps : List Bytes) :
    total r (p :: ps) = total (xorInto r p) ps := rfl

@[simp] theorem length_total (r : Bytes) (ps : List Bytes) : (total r ps).length = r.length := by
  induction ps generalizing r with
  | nil => rfl
  | cons p ps ih => rw [total_cons, ih, length_xorInto]

theorem total_xorInto (r p : Bytes) (ps : List Bytes) :
    total (xorInto r p) ps = xorInto (total r ps) p := by
  induction ps generalizing r with
  | nil => rfl
  | cons q ps ih => rw [total_cons, xorInto_right_comm, ih, total_cons]

/-- The order does not matter. -/
theorem total_perm {ps qs : List Bytes} (h : ps.Perm qs) (r : Bytes) : total r ps = total r qs := by
  induction h generalizing r with
  | nil => rfl
  | cons p h ih => exact ih (xorInto r p)
  | swap p q ps => rw [total_cons, total_cons, total_cons, total_cons, xorInto_right_comm]
  | trans h h' ih ih' => exact (ih r).trans (ih' r)

/-- Taken in twice is not taken in. -/
theorem total_total (r : Bytes) (ps : List Bytes) : total (total r ps) ps = r := by
  induction ps generalizing r with
  | nil => rfl
  | cons p ps ih => rw [total_cons, total_cons, ← total_xorInto, xorInto_self, ih]

/-- **Recovery**: all strings into a buffer, then all but one of them (a
string of zeros in its place), leaves that one in the buffer. -/
theorem total_set_total (r : Bytes) {ps : List Bytes} {i : ℕ} (hi : i < ps.length) (n : ℕ) :
    total (total r ps) (ps.set i (List.replicate n 0)) = xorInto r ps[i] := by
  induction ps generalizing r i with
  | nil => nomatch hi
  | cons p ps ih =>
      cases i with
      | zero =>
          rw [List.set_cons_zero, total_cons, total_cons, xorInto_zeros, total_total]
          rfl
      | succ i =>
          -- the head is taken in twice
          rw [List.set_cons_succ, total_cons, total_cons, ← total_xorInto, xorInto_self]
          exact ih r (by simpa using hi)

/-! ## Keystreams -/

/-- `bs` under the keystream `ks` from its byte `pos` on. -/
def crypt (ks : ℕ → UInt8) (pos : ℕ) : Bytes → Bytes
  | [] => []
  | b :: bs => (b ^^^ ks pos) :: crypt ks (pos + 1) bs

variable (ks : ℕ → UInt8) (pos : ℕ)

@[simp] theorem crypt_nil : crypt ks pos [] = [] := rfl

@[simp] theorem crypt_cons (b : UInt8) (bs : Bytes) :
    crypt ks pos (b :: bs) = (b ^^^ ks pos) :: crypt ks (pos + 1) bs := rfl

@[simp] theorem length_crypt (bs : Bytes) : (crypt ks pos bs).length = bs.length := by
  induction bs generalizing pos with
  | nil => rfl
  | cons b bs ih => simp [ih]

theorem crypt_append (bs cs : Bytes) :
    crypt ks pos (bs ++ cs) = crypt ks pos bs ++ crypt ks (pos + bs.length) cs := by
  induction bs generalizing pos with
  | nil => rfl
  | cons b bs ih => simp [ih, Nat.add_assoc, Nat.add_comm 1]

/-- The same keystream undoes itself. -/
@[simp] theorem crypt_crypt (bs : Bytes) : crypt ks pos (crypt ks pos bs) = bs := by
  induction bs generalizing pos with
  | nil => rfl
  | cons b bs ih => rw [crypt_cons, crypt_cons, ih, xor_xor_self]

theorem getElem?_crypt (bs : Bytes) (i : ℕ) :
    (crypt ks pos bs)[i]? = bs[i]?.map (· ^^^ ks (pos + i)) := by
  induction bs generalizing pos i with
  | nil => rfl
  | cons b bs ih =>
      cases i with
      | zero => rfl
      | succ i => simp [ih, Nat.add_assoc, Nat.add_comm 1]

end XorBytes
