import Tgvoip.Lib.LogField
import Tgvoip.Lib.ByteReader
import Mathlib.Dynamics.PeriodicPts.Defs
import Mathlib.NumberTheory.Divisors

/-!
# GF256 — the field of the block codec

`video/cm256/gf256.{h,cpp}`: the tables a `gf256_ctx` is filled with, for
the polynomial it selects. A table that a loop fills entry by entry is the
function of its index; the table of logarithms is written in the order of
the powers, so its loop is a fold.

`GF256` is a byte read as an element of the field, and `gf256_mul` and
`gf256_div` are its product and quotient.
-/

namespace Tgvoip

open Function (update)

namespace Gf256Ctx

/-! ## The tables -/

/-- `GF256_GEN_POLY`. -/
def genPoly : List UInt8 :=
  [0x8e, 0x95, 0x96, 0xa6, 0xaf, 0xb1, 0xb2, 0xb4, 0xb8, 0xc3, 0xc6, 0xd4, 0xe1, 0xe7, 0xf3, 0xfa]

def defaultPolynomialIndex : ℤ := 3

/-- `gf255_poly_init`. -/
def polyInit (polynomialIndex : ℤ) : UInt32 :=
  let i := if polynomialIndex < 0 ∨ polynomialIndex ≥ genPoly.length then 0 else polynomialIndex
  ((genPoly.getD i.toNat 0).toUInt32 <<< 1) ||| 1

/-- `Polynomial`, as `gf256_init_` selects it. -/
def polynomial : UInt32 := polyInit defaultPolynomialIndex

/-- The next entry of the table of powers. -/
def next (b : UInt8) : UInt8 :=
  let next := b.toUInt32 * 2
  (if next ≥ 256 then next ^^^ polynomial else next).toUInt8

/-- The first 255 entries of `GF256_EXP_TABLE`. -/
def power : ℕ → UInt8
  | 0 => 1
  | jj + 1 => next (power jj)

/-- `GF256_EXP_TABLE`. The last five of its 1025 entries are never written or
read. -/
def expTable (jj : ℕ) : UInt8 :=
  if jj < 255 then power jj
  else if jj = 255 then power 0
  else if jj < 2 * 255 then power (jj % 255)
  else if jj = 2 * 255 then 1
  else 0

/-- `logtab[exptab[jj]] = jj`. -/
def writeLog (logtab : UInt8 → UInt16) (jj : ℕ) : UInt8 → UInt16 :=
  update logtab (expTable jj) jj.toUInt16

/-- `GF256_LOG_TABLE`. The loop writes every entry (`logTable_spec`), whatever
they held before. -/
def logTable : UInt8 → UInt16 :=
  writeLog ((List.range' 1 254).foldl writeLog (update (fun _ => 0) 0 512)) 255

/-- `GF256_MUL_TABLE[(y << 8) + x]`. -/
def mul (x y : UInt8) : UInt8 :=
  if y = 0 then 0
  else if x = 0 then 0
  else
    let logY := (logTable y).toUInt8
    expTable ((logTable x).toNat + logY.toNat)

/-- `GF256_DIV_TABLE[(y << 8) + x]`. -/
def div (x y : UInt8) : UInt8 :=
  if y = 0 then 0
  else if x = 0 then 0
  else
    let logY := (logTable y).toUInt8
    let logYn := 255 - logY
    expTable ((logTable x).toNat + logYn.toNat)

/-- `GF256_INV_TABLE`. -/
def inv (x : UInt8) : UInt8 := div 1 x

/-- `gf256_add`. -/
def add (x y : UInt8) : UInt8 := x ^^^ y

def getMatrixElement (x_i x_0 y_j : UInt8) : UInt8 := div (add y_j x_0) (add x_i y_j)

/-! ## Powers of two -/

/-- A fact about every byte, checked byte by byte. -/
theorem forall_byte {p : UInt8 → Prop} (h : ∀ n < 256, p n.toUInt8) (b : UInt8) : p b := by
  have := h b.toNat b.toNat_lt
  rwa [Nat.toUInt8_eq, UInt8.ofNat_toNat] at this

theorem next_eq (b : UInt8) : next b = (b <<< 1) ^^^ (if b &&& 0x80 = 0 then 0 else 0x4d) :=
  forall_byte (p := fun b => next b = (b <<< 1) ^^^ (if b &&& 0x80 = 0 then 0 else 0x4d))
    (by decide +kernel) b

theorem and_high (b : UInt8) : b &&& 0x80 = 0 ∨ b &&& 0x80 = 0x80 :=
  forall_byte (p := fun b => b &&& 0x80 = 0 ∨ b &&& 0x80 = 0x80) (by decide +kernel) b

theorem xor_and (a b c : UInt8) : (a ^^^ b) &&& c = (a &&& c) ^^^ (b &&& c) := by
  apply UInt8.toBitVec_inj.mp
  rw [UInt8.toBitVec_and, UInt8.toBitVec_xor, UInt8.toBitVec_xor, UInt8.toBitVec_and,
    UInt8.toBitVec_and]
  ext i
  simp only [BitVec.getElem_and, BitVec.getElem_xor]
  exact Bool.and_xor_distrib_right _ _ _

/-- Doubling respects addition: the carries of two bytes cancel. -/
theorem next_xor (a b : UInt8) : next (a ^^^ b) = next a ^^^ next b := by
  have hcarry : (if (a ^^^ b) &&& 0x80 = 0 then (0 : UInt8) else 0x4d)
      = (if a &&& 0x80 = 0 then 0 else 0x4d) ^^^ (if b &&& 0x80 = 0 then 0 else 0x4d) := by
    rw [xor_and]
    rcases and_high a with ha | ha <;> rcases and_high b with hb | hb <;> rw [ha, hb] <;> rfl
  rw [next_eq, next_eq, next_eq, hcarry, UInt8.shiftLeft_xor]
  ac_rfl

theorem next_eq_zero {b : UInt8} : next b = 0 ↔ b = 0 :=
  forall_byte (p := fun b => next b = 0 ↔ b = 0) (by decide +kernel) b

theorem power_eq_iterate (jj : ℕ) : power jj = next^[jj] 1 := by
  induction jj with
  | zero => rfl
  | succ jj ih => rw [power, ih, Function.iterate_succ_apply']

theorem power_ne_zero (jj : ℕ) : power jj ≠ 0 := by
  induction jj with
  | zero => decide
  | succ jj ih => exact fun h => ih (next_eq_zero.mp h)

theorem power_period : next^[255] 1 = 1 := by decide +kernel

/-- No smaller number of doublings leads back to one. -/
theorem minimalPeriod_next : Function.minimalPeriod next 1 = 255 := by
  have hdvd : Function.minimalPeriod next 1 ∣ 255 :=
    Function.IsPeriodicPt.minimalPeriod_dvd power_period
  have hback : next^[Function.minimalPeriod next 1] 1 = 1 := Function.iterate_minimalPeriod
  have hmem : Function.minimalPeriod next 1 ∈ Nat.divisors 255 :=
    Nat.mem_divisors.mpr ⟨hdvd, by decide⟩
  have hdiv : Nat.divisors 255 = {1, 3, 5, 15, 17, 51, 85, 255} := by decide +kernel
  simp only [hdiv, Finset.mem_insert, Finset.mem_singleton] at hmem
  rcases hmem with h | h | h | h | h | h | h | h <;> rw [h] at hback ⊢ <;>
    exact absurd hback (by decide +kernel)

/-- The powers run through all bytes but zero. -/
theorem exists_power {b : UInt8} (hb : b ≠ 0) : ∃ jj < 255, power jj = b := by
  have hmaps : Set.MapsTo (fun jj => (power jj).toNat) (Finset.range 255) (Finset.Icc 1 255) := by
    intro jj _
    have h0 : (power jj).toNat ≠ 0 := fun h => power_ne_zero jj (UInt8.toNat_inj.mp h)
    have hlt := (power jj).toNat_lt
    show (power jj).toNat ∈ ((Finset.Icc 1 255 : Finset ℕ) : Set ℕ)
    rw [Finset.mem_coe, Finset.mem_Icc]
    omega
  have hinj : Set.InjOn (fun jj => (power jj).toNat) (Finset.range 255) := by
    intro i hi j hj hij
    refine Function.iterate_injOn_Iio_minimalPeriod (f := next) (x := 1) ?_ ?_ ?_
    · rw [minimalPeriod_next]; exact Finset.mem_range.mp hi
    · rw [minimalPeriod_next]; exact Finset.mem_range.mp hj
    · show next^[i] 1 = next^[j] 1
      rw [← power_eq_iterate, ← power_eq_iterate]
      exact UInt8.toNat_inj.mp hij
  have hb0 : b.toNat ≠ 0 := fun h => hb (UInt8.toNat_inj.mp h)
  have hlt := b.toNat_lt
  obtain ⟨jj, hjj, h⟩ := Finset.surjOn_of_injOn_of_card_le _ hmaps hinj (by simp)
    (Finset.mem_coe.mpr (Finset.mem_Icc.mpr ⟨by omega, by omega⟩) : b.toNat ∈ _)
  exact ⟨jj, Finset.mem_range.mp hjj, UInt8.toNat_inj.mp h⟩

/-! ## Logarithms -/

theorem expTable_of_lt {jj : ℕ} (h : jj < 255) : expTable jj = power jj := if_pos h

/-- What a loop that writes the entries of powers leaves in an entry it writes,
and in one it does not. -/
theorem foldl_writeLog {p : UInt8 → UInt16 → Prop} {l : List ℕ}
    (hp : ∀ jj ∈ l, p (expTable jj) jj.toUInt16) {t : UInt8 → UInt16} {b : UInt8}
    (hb : b ∈ l.map expTable ∨ p b (t b)) :
    p b (l.foldl writeLog t b) := by
  induction l generalizing t with
  | nil => exact hb.resolve_left List.not_mem_nil
  | cons jj l ih =>
      refine ih (fun i hi => hp i (List.mem_cons_of_mem _ hi)) ?_
      by_cases hbj : b = expTable jj
      · right
        rw [hbj, writeLog, Function.update_self]
        exact hp jj List.mem_cons_self
      · rw [writeLog, Function.update_of_ne hbj]
        exact hb.imp_left fun h => (List.mem_cons.mp h).resolve_left hbj

/-- The entry of every byte but zero is a number whose power it is. -/
theorem logTable_spec {b : UInt8} (hb : b ≠ 0) :
    expTable (logTable b).toNat = b ∧ 1 ≤ (logTable b).toNat ∧ (logTable b).toNat ≤ 255 := by
  obtain ⟨jj, hjj, rfl⟩ := exists_power hb
  rcases Nat.eq_zero_or_pos jj with rfl | hpos
  · -- one is the power that is written last
    have h255 : logTable (power 0) = 255 := by
      rw [logTable, writeLog]
      exact Function.update_self (expTable 255) _ _
    rw [h255]
    exact ⟨rfl, by decide⟩
  · have hne : power jj ≠ expTable 255 := by
      intro h
      have h0 : next^[jj] 1 = next^[0] 1 := by
        rw [← power_eq_iterate, ← power_eq_iterate]
        exact h
      exact hpos.ne' (Function.iterate_injOn_Iio_minimalPeriod (by simpa [minimalPeriod_next])
        (by simp [minimalPeriod_next]) h0)
    rw [logTable, writeLog, Function.update_of_ne hne]
    refine foldl_writeLog (p := fun b v => expTable v.toNat = b ∧ 1 ≤ v.toNat ∧ v.toNat ≤ 255)
      (fun i hi => ?_) (.inl (List.mem_map.mpr ⟨jj, ?_, expTable_of_lt hjj⟩))
    · have hi := List.mem_range'_1.mp hi
      have hval : i.toUInt16.toNat = i := Nat.mod_eq_of_lt (by omega)
      rw [hval]
      exact ⟨rfl, by omega⟩
    · exact List.mem_range'_1.mpr (by omega)

end Gf256Ctx

/-! ## The field -/

/-- A byte as an element of the field. -/
@[ext] structure GF256 where
  byte : UInt8
  deriving DecidableEq

namespace GF256

open Gf256Ctx

instance : Zero GF256 := ⟨⟨0⟩⟩
instance : Add GF256 := ⟨fun a b => ⟨add a.byte b.byte⟩⟩
instance : Neg GF256 := ⟨id⟩

@[simp] theorem byte_zero : (0 : GF256).byte = 0 := rfl
@[simp] theorem byte_add (a b : GF256) : (a + b).byte = a.byte ^^^ b.byte := rfl

instance : AddCommGroup GF256 where
  add_assoc a b c := GF256.ext (UInt8.xor_assoc ..)
  zero_add a := GF256.ext UInt8.zero_xor
  add_zero a := GF256.ext UInt8.xor_zero
  add_comm a b := GF256.ext (UInt8.xor_comm ..)
  neg_add_cancel a := GF256.ext UInt8.xor_self
  nsmul := nsmulRec
  zsmul := zsmulRec

/-- Doubling. -/
def double : GF256 →+ GF256 where
  toFun a := ⟨next a.byte⟩
  map_zero' := rfl
  map_add' a b := GF256.ext (next_xor a.byte b.byte)

theorem byte_double_iterate (n : ℕ) : (double^[n] ⟨1⟩).byte = power n := by
  induction n with
  | zero => rfl
  | succ n ih => rw [Function.iterate_succ_apply', power, ← ih]; rfl

/-- The tables of the context as a table of logarithms. -/
def logField : LogField GF256 where
  one := ⟨1⟩
  next := double
  log a := (logTable a.byte).toNat
  period := 255
  one_ne_zero := by decide
  period_pos := by decide
  next_period := GF256.ext ((byte_double_iterate 255).trans
    ((power_eq_iterate 255).trans power_period))
  next_log a ha := by
    have hb : a.byte ≠ 0 := fun h => ha (GF256.ext h)
    obtain ⟨hlog, hpos, hle⟩ := logTable_spec hb
    apply GF256.ext
    rw [byte_double_iterate]
    rcases Nat.lt_or_eq_of_le hle with hlt | heq
    · rw [← expTable_of_lt hlt, hlog]
    · rw [heq] at hlog ⊢
      exact ((power_eq_iterate 255).trans power_period).trans hlog

instance : Field GF256 := logField.field

@[simp] theorem byte_one : (1 : GF256).byte = 1 := rfl

theorem byte_exp (n : ℕ) : (logField.exp n).byte = power n := byte_double_iterate n

/-- The table of powers reaches as far as two logarithms added. -/
theorem expTable_eq {n : ℕ} (h : n ≤ 510) : expTable n = (logField.exp n).byte := by
  have hperiod : ∀ m, power (m + 255) = power m := fun m => by
    rw [← byte_exp, ← byte_exp]
    exact congrArg GF256.byte (logField.exp_add_period m)
  rw [byte_exp, expTable]
  split
  · rfl
  · split
    · subst n
      exact (hperiod 0).symm
    · split
      · rw [← Nat.sub_add_cancel (show 255 ≤ n by omega), Nat.add_mod_right, hperiod,
          Nat.mod_eq_of_lt (by omega)]
      · have h510 : n = 510 := by omega
        rw [if_pos h510, h510, hperiod 255, hperiod 0]
        rfl

theorem log_eq (a : GF256) : logField.log a = (logTable a.byte).toNat := rfl

theorem log_le {a : GF256} (ha : a ≠ 0) : logField.log a ≤ 255 :=
  (logTable_spec fun h => ha (GF256.ext h)).2.2

/-- The cast to a byte keeps a logarithm. -/
theorem toNat_log {y : UInt8} (hy : y ≠ 0) : (logTable y).toUInt8.toNat = (logTable y).toNat := by
  have := (logTable_spec hy).2.2
  rw [UInt16.toNat_toUInt8]
  omega

/-- **`gf256_mul` is the product.** -/
theorem mul_eq (x y : UInt8) : mul x y = ((⟨x⟩ : GF256) * ⟨y⟩).byte := by
  rw [mul]
  split
  · subst y
    exact (congrArg byte (mul_zero _)).symm
  · rename_i hy
    split
    · subst x
      exact (congrArg byte (zero_mul _)).symm
    · rename_i hx
      have hx' : (⟨x⟩ : GF256) ≠ 0 := fun h => hx (congrArg byte h)
      have hy' : (⟨y⟩ : GF256) ≠ 0 := fun h => hy (congrArg byte h)
      have hlogs := Nat.add_le_add (log_le hx') (log_le hy')
      simp only [log_eq] at hlogs
      have hprod : (⟨x⟩ : GF256) * ⟨y⟩ = logField.exp _ := logField.mul_eq_exp hx' hy'
      show expTable ((logTable x).toNat + (logTable y).toUInt8.toNat) = _
      rw [toNat_log hy, expTable_eq hlogs, hprod, log_eq, log_eq]

/-- **`gf256_div` is the quotient**, and a quotient by zero is zero in both. -/
theorem div_eq (x y : UInt8) : div x y = ((⟨x⟩ : GF256) / ⟨y⟩).byte := by
  rw [div]
  split
  · subst y
    exact (congrArg byte (div_zero _)).symm
  · rename_i hy
    split
    · subst x
      exact (congrArg byte (zero_div _)).symm
    · rename_i hx
      have hx' : (⟨x⟩ : GF256) ≠ 0 := fun h => hx (congrArg byte h)
      have hy' : (⟨y⟩ : GF256) ≠ 0 := fun h => hy (congrArg byte h)
      have hlogx : (logTable x).toNat ≤ 255 := log_le hx'
      have hlogy : (logTable y).toNat ≤ 255 := log_le hy'
      have hsub : (255 - (logTable y).toUInt8).toNat = 255 - (logTable y).toNat := by
        rw [UInt8.toNat_sub_of_le _ _ (UInt8.le_iff_toNat_le.mpr (by rw [toNat_log hy]; exact hlogy)),
          toNat_log hy]
        rfl
      show expTable ((logTable x).toNat + (255 - (logTable y).toUInt8).toNat) = _
      rw [hsub, expTable_eq (by omega)]
      -- what is read, times the divisor, is the dividend
      refine congrArg byte (eq_div_of_mul_eq hy' ?_)
      rw [mul_comm]
      have hback : logField.mul ⟨y⟩ (logField.exp ((logTable x).toNat + (255 - (logTable y).toNat)))
          = ⟨x⟩ := by
        rw [logField.mul_of_ne_zero hy', logField.next_exp, log_eq,
          show (logTable y).toNat + ((logTable x).toNat + (255 - (logTable y).toNat))
            = (logTable x).toNat + logField.period from by show _ = _ + 255; omega,
          logField.exp_add_period]
        exact logField.exp_log hx'
      exact hback

theorem inv_eq (x : UInt8) : inv x = ((⟨x⟩ : GF256)⁻¹).byte := by
  rw [inv, div_eq]
  exact congrArg byte (one_div _)

theorem mk_mul (x y : UInt8) : (⟨mul x y⟩ : GF256) = ⟨x⟩ * ⟨y⟩ := GF256.ext (mul_eq x y)
theorem mk_div (x y : UInt8) : (⟨div x y⟩ : GF256) = ⟨x⟩ / ⟨y⟩ := GF256.ext (div_eq x y)
theorem mk_inv (x : UInt8) : (⟨inv x⟩ : GF256) = (⟨x⟩)⁻¹ := GF256.ext (inv_eq x)
theorem mk_add (x y : UInt8) : (⟨add x y⟩ : GF256) = ⟨x⟩ + ⟨y⟩ := rfl

/-- Addition is its own inverse. -/
theorem sub_eq (a b : GF256) : a - b = a + b := rfl

end GF256

namespace Gf256Ctx

open GF256 (mk_mul mk_div mk_inv)

theorem of_mk {a b : UInt8} (h : (⟨a⟩ : GF256) = ⟨b⟩) : a = b := congrArg GF256.byte h

/-- **The tables multiply polynomials modulo the generator**: one and `next`,
which shifts and reduces, fix every product by its linearity; and division
undoes it. -/
theorem tables_eq :
    (∀ x, mul x 1 = x) ∧ (∀ x y, mul x (next y) = next (mul x y)) ∧
      (∀ x y z, mul x (y ^^^ z) = mul x y ^^^ mul x z) ∧
      (∀ b, next b = (b <<< 1) ^^^ (if b &&& 0x80 = 0 then 0 else 0x4d)) ∧
      (∀ x y, mul x y = mul y x) ∧ (∀ x y z, mul (mul x y) z = mul x (mul y z)) ∧
      (∀ x y, y ≠ 0 → mul (div x y) y = x) ∧ (∀ x, inv x = div 1 x) ∧
      ∀ x, x ≠ 0 → ∃ n < 255, next^[n] 1 = x := by
  refine ⟨fun x => of_mk ?_, fun x y => of_mk ?_, fun x y z => of_mk ?_, next_eq,
    fun x y => of_mk ?_, fun x y z => of_mk ?_, fun x y hy => of_mk ?_, fun x => rfl,
    fun x hx => ?_⟩
  · exact (mk_mul x 1).trans (mul_one (⟨x⟩ : GF256))
  · exact (mk_mul x (next y)).trans
      ((GF256.logField.mul_next ⟨x⟩ ⟨y⟩).trans (congrArg GF256.double (mk_mul x y).symm))
  · rw [mk_mul]
    exact (mul_add (⟨x⟩ : GF256) ⟨y⟩ ⟨z⟩).trans (congrArg₂ (· + ·) (mk_mul x y).symm (mk_mul x z).symm)
  · rw [mk_mul, mk_mul, mul_comm]
  · rw [mk_mul, mk_mul, mk_mul, mk_mul, mul_assoc]
  · rw [mk_mul, mk_div, div_mul_cancel₀ _ fun h : (⟨y⟩ : GF256) = 0 => hy (of_mk h)]
  · obtain ⟨n, hn, hpow⟩ := exists_power hx
    exact ⟨n, hn, (power_eq_iterate n).symm.trans hpow⟩

end Gf256Ctx

end Tgvoip
