import Tgvoip.Video.CM256
import Mathlib.Data.List.Nodup
import Mathlib.Data.List.Perm.Basic
import Mathlib.Data.Nat.Find

/-!
# CM256Rows — which rows arrived, and which did not

`CM256Decoder::Initialize` marks the rows of the original blocks in
`ErasuresIndices`, then writes the rows without a mark over the marks it has
passed. It gives up exactly on an original row that comes twice.
-/

namespace Tgvoip

open Function (update)

namespace CM256Decoder

variable (params : Cm256EncoderParams) (blocks : Cm256Blocks) (fresh : ℕ → UInt8)

/-- The block is an original one. -/
def IsOriginal (p : ℕ) : Prop := ((blocks.get p).index.toNat : ℤ) < params.originalCount

instance (p : ℕ) : Decidable (IsOriginal params blocks p) := Int.decLt ..

/-- The row is that of one of the first `m` blocks. -/
def Arrived (m row : ℕ) : Prop := ∃ p < m, (blocks.get p).index.toNat = row

instance (m row : ℕ) : Decidable (Arrived blocks m row) := Nat.decidableExistsLT _

/-- The row of an original block is one that came before. -/
def Repeated (m : ℕ) : Prop := ∃ q < m, IsOriginal params blocks q ∧
  Arrived blocks q (blocks.get q).index.toNat

instance (m : ℕ) : Decidable (Repeated params blocks m) := Nat.decidableExistsLT _

/-- The decoder after `m` blocks. -/
def scanned (m : ℕ) : CM256Decoder where
  params := params
  recovery := (List.range m).filter fun p => ¬ IsOriginal params blocks p
  original := (List.range m).filter fun p => IsOriginal params blocks p
  erasuresIndices row :=
    if (row : ℤ) < params.originalCount then if Arrived blocks m row then 1 else 0 else fresh row

theorem arrived_succ {m row : ℕ} :
    Arrived blocks (m + 1) row ↔ Arrived blocks m row ∨ (blocks.get m).index.toNat = row := by
  simp only [Arrived, Nat.exists_lt_succ_right]

theorem repeated_succ {m : ℕ} :
    Repeated params blocks (m + 1) ↔ Repeated params blocks m ∨
      IsOriginal params blocks m ∧ Arrived blocks m (blocks.get m).index.toNat := by
  simp only [Repeated, Nat.exists_lt_succ_right]

/-- One more original block. -/
theorem scanned_original {m : ℕ} (hrow : IsOriginal params blocks m) :
    { scanned params blocks fresh m with
      original := (scanned params blocks fresh m).original ++ [m]
      erasuresIndices := update (scanned params blocks fresh m).erasuresIndices
        (blocks.get m).index.toNat 1 } = scanned params blocks fresh (m + 1) := by
  ext1
  · rfl
  · simp [scanned, List.range_succ, hrow]
  · simp [scanned, List.range_succ, hrow]
  · funext row
    by_cases h : row = (blocks.get m).index.toNat
    · subst h
      exact (Function.update_self ..).trans
        ((if_pos hrow).trans (if_pos ((arrived_succ blocks).mpr (.inr rfl)))).symm
    · have harrived : Arrived blocks (m + 1) row ↔ Arrived blocks m row :=
        (arrived_succ blocks).trans (or_iff_left fun he => h he.symm)
      exact (Function.update_of_ne h ..).trans (if_congr Iff.rfl (if_congr harrived.symm rfl rfl) rfl)

/-- One more recovery block. -/
theorem scanned_recovery {m : ℕ} (hrow : ¬ IsOriginal params blocks m) :
    { scanned params blocks fresh m with
      recovery := (scanned params blocks fresh m).recovery ++ [m] }
      = scanned params blocks fresh (m + 1) := by
  ext1
  · rfl
  · simp [scanned, List.range_succ, hrow]
  · simp [scanned, List.range_succ, hrow]
  · funext row
    refine if_ctx_congr Iff.rfl (fun hlt => if_congr ?_ rfl rfl) fun _ => rfl
    refine ((arrived_succ blocks).trans (or_iff_left fun he => hrow ?_)).symm
    rw [IsOriginal, he]
    exact hlt

theorem scan_scanned (m : ℕ) :
    scan blocks (scanned params blocks fresh m) m =
      if IsOriginal params blocks m ∧ Arrived blocks m (blocks.get m).index.toNat then none
      else some (scanned params blocks fresh (m + 1)) := by
  by_cases hrow : IsOriginal params blocks m
  · have hmark : (scanned params blocks fresh m).erasuresIndices (blocks.get m).index.toNat
        = if Arrived blocks m (blocks.get m).index.toNat then 1 else 0 := if_pos hrow
    refine (if_pos hrow).trans ?_
    rw [hmark, scanned_original params blocks fresh hrow]
    by_cases hold : Arrived blocks m (blocks.get m).index.toNat
    · rw [if_pos hold, if_pos (by decide : (1 : UInt8) ≠ 0), if_pos ⟨hrow, hold⟩]
    · rw [if_neg hold, if_neg (by decide : ¬ (0 : UInt8) ≠ 0), if_neg fun h => hold h.2]
  · refine (if_neg hrow).trans ?_
    rw [scanned_recovery params blocks fresh hrow, if_neg fun h => hrow h.1]

/-- **The scan stops at an original row that comes twice.** -/
theorem foldlM_scan (m : ℕ) :
    (List.range m).foldlM (scan blocks) (scanned params blocks fresh 0) =
      if Repeated params blocks m then none else some (scanned params blocks fresh m) := by
  induction m with
  | zero => rfl
  | succ m ih =>
      rw [List.range_succ, List.foldlM_append, ih]
      by_cases hm : Repeated params blocks m
      · rw [if_pos hm, if_pos ((repeated_succ params blocks).mpr (.inl hm))]
        rfl
      · rw [if_neg hm, Option.bind_eq_bind, Option.bind_some, List.foldlM_cons, scan_scanned]
        simp only [repeated_succ, hm, false_or, List.foldlM_nil]
        split <;> rfl

/-! ## The erasures -/

/-- The rows from `ii` on that have no mark. -/
def unmarked (erasuresIndices : ℕ → UInt8) (ii rounds : ℕ) : List ℕ :=
  (List.range' ii rounds).filter fun row => erasuresIndices row = 0

theorem unmarked_update {erasuresIndices : ℕ → UInt8} {c ii : ℕ} (h : c < ii) (v : UInt8)
    (rounds : ℕ) :
    unmarked (update erasuresIndices c v) ii rounds = unmarked erasuresIndices ii rounds := by
  apply List.filter_congr
  intro row hrow
  have hle := (List.mem_range'_1.mp hrow).1
  rw [Function.update_of_ne (by omega)]

/-- The rows found are written behind the reader. -/
theorem identify_eq {rc rounds ii c : ℕ} {erasuresIndices : ℕ → UInt8} (hc : c ≤ ii) (hlt : c < rc)
    (hrc : rc ≤ c + (unmarked erasuresIndices ii rounds).length) {t : ℕ} (ht : t < rc) :
    identify rc rounds ii c erasuresIndices t =
      if t < c then erasuresIndices t
      else UInt8.ofNat ((unmarked erasuresIndices ii rounds).getD (t - c) 0) := by
  induction rounds generalizing ii c erasuresIndices with
  | zero =>
      simp only [unmarked, List.range'_zero, List.filter_nil, List.length_nil] at hrc
      omega
  | succ rounds ih =>
      rw [identify]
      by_cases hrow : erasuresIndices ii = 0
      · have hhead : unmarked erasuresIndices ii (rounds + 1)
            = ii :: unmarked erasuresIndices (ii + 1) rounds := by
          rw [unmarked, List.range'_succ, List.filter_cons_of_pos (by simpa using hrow)]
          rfl
        rw [if_pos hrow, hhead]
        rw [hhead, List.length_cons] at hrc
        by_cases hlast : c + 1 ≥ rc
        · have htc : t ≤ c := by omega
          rw [if_pos hlast]
          rcases Nat.lt_or_eq_of_le htc with h | h
          · rw [Function.update_of_ne (by omega), if_pos h]
          · rw [h, Function.update_self, if_neg (by omega), Nat.sub_self, List.getD_cons_zero]
        · rw [if_neg hlast, ih (by omega) (by omega)
            (by rw [unmarked_update (by omega)]; omega), unmarked_update (by omega)]
          rcases Nat.lt_trichotomy t c with h | h | h
          · rw [if_pos (by omega), if_pos h, Function.update_of_ne (by omega)]
          · rw [h, if_pos (by omega), if_neg (by omega), Function.update_self, Nat.sub_self,
              List.getD_cons_zero]
          · have hsub : t - c = t - (c + 1) + 1 := by omega
            rw [if_neg (by omega), if_neg (by omega), hsub, List.getD_cons_succ]
      · have hhead : unmarked erasuresIndices ii (rounds + 1)
            = unmarked erasuresIndices (ii + 1) rounds := by
          rw [unmarked, List.range'_succ, List.filter_cons_of_neg (by simpa using hrow)]
          rfl
        rw [if_neg hrow, hhead]
        rw [hhead] at hrc
        exact ih (by omega) hlt hrc

/-! ## The rows of a decoder -/

/-- The rows of the original blocks. -/
def rowsKept (n : ℕ) : List ℕ :=
  ((List.range n).filter fun p => IsOriginal params blocks p).map fun p =>
    (blocks.get p).index.toNat

/-- The rows that did not arrive. -/
def missing (n : ℕ) : List ℕ := (List.range n).filter fun row => ¬ Arrived blocks n row

variable {params blocks}

theorem mem_missing {n row : ℕ} : row ∈ missing blocks n ↔ row < n ∧ ¬ Arrived blocks n row := by
  simp [missing]

theorem missing_nodup (n : ℕ) : (missing blocks n).Nodup := List.nodup_range.filter _

theorem mem_rowsKept {n row : ℕ} (hn : params.originalCount = n) :
    row ∈ rowsKept params blocks n ↔ row < n ∧ Arrived blocks n row := by
  simp only [rowsKept, List.mem_map, List.mem_filter, List.mem_range, decide_eq_true_eq, IsOriginal,
    hn, Nat.cast_lt]
  constructor
  · rintro ⟨p, ⟨hp, hrow⟩, rfl⟩
    exact ⟨hrow, p, hp, rfl⟩
  · rintro ⟨hrow, p, hp, rfl⟩
    exact ⟨p, ⟨hp, hrow⟩, rfl⟩

theorem rowsKept_nodup {n : ℕ} (h : ¬ Repeated params blocks n) :
    (rowsKept params blocks n).Nodup := by
  have hinj : ∀ p q, p < q → q < n → IsOriginal params blocks q →
      (blocks.get p).index.toNat ≠ (blocks.get q).index.toNat :=
    fun p q hpq hq horig he => h ⟨q, hq, horig, p, hpq, he⟩
  refine List.Nodup.map_on (fun p hp q hq he => ?_) (List.nodup_range.filter _)
  simp only [List.mem_filter, List.mem_range, decide_eq_true_eq] at hp hq
  rcases Nat.lt_trichotomy p q with hlt | heq | hgt
  · exact absurd he (hinj p q hlt hq.1 hq.2)
  · exact heq
  · exact absurd he.symm (hinj q p hgt hp.1 hp.2)

/-- **Every row is kept or missing.** -/
theorem rows_perm {n : ℕ} (hn : params.originalCount = n) (h : ¬ Repeated params blocks n) :
    (List.range n).Perm (rowsKept params blocks n ++ missing blocks n) := by
  have hdisjoint : (rowsKept params blocks n).Disjoint (missing blocks n) := fun row hk hm =>
    (mem_missing.mp hm).2 ((mem_rowsKept hn).mp hk).2
  rw [List.perm_ext_iff_of_nodup List.nodup_range
    ((rowsKept_nodup h).append (missing_nodup n) hdisjoint)]
  intro row
  rw [List.mem_range, List.mem_append, mem_rowsKept hn, mem_missing]
  tauto

/-- There are as many recovery blocks as missing rows. -/
theorem length_recovery {n : ℕ} (hn : params.originalCount = n) (h : ¬ Repeated params blocks n) :
    (scanned params blocks fresh n).recovery.length = (missing blocks n).length := by
  have hperm := (rows_perm hn h).length_eq
  have hsplit := (List.range n).length_eq_length_filter_add fun p => IsOriginal params blocks p
  rw [List.length_append, rowsKept, List.length_map] at hperm
  simp only [scanned, decide_not]
  omega

theorem unmarked_scanned {n : ℕ} (hn : params.originalCount = n) (hle : n ≤ 256) :
    ∃ rest, unmarked (scanned params blocks fresh n).erasuresIndices 0 256
      = missing blocks n ++ rest := by
  have hsplit : List.range' 0 256 = List.range' 0 n ++ List.range' n (256 - n) := by
    have happend := List.range'_append_1 (s := 0) (m := n) (n := 256 - n)
    rwa [Nat.zero_add, Nat.add_sub_cancel' hle, eq_comm] at happend
  refine ⟨unmarked (scanned params blocks fresh n).erasuresIndices n (256 - n), ?_⟩
  rw [unmarked, hsplit, List.filter_append]
  congr 1
  rw [← List.range_eq_range', missing]
  apply List.filter_congr
  intro row hrow
  have hlt : (row : ℤ) < params.originalCount := by
    rw [hn]
    exact_mod_cast List.mem_range.mp hrow
  have hmark : (scanned params blocks fresh n).erasuresIndices row
      = if Arrived blocks n row then 1 else 0 := if_pos hlt
  rw [hmark]
  by_cases harr : Arrived blocks n row <;> simp [harr]

/-- What `Initialize` makes of blocks whose original rows differ. -/
def started (params : Cm256EncoderParams) (blocks : Cm256Blocks) (fresh : ℕ → UInt8) (n : ℕ) :
    CM256Decoder :=
  { scanned params blocks fresh n with
    erasuresIndices := identify (scanned params blocks fresh n).recovery.length 256 0 0
      (scanned params blocks fresh n).erasuresIndices }

theorem initializeDecoder_eq {n : ℕ} (hn : params.originalCount = n) :
    initializeDecoder fresh params blocks
      = if Repeated params blocks n then none else some (started params blocks fresh n) := by
  have hstart : (⟨params, [], [], fun ii => if (ii : ℤ) < params.originalCount then 0 else fresh ii⟩ :
      CM256Decoder) = scanned params blocks fresh 0 := by
    ext1
    · rfl
    · rfl
    · rfl
    · funext row
      exact if_congr Iff.rfl (if_neg fun ⟨p, hp, _⟩ => Nat.not_lt_zero p hp).symm rfl
  rw [initializeDecoder, hstart, hn, Int.toNat_natCast, foldlM_scan]
  split <;> rfl

/-- **The erasures are the missing rows**, in order. -/
theorem erasuresIndices_started {n : ℕ} (hn : params.originalCount = n) (hle : n ≤ 256)
    (h : ¬ Repeated params blocks n) {t : ℕ} (ht : t < (missing blocks n).length) :
    (started params blocks fresh n).erasuresIndices t
      = UInt8.ofNat ((missing blocks n).getD t 0) := by
  obtain ⟨rest, hrest⟩ : ∃ rest, unmarked (scanned params blocks fresh n).erasuresIndices 0 256
      = missing blocks n ++ rest := unmarked_scanned fresh hn hle
  show identify (scanned params blocks fresh n).recovery.length 256 0 0 _ t = _
  rw [length_recovery fresh hn h,
    identify_eq le_rfl (by omega) (by rw [hrest, List.length_append]; omega) ht,
    if_neg (Nat.not_lt_zero t), Nat.sub_zero, hrest, List.getD_append _ _ _ _ ht]

end CM256Decoder

end Tgvoip
