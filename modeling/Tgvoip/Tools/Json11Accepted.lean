import Tgvoip.Tools.Json11RoundTrip

/-!
# Json11Accepted — what `parse` accepts

Whatever text is accepted, its value is nested within the limit, its objects
have their keys in order, and its integers have nine characters at most
(`parse_fits`). So, without doubles, it is printed as a text that is read as
the very same value (`parse_normal`). The loops of the parser end with the
text (`parse_ne_endless`).
-/

namespace Tgvoip

open ByteReader (Bytes)
open TextParser Fallible

/-! ## Keys -/

namespace JsonObject

variable {α : Type}

theorem keyLt_trans : ∀ {a b c : Bytes}, keyLt a b = true → keyLt b c = true → keyLt a c = true
  | _, [], _, h, _ => by
      rw [keyLt] at h
      cases h
  | _, _ :: _, [], _, h => by cases h
  | [], _ :: _, _ :: _, _, _ => rfl
  | a :: as, b :: bs, c :: cs, h, h' => by
      simp only [keyLt, Bool.or_eq_true, Bool.and_eq_true, decide_eq_true_eq] at h h' ⊢
      rcases h with h | ⟨rfl, h⟩
      · rcases h' with h' | ⟨rfl, -⟩
        · exact .inl (UInt8.lt_trans h h')
        · exact .inl h
      · rcases h' with h' | ⟨rfl, h'⟩
        · exact .inl h'
        · exact .inr ⟨rfl, keyLt_trans h h'⟩

theorem keyLt_of_not : ∀ {a b : Bytes}, keyLt a b = false → a ≠ b → keyLt b a = true
  | [], [], _, h => absurd rfl h
  | [], _ :: _, h, _ => by cases h
  | _ :: _, [], _, _ => rfl
  | a :: as, b :: bs, h, hne => by
      simp only [keyLt, Bool.or_eq_false_iff, Bool.and_eq_false_iff, decide_eq_false_iff_not,
        Bool.or_eq_true, Bool.and_eq_true, decide_eq_true_eq] at h ⊢
      obtain ⟨hlt, h⟩ := h
      by_cases hab : a = b
      · subst hab
        have hrest : keyLt as bs = false := h.resolve_left fun hn => hn rfl
        exact .inr ⟨rfl, keyLt_of_not hrest fun heq => hne (by rw [heq])⟩
      · exact .inl (UInt8.lt_of_le_of_ne (UInt8.not_lt.mp hlt) (Ne.symm hab))

theorem mem_insert {data : List (Bytes × α)} {key : Bytes} {value : α} {e : Bytes × α}
    (h : e ∈ insert data key value) : e = (key, value) ∨ e ∈ data := by
  induction data with
  | nil => exact .inl (List.mem_singleton.mp h)
  | cons f data ih =>
      rw [insert] at h
      split at h
      · exact (List.mem_cons.mp h)
      · split at h
        · rename_i heq
          rcases List.mem_cons.mp h with rfl | h
          · exact .inl (by rw [heq])
          · exact .inr (List.mem_cons_of_mem _ h)
        · rcases List.mem_cons.mp h with rfl | h
          · exact .inr List.mem_cons_self
          · exact (ih h).imp_right (List.mem_cons_of_mem _)

end JsonObject

namespace Json

variable {δ : Type}

/-- **The entries stay in order.** -/
theorem Sorted.insert {data : List (Bytes × Json δ)} (h : Sorted data) (key : Bytes)
    (value : Json δ) : Sorted (JsonObject.insert data key value) := by
  induction data with
  | nil => exact List.pairwise_singleton _ _
  | cons e data ih =>
      obtain ⟨hfirst, hrest⟩ := List.pairwise_cons.mp h
      rw [JsonObject.insert]
      split
      · rename_i hlt
        refine List.pairwise_cons.mpr ⟨fun f hf => ?_, h⟩
        rcases List.mem_cons.mp hf with rfl | hf
        · exact hlt
        · exact JsonObject.keyLt_trans hlt (hfirst f hf)
      · rename_i hlt
        split
        · exact List.pairwise_cons.mpr ⟨hfirst, hrest⟩
        · rename_i hne
          refine List.pairwise_cons.mpr ⟨fun f hf => ?_, ih hrest⟩
          rcases JsonObject.mem_insert hf with rfl | hf
          · exact JsonObject.keyLt_of_not (Bool.eq_false_iff.mpr hlt) hne
          · exact hfirst f hf

/-- An integer of at most nine characters, if it is one. -/
def Short : Json δ → Prop
  | int value => (dumpInt value).length ≤ 9
  | _ => True

end Json

namespace JsonParser

variable {δ : Type} {d : DoubleOps δ} {strategy : JsonParse}

/-! ## Numbers -/

/-- The digits of the integer part are all the digits there are. -/
theorem length_takeWhile_of_digits {s rest : Bytes} (h : parseDigits.run s = .ok ((), rest)) :
    (s.takeWhile isDigit).length + rest.length = s.length := by
  change parseDigits s = _ at h
  rw [parseDigits] at h
  cases s with
  | nil => cases h
  | cons c s =>
      by_cases hzero : c = 0x30
      · rw [if_pos (show current (c :: s) = 0x30 from hzero)] at h
        split at h
        · cases h
        · rename_i hnext
          cases h
          have hstop : s.takeWhile isDigit = [] := by
            cases s with
            | nil => rfl
            | cons b s => exact List.takeWhile_cons_of_neg hnext
          rw [List.takeWhile_cons, hzero, if_pos (show isDigit 0x30 = true from rfl), hstop]
          show 1 + s.length = s.length + 1
          omega
      · rw [if_neg (show ¬ current (c :: s) = 0x30 from hzero)] at h
        split at h
        · cases h
          rw [← List.length_append, List.takeWhile_append_dropWhile]
        · cases h

/-- **The number that is read is as long as its text**, at most. -/
theorem atoi_of_parseInteger {s rest : Bytes} (h : parseInteger.run s = .ok ((), rest))
    (hshort : s.length - rest.length ≤ 9) :
    -(10 ^ 8 : ℤ) < atoi s ∧ atoi s < 10 ^ 9 := by
  have hbound : ∀ (t : Bytes) (k : ℕ), (t.takeWhile isDigit).length ≤ k →
      readDecimal (t.takeWhile isDigit) < 10 ^ k := by
    intro t k hk
    refine Nat.lt_of_lt_of_le (readDecimal_lt fun c hc => ?_) (Nat.pow_le_pow_right (by decide) hk)
    exact List.all_eq_true.mp List.all_takeWhile c hc
  by_cases hsign : current s = 0x2D
  · cases s with
    | nil => cases hsign
    | cons c t =>
        change parseDigits (if current (c :: t) = 0x2D then t else c :: t) = _ at h
        rw [if_pos hsign] at h
        have hlen := length_takeWhile_of_digits h
        rw [List.length_cons] at hshort
        have hlt := hbound t 8 (by omega)
        rw [atoi, if_pos hsign]
        show -(10 ^ 8 : ℤ) < -(readDecimal (t.takeWhile isDigit) : ℤ) ∧
          -(readDecimal (t.takeWhile isDigit) : ℤ) < 10 ^ 9
        omega
  · change parseDigits (if current s = 0x2D then s.drop 1 else s) = _ at h
    rw [if_neg hsign] at h
    have hlen := length_takeWhile_of_digits h
    have hlt := hbound s 9 (by omega)
    rw [atoi, if_neg hsign]
    omega

theorem length_dumpInt_le {n : ℤ} (hlow : -(10 ^ 8 : ℤ) < n) (hhigh : n < 10 ^ 9) :
    (Json.dumpInt (Int32.ofInt n)).length ≤ 9 := by
  have hn : (Int32.ofInt n).toInt = n := Int32.toInt_ofInt_of_le (by norm_num; omega) (by norm_num; omega)
  rw [Json.dumpInt, hn]
  split
  · rw [List.length_cons]
    exact Nat.succ_le_succ (length_decimal_le (by decide) (by omega))
  · exact length_decimal_le (by decide) (by omega)

/-- The number is an integer of at most nine characters, or a double. -/
theorem fits_of_parseNumber {levels : ℕ} :
    Gives (fun v : Json δ => v.Fits Json.Short (levels + 1)) (parseNumber d) := by
  intro s v rest h
  unfold parseNumber at h
  obtain ⟨start, mid, hstart, h⟩ := run_bind_eq_ok.mp h
  cases hstart
  obtain ⟨_, mid, hinteger, h⟩ := run_bind_eq_ok.mp h
  obtain ⟨left, mid', hleft, h⟩ := run_bind_eq_ok.mp h
  cases hleft
  split at h
  · rename_i hint
    cases h
    rw [Bool.and_eq_true, decide_eq_true_eq] at hint
    obtain ⟨hlow, hhigh⟩ := atoi_of_parseInteger hinteger hint.2
    exact length_dumpInt_le hlow hhigh
  · obtain ⟨_, mid₁, _, h⟩ := run_bind_eq_ok.mp h
    obtain ⟨_, mid₂, _, h⟩ := run_bind_eq_ok.mp h
    cases h
    trivial

/-! ## Values -/

variable {value : Scanner (Json δ)} {P : Json δ → Prop}

theorem gives_parseItems (hvalue : Gives P value) (rounds : ℕ) (data : List (Json δ))
    (hdata : ∀ v ∈ data, P v) :
    Gives (fun vs => ∀ v ∈ vs, P v) (parseItems strategy value rounds data) := by
  induction rounds generalizing data with
  | zero => exact .throw _
  | succ rounds ih =>
      refine hvalue.bind fun item hitem => ?_
      have hmore : ∀ v ∈ data ++ [item], P v := by
        intro v hv
        rcases List.mem_append.mp hv with hv | hv
        · exact hdata v hv
        · exact List.mem_singleton.mp hv ▸ hitem
      refine .after fun ch => .ite (fun _ => .pure hmore) fun _ => .ite (fun _ => .throw _) fun _ => ?_
      exact .after fun _ => .after fun _ => ih _ hmore

theorem gives_parseEntries (hvalue : Gives P value) (rounds : ℕ) (ch : UInt8)
    (data : List (Bytes × Json δ)) (hsorted : Json.Sorted data) (hdata : ∀ e ∈ data, P e.2) :
    Gives (fun es => Json.Sorted es ∧ ∀ e ∈ es, P e.2)
      (parseEntries strategy value rounds ch data) := by
  induction rounds generalizing ch data with
  | zero => exact .throw _
  | succ rounds ih =>
      refine .ite (fun _ => .throw _) fun _ => ?_
      refine .after fun key => .after fun _ => .ite (fun _ => .throw _) fun _ => ?_
      refine hvalue.bind fun item hitem => ?_
      have hsorted' := hsorted.insert key item
      have hmore : ∀ e ∈ JsonObject.insert data key item, P e.2 := by
        intro e he
        rcases JsonObject.mem_insert he with rfl | he
        · exact hitem
        · exact hdata e he
      refine .after fun _ => .ite (fun _ => .pure ⟨hsorted', hmore⟩) fun _ => ?_
      refine .ite (fun _ => .throw _) fun _ => ?_
      exact .after fun _ => ih _ _ hsorted' hmore

/-- **What is accepted fits.** -/
theorem fits_of_parseJson (levels : ℕ) :
    Gives (fun v : Json δ => v.Fits Json.Short levels) (parseJson strategy d levels) := by
  induction levels with
  | zero => exact .throw _
  | succ levels ih =>
      have hexpect : ∀ (text : Bytes) (v : Json δ), v.Fits Json.Short (levels + 1) →
          Gives (fun v : Json δ => v.Fits Json.Short (levels + 1)) (expect text v) := by
        intro text v hv s w rest h
        change (if _ then _ else _) = _ at h
        split at h
        · cases h
          exact hv
        · cases h
      refine .after fun ch => .ite (fun _ => .after fun _ => fits_of_parseNumber) fun _ => ?_
      refine .ite (fun _ => .after fun _ => hexpect _ _ trivial) fun _ => ?_
      refine .ite (fun _ => .after fun _ => hexpect _ _ trivial) fun _ => ?_
      refine .ite (fun _ => .after fun _ => hexpect _ _ trivial) fun _ => ?_
      refine .ite (fun _ => ?_) fun _ => .ite (fun _ => ?_) fun _ =>
        .ite (fun _ => ?_) fun _ => .throw _
      · rw [map_eq_pure_bind]
        exact .after fun text => .pure trivial
      · refine .after fun _ => .ite (fun _ => .pure ⟨List.Pairwise.nil, nofun⟩) fun _ => ?_
        refine .after fun _ => ?_
        refine (gives_parseEntries ih _ _ [] List.Pairwise.nil nofun).bind fun data hdata => ?_
        exact .pure hdata
      · refine .after fun _ => .ite (fun _ => .pure nofun) fun _ => ?_
        refine .after fun _ => .after fun _ => ?_
        exact (gives_parseItems ih _ [] nofun).bind fun data hdata => .pure hdata

/-! ## The loops end -/

/-- How much of a text a parser takes, if no loop has too few rounds. -/
abbrev Takes {α : Type} (k : ℕ) (p : Scanner α) (s : Bytes) : Prop :=
  Consumes JsonError.endless k p s

theorem takes_fail {α : Type} {e : JsonError} (h : e ≠ .endless) (k : ℕ) (s : Bytes) :
    Takes k (fail e : Scanner α) s := .throw h

theorem takes_modify (f : Bytes → Bytes) {s : Bytes} (h : (f s).length ≤ s.length) :
    Takes 0 (modify f : Scanner Unit) s := by
  refine ⟨nofun, fun _ rest hrun => ?_⟩
  cases hrun
  exact h

theorem takes_get (s : Bytes) : Takes 0 (get : Scanner Bytes) s := by
  refine ⟨nofun, fun a rest hrun => ?_⟩
  cases hrun
  exact Nat.le_refl _

theorem takes_takeChar (s : Bytes) : Takes 1 takeChar s := by
  cases s with
  | nil => exact ⟨nofun, nofun⟩
  | cons c s =>
      refine ⟨nofun, fun a rest hrun => ?_⟩
      cases hrun
      exact Nat.le_refl _

/-- What is put back is taken again. -/
theorem takes_back {α : Type} {k : ℕ} {ch : UInt8} {p : Scanner α} {s : Bytes}
    (h : Takes (k + 1) p (ch :: s)) : Takes k (do back ch; p) s := by
  obtain ⟨hends, hlen⟩ := h
  refine ⟨hends, fun a rest hrun => ?_⟩
  have := hlen a rest hrun
  rw [List.length_cons] at this
  omega

theorem takes_whitespace (s : Bytes) : Takes 0 consumeWhitespace s :=
  takes_modify _ (List.dropWhile_suffix _).length_le

theorem closeComment_spec (s : Bytes) : closeComment s ≠ .error .endless ∧
    ∀ rest, closeComment s = .ok rest → rest.length ≤ s.length := by
  induction s with
  | nil => exact ⟨nofun, nofun⟩
  | cons a s ih =>
      cases s with
      | nil => exact ⟨nofun, nofun⟩
      | cons b s =>
          rw [closeComment]
          split
          · refine ⟨nofun, fun rest h => ?_⟩
            cases h
            simp only [List.length_cons]
            omega
          · exact ⟨ih.1, fun rest h => Nat.le_succ_of_le (ih.2 rest h)⟩

theorem takes_comment (s : Bytes) : Takes 0 consumeComment s ∧
    ∀ rest, consumeComment.run s = .ok (true, rest) → rest.length < s.length := by
  change (consumeComment s ≠ _ ∧ ∀ found rest, consumeComment s = _ → _) ∧
    ∀ rest, consumeComment s = _ → _
  unfold consumeComment
  split
  · exact ⟨⟨nofun, nofun⟩, nofun⟩
  · rename_i rest
    have := (List.dropWhile_suffix (l := rest) fun c => decide (c ≠ 0x0A)).length_le
    refine ⟨⟨nofun, fun found rest' h => ?_⟩, fun rest' h => ?_⟩
    · cases h
      simp only [List.length_cons]
      omega
    · cases h
      simp only [List.length_cons]
      omega
  · rename_i text
    obtain ⟨hends, hlen⟩ := closeComment_spec text
    cases hclose : closeComment text with
    | error e =>
        refine ⟨⟨fun h => hends ?_, nofun⟩, nofun⟩
        rw [hclose]
        exact congrArg _ (Except.error.inj h)
    | ok rest =>
        have := hlen rest hclose
        refine ⟨⟨nofun, fun found rest' h => ?_⟩, fun rest' h => ?_⟩
        · cases h
          simp only [List.length_cons]
          omega
        · cases h
          simp only [List.length_cons]
          omega
  · exact ⟨⟨nofun, nofun⟩, nofun⟩
  · refine ⟨⟨nofun, fun found rest' h => ?_⟩, fun rest' h => ?_⟩
    · cases h
      exact Nat.le_refl _
    · cases h

theorem takes_comments (rounds : ℕ) (s : Bytes) (h : s.length < rounds) :
    Takes 0 (consumeComments rounds) s := by
  induction rounds generalizing s with
  | zero => exact absurd h (Nat.not_lt_zero _)
  | succ rounds ih =>
      obtain ⟨hcomment, hfound⟩ := takes_comment s
      refine hcomment.bind fun found mid hrun hmid => ?_
      refine (takes_whitespace mid).bind fun _ mid' _ hmid' => ?_
      refine .ite (fun htrue => ih mid' ?_) fun _ => .pure ()
      have := hfound mid (htrue ▸ hrun)
      omega

theorem takes_garbage (s : Bytes) : Takes 0 (consumeGarbage strategy) s := by
  refine (takes_whitespace s).bind fun _ mid _ _ => .ite (fun _ => ?_) fun _ => .pure ()
  refine (takes_get mid).bind fun left mid' hleft _ => ?_
  cases hleft
  exact takes_comments _ mid (Nat.lt_succ_self _)

theorem takes_token (s : Bytes) : Takes 1 (getNextToken strategy) s :=
  (takes_garbage s).bind fun _ mid _ _ => takes_takeChar mid

theorem takes_chars (out : Bytes) (last : Option ℕ) (s : Bytes) :
    Takes 1 (parseChars out last) s := by
  change parseChars out last s ≠ _ ∧ ∀ (a rest : Bytes), parseChars out last s = _ → _
  -- a string goes on behind a plain character and behind an escape
  have hmore : ∀ {out : Bytes} {last : Option ℕ} {text s : Bytes}, text.length ≤ s.length →
      (parseChars out last text ≠ .error .endless ∧
        ∀ a rest : Bytes, parseChars out last text = .ok (a, rest) → rest.length + 1 ≤ text.length) →
      parseChars out last text ≠ .error .endless ∧
        ∀ a rest : Bytes, parseChars out last text = .ok (a, rest) → rest.length + 1 ≤ s.length :=
    fun hlen ih => ⟨ih.1, fun a rest h => Nat.le_trans (ih.2 a rest h) hlen⟩
  fun_induction parseChars out last s with
  | case1 => exact ⟨nofun, nofun⟩
  | case2 =>
      refine ⟨nofun, fun a rest h => ?_⟩
      cases h
      exact Nat.le_refl _
  | case3 => exact ⟨nofun, nofun⟩
  | case4 _ _ _ _ _ _ _ ih => exact hmore (Nat.le_succ _) ih
  | case5 => exact ⟨nofun, nofun⟩
  | case6 _ _ _ _ _ _ _ _ _ _ _ _ _ ih =>
      refine hmore ?_ ih
      simp only [List.length_cons]
      omega
  | case7 => exact ⟨nofun, nofun⟩
  | case8 => exact ⟨nofun, nofun⟩
  | case9 _ _ _ _ _ _ _ _ _ _ _ _ ih =>
      refine hmore ?_ ih
      simp only [List.length_cons]
      omega
  | case10 => exact ⟨nofun, nofun⟩

theorem length_dropWhile_lt {s : Bytes} (h : isDigit (current s) = true) :
    (s.dropWhile isDigit).length < s.length := by
  cases s with
  | nil => cases h
  | cons c s =>
      rw [List.dropWhile_cons_of_pos (show isDigit c = true from h)]
      exact Nat.lt_succ_of_le (List.dropWhile_suffix _).length_le

theorem takes_digits (s : Bytes) : Takes 1 parseDigits s := by
  change parseDigits s ≠ _ ∧ ∀ (a : Unit) (rest : Bytes), parseDigits s = _ → _
  unfold parseDigits
  split
  · rename_i hzero
    split
    · exact ⟨nofun, nofun⟩
    · refine ⟨nofun, fun a rest h => ?_⟩
      cases h
      cases s with
      | nil => exact absurd hzero (by decide)
      | cons c s => exact Nat.le_refl _
  · split
    · rename_i hdigit
      refine ⟨nofun, fun a rest h => ?_⟩
      cases h
      exact length_dropWhile_lt hdigit
    · exact ⟨nofun, nofun⟩

theorem takes_integer (s : Bytes) : Takes 1 parseInteger s := by
  have hsign : (if current s = 0x2D then s.drop 1 else s).length ≤ s.length := by
    split
    · exact (List.drop_suffix 1 s).length_le
    · exact Nat.le_refl _
  obtain ⟨hends, hlen⟩ := takes_digits (if current s = 0x2D then s.drop 1 else s)
  exact ⟨hends, fun a rest h => Nat.le_trans (hlen a rest h) hsign⟩

/-- The digits behind a mark, if there is one. -/
theorem takes_part {s : Bytes} {e : JsonError} (he : e ≠ .endless) {c : Prop} [Decidable c] {t : Bytes}
    (ht : t.length ≤ s.length) :
    (if c then (if isDigit (current t) then .ok ((), t.dropWhile isDigit) else .error e)
      else .ok ((), s) : Except JsonError (Unit × Bytes)) ≠ .error .endless ∧
    ∀ (a : Unit) (rest : Bytes),
      (if c then (if isDigit (current t) then .ok ((), t.dropWhile isDigit) else .error e)
        else .ok ((), s) : Except JsonError (Unit × Bytes)) = .ok (a, rest) →
      rest.length + 0 ≤ s.length := by
  split
  · split
    · refine ⟨nofun, fun a rest h => ?_⟩
      cases h
      exact Nat.le_trans (List.dropWhile_suffix _).length_le ht
    · exact ⟨fun h => he (Except.error.inj h), nofun⟩
  · refine ⟨nofun, fun a rest h => ?_⟩
    cases h
    exact Nat.le_refl _

theorem takes_fraction (s : Bytes) : Takes 0 parseFraction s :=
  takes_part (by decide) (List.drop_suffix 1 s).length_le

theorem takes_exponent (s : Bytes) : Takes 0 parseExponent s := by
  refine takes_part (by decide) ?_
  split
  · exact ((List.drop_suffix _ _).trans (List.drop_suffix 1 s)).length_le
  · exact (List.drop_suffix 1 s).length_le

theorem takes_number (s : Bytes) : Takes 1 (parseNumber d) s := by
  refine (takes_get s).bind fun _ mid _ _ => (takes_integer mid).bind fun _ mid' _ _ => ?_
  refine (takes_get mid').bind fun _ mid _ _ => .ite (fun _ => .pure _) fun _ => ?_
  exact (takes_fraction mid).bind fun _ mid _ _ => (takes_exponent mid).bind fun _ _ _ _ => .pure _

theorem takes_expect {expected : Bytes} (h : expected ≠ []) (res : Json δ) (s : Bytes) :
    Takes 1 (expect expected res) s := by
  change expect expected res s ≠ _ ∧ ∀ (a : Json δ) (rest : Bytes), expect expected res s = _ → _
  unfold expect
  split
  · rename_i hprefix
    refine ⟨nofun, fun a rest hrun => ?_⟩
    cases hrun
    have hlen := congrArg List.length hprefix
    have hpos := List.length_pos_of_ne_nil h
    rw [List.length_take] at hlen
    rw [List.length_drop]
    omega
  · exact ⟨nofun, nofun⟩

theorem takes_items (hvalue : ∀ s, Takes 1 value s) (rounds : ℕ) (data : List (Json δ)) (s : Bytes)
    (h : s.length < rounds) : Takes 1 (parseItems strategy value rounds data) s := by
  induction rounds generalizing data s with
  | zero => exact absurd h (Nat.not_lt_zero _)
  | succ rounds ih =>
      refine (hvalue s).bind fun item mid _ hmid => ?_
      refine (takes_token mid).mono (Nat.zero_le 1) |>.bind fun ch mid' _ hmid' => ?_
      refine .ite (fun _ => .pure _) fun _ => .ite (fun _ => takes_fail (by nofun) _ _) fun _ => ?_
      refine (takes_token mid').mono (Nat.zero_le 1) |>.bind fun ch mid'' htoken hmid'' => ?_
      have hshorter := (takes_token mid').2 ch mid'' htoken
      refine takes_back ?_
      refine (ih _ (ch :: mid'') ?_)
      rw [List.length_cons]
      omega

theorem takes_entries (hvalue : ∀ s, Takes 1 value s) (rounds : ℕ) (ch : UInt8)
    (data : List (Bytes × Json δ)) (s : Bytes) (h : s.length < rounds) :
    Takes 1 (parseEntries strategy value rounds ch data) s := by
  induction rounds generalizing ch data s with
  | zero => exact absurd h (Nat.not_lt_zero _)
  | succ rounds ih =>
      refine .ite (fun _ => takes_fail (by nofun) _ _) fun _ => ?_
      refine (takes_chars [] none s).bind fun key mid _ hmid => ?_
      refine (takes_token mid).mono (Nat.zero_le 1) |>.bind fun ch mid' _ hmid' => ?_
      refine .ite (fun _ => takes_fail (by nofun) _ _) fun _ => ?_
      refine (hvalue mid').mono (Nat.zero_le 1) |>.bind fun item mid'' _ hmid'' => ?_
      refine (takes_token mid'').mono (Nat.zero_le 1) |>.bind fun ch mid₃ _ hmid₃ => ?_
      refine .ite (fun _ => .pure _) fun _ => .ite (fun _ => takes_fail (by nofun) _ _) fun _ => ?_
      refine (takes_token mid₃).mono (Nat.zero_le 1) |>.bind fun ch mid₄ _ hmid₄ => ?_
      exact (ih ch _ mid₄ (by omega)).mono (Nat.zero_le 1)

/-- **Every value takes something**, and no loop has too few rounds. -/
theorem takes_json (levels : ℕ) (s : Bytes) : Takes 1 (parseJson strategy d levels) s := by
  induction levels generalizing s with
  | zero => exact takes_fail (by nofun) _ _
  | succ levels ih =>
      refine (takes_token s).bind fun ch mid _ _ => ?_
      refine .ite (fun _ => takes_back (takes_number _)) fun _ => ?_
      refine .ite (fun _ => takes_back (takes_expect (by decide) _ _)) fun _ => ?_
      refine .ite (fun _ => takes_back (takes_expect (by decide) _ _)) fun _ => ?_
      refine .ite (fun _ => takes_back (takes_expect (by decide) _ _)) fun _ => ?_
      refine .ite (fun _ => ?_) fun _ => .ite (fun _ => ?_) fun _ =>
        .ite (fun _ => ?_) fun _ => takes_fail (by nofun) _ _
      · rw [map_eq_pure_bind]
        exact (takes_chars [] none mid).mono (Nat.zero_le 1) |>.bind fun _ _ _ _ => .pure _
      · refine (takes_token mid).mono (Nat.zero_le 1) |>.bind fun ch mid' _ _ => ?_
        refine .ite (fun _ => .pure _) fun _ => (takes_get mid').bind fun left mid hleft _ => ?_
        cases hleft
        exact (takes_entries ih _ _ _ mid' (Nat.lt_succ_self _)).mono (Nat.zero_le 1) |>.bind
          fun _ _ _ _ => .pure _
      · refine (takes_token mid).mono (Nat.zero_le 1) |>.bind fun ch mid' _ _ => ?_
        refine .ite (fun _ => .pure _) fun _ => takes_back ?_
        refine (takes_get (ch :: mid')).bind fun left mid hleft _ => ?_
        cases hleft
        exact (takes_items ih _ _ (ch :: mid') (Nat.lt_succ_self _)).bind fun _ _ _ _ => .pure _

end JsonParser

namespace Json

open JsonParser

variable {δ : Type} {d : DoubleOps δ} {strategy : JsonParse} {v : Json δ} {input : Bytes}

/-- The loops of the parser end with the text. -/
theorem parse_ne_endless : parse d strategy input ≠ .error .endless := by
  have hjson : Takes 1 (parseJson strategy d (maxDepth + 1)) input := takes_json _ _
  rw [parse]
  cases hrun : (parseJson strategy d (maxDepth + 1)).run input with
  | error e => exact fun h => hjson.1 (hrun.trans (congrArg _ (Except.error.inj h)))
  | ok r =>
      obtain ⟨v, rest⟩ := r
      have hgarbage : Takes 0 (consumeGarbage strategy) rest := takes_garbage _
      show ((consumeGarbage strategy).run rest >>= _) ≠ _
      cases hrest : (consumeGarbage strategy).run rest with
      | error e => exact fun h => hgarbage.1 (hrest.trans (congrArg _ (Except.error.inj h)))
      | ok r =>
          obtain ⟨-, rest⟩ := r
          cases rest with
          | nil => exact nofun
          | cons c rest => exact nofun

/-- **What is accepted** is nested within the limit, its objects are sorted, and its
integers are short. -/
theorem parse_fits (h : parse d strategy input = .ok v) : v.Fits Short (maxDepth + 1) := by
  obtain ⟨⟨w, rest⟩, hrun, h⟩ := bind_eq_ok.mp h
  obtain ⟨⟨u, left⟩, hgarbage, h⟩ := bind_eq_ok.mp h
  cases left with
  | nil =>
      obtain rfl := pure_eq_ok.mp h
      exact fits_of_parseJson (maxDepth + 1) input w rest hrun
  | cons c left => cases h

mutual

/-- Short integers come back as they were. -/
theorem reread_eq {levels : ℕ} : ∀ v : Json δ, v.Fits Short levels → v.reread d = v
  | null, _ => by rw [reread]
  | double value, _ => by rw [reread]
  | int value, hv => by
      rw [reread]
      obtain h | ⟨_, h⟩ | ⟨_, h⟩ := hv.scalar_or
      · exact if_pos h
      · cases h
      · cases h
  | bool value, _ => by rw [reread]
  | string value, _ => by rw [reread]
  | array values, hv => by
      rw [reread]
      cases levels with
      | zero => exact hv.elim
      | succ levels => rw [rereadItems_eq values hv]
  | object values, hv => by
      rw [reread]
      cases levels with
      | zero => exact hv.elim
      | succ levels => rw [rereadEntries_eq values hv.2]

theorem rereadItems_eq {levels : ℕ} : ∀ values : List (Json δ),
    (∀ v ∈ values, v.Fits Short levels) → rereadItems d values = values
  | [], _ => by rw [rereadItems]
  | v :: values, h => by
      rw [rereadItems, reread_eq v (h v List.mem_cons_self),
        rereadItems_eq values fun w hw => h w (List.mem_cons_of_mem _ hw)]

theorem rereadEntries_eq {levels : ℕ} : ∀ values : List (Bytes × Json δ),
    (∀ e ∈ values, e.2.Fits Short levels) → rereadEntries d values = values
  | [], _ => by rw [rereadEntries]
  | (key, v) :: values, h => by
      rw [rereadEntries, reread_eq v (h (key, v) List.mem_cons_self),
        rereadEntries_eq values fun w hw => h w (List.mem_cons_of_mem _ hw)]

end

/-- **What is accepted** is nested within the limit, its objects are sorted, its integers
are short; and without doubles it is read again, the very same value, from the text it is
printed as. -/
theorem parse_normal (hd : d.ReadsInts) (h : parse d strategy input = .ok v) :
    v.Fits Short (maxDepth + 1) ∧ (v.Fits NotDouble (maxDepth + 1) →
      ∀ strategy', parse d strategy' (v.dump d) = .ok v) := by
  refine ⟨parse_fits h, fun hv strategy' => ?_⟩
  rw [parse_dump_eq hd hv, reread_eq v (parse_fits h)]

/-- `/**/{"b":-0 ,"a":null,"b":{}}`: a comment, a space, a key that comes twice and keys out of
their order. -/
def sampleText : Bytes :=
  [0x2F, 0x2A, 0x2A, 0x2F, 0x7B, 0x22, 0x62, 0x22, 0x3A, 0x2D, 0x30, 0x20, 0x2C, 0x22, 0x61, 0x22,
    0x3A, 0x6E, 0x75, 0x6C, 0x6C, 0x2C, 0x22, 0x62, 0x22, 0x3A, 0x7B, 0x7D, 0x7D]

theorem parse_normal_sample :
    (object [([0x61], null), ([0x62], object [])] : Json ℤ).Fits Short (maxDepth + 1) ∧
      ((object [([0x61], null), ([0x62], object [])] : Json ℤ).Fits NotDouble (maxDepth + 1) →
        ∀ strategy', parse wholeDoubles strategy'
          ((object [([0x61], null), ([0x62], object [])] : Json ℤ).dump wholeDoubles) =
            .ok (object [([0x61], null), ([0x62], object [])])) := by
  have h : parse wholeDoubles .comments sampleText =
      .ok (object [([0x61], null), ([0x62], object [])]) := by
    rfl
  exact parse_normal wholeDoubles_readsInts h

end Json

end Tgvoip
