import Tgvoip.Tools.Json11

/-!
# Json11RoundTrip — `parse` reads what `dump` writes

Strings come back byte by byte, whatever bytes they are (`reads_dumpString`),
and integers as `int`s up to nine characters, as `double`s beyond (`reread`).
`Fits` is what a value needs besides: nesting within the limit of the parser,
keys in their order, and no `double`, of which `dump` keeps six digits only.
-/

namespace Tgvoip

open ByteReader (Bytes)
open TextParser Fallible

namespace JsonParser

variable {δ : Type}

/-! ## Strings -/

theorem hexDigit_spec : ∀ d < 16, isHexDigit (Json.hexDigit d) = true ∧
    hexValue (Json.hexDigit d) = d := by decide

theorem pairUp_of_lt (last : Option ℕ) {codepoint : ℕ} (h : codepoint < 0xDC00) :
    pairUp last codepoint = (encodeUtf8 last, some codepoint) := by
  cases last with
  | none => rfl
  | some lead =>
      have hno : ¬ 0xDC00 ≤ codepoint := Nat.not_le.mpr h
      simp [pairUp, hno]

/-- A `\u` escape below the surrogates. -/
theorem parseChars_escape (out : Bytes) (last : Option ℕ) {a b c d : UInt8} (rest : Bytes)
    (hhex : [a, b, c, d].all isHexDigit = true) (hlow : readHex [a, b, c, d] < 0xDC00) :
    parseChars out last ([0x5C, 0x75, a, b, c, d] ++ rest) =
      parseChars (out ++ encodeUtf8 last) (some (readHex [a, b, c, d])) rest := by
  show parseChars out last (0x5C :: 0x75 :: a :: b :: c :: d :: rest) = _
  rw [parseChars]
  simp only [hhex, pairUp_of_lt last hlow]
  rfl

/-- An escape of one character. -/
theorem parseChars_short (out : Bytes) (last : Option ℕ) {ch byte : UInt8} (rest : Bytes)
    (hch : ch ≠ 0x75) (hbyte : unescape ch = some byte) :
    parseChars out last ([0x5C, ch] ++ rest) =
      parseChars (out ++ encodeUtf8 last ++ [byte]) none rest := by
  show parseChars out last (0x5C :: ch :: rest) = _
  rw [parseChars]
  · simp only [hbyte, if_neg hch]
    rfl
  · intro a b c d more h
    exact absurd h hch

theorem parseChars_plain (out : Bytes) (last : Option ℕ) {ch : UInt8} (rest : Bytes)
    (hquote : ch ≠ 0x22) (hback : ch ≠ 0x5C) (hlow : ¬ ch ≤ 0x1f) :
    parseChars out last ([ch] ++ rest) = parseChars (out ++ encodeUtf8 last ++ [ch]) none rest := by
  show parseChars out last (ch :: rest) = _
  rw [parseChars.eq_def]
  simp only [if_neg hquote, if_neg hlow, if_pos hback]

/-- **One byte**: what is written for it adds it to what was read, at once or when the
next one comes. -/
theorem parseChars_dumpChar (out : Bytes) (last : Option ℕ) (ch : UInt8) (rest : Bytes) :
    ∃ out' last', parseChars out last (Json.dumpChar ch ++ rest) = parseChars out' last' rest ∧
      out' ++ encodeUtf8 last' = out ++ encodeUtf8 last ++ [ch] := by
  have hshort : ∀ {esc byte : UInt8}, esc ≠ 0x75 → unescape esc = some byte → ch = byte →
      ∃ out' last', parseChars out last ([0x5C, esc] ++ rest) = parseChars out' last' rest ∧
        out' ++ encodeUtf8 last' = out ++ encodeUtf8 last ++ [ch] := by
    rintro esc byte hesc hbyte rfl
    exact ⟨_, _, parseChars_short out last rest hesc hbyte, List.append_nil _⟩
  unfold Json.dumpChar
  split_ifs with hback hquote hb hf hn hr ht hlow
  · exact hshort (by decide) rfl hback
  · exact hshort (by decide) rfl hquote
  · exact hshort (by decide) rfl hb
  · exact hshort (by decide) rfl hf
  · exact hshort (by decide) rfl hn
  · exact hshort (by decide) rfl hr
  · exact hshort (by decide) rfl ht
  · -- a control character is below the first page of UTF-8
    have hlt : ch.toNat < 0x20 := Nat.lt_succ_of_le (UInt8.le_iff_toNat_le.mp hlow)
    obtain ⟨hhigh, hhighValue⟩ := hexDigit_spec (ch.toNat / 16) (by omega)
    obtain ⟨hlow, hlowValue⟩ := hexDigit_spec (ch.toNat % 16) (by omega)
    have hread : readHex [0x30, 0x30, Json.hexDigit (ch.toNat / 16), Json.hexDigit (ch.toNat % 16)] =
        ch.toNat := by
      simp only [readHex, List.foldl_cons, List.foldl_nil, hhighValue, hlowValue]
      show 16 * (16 * 0 + ch.toNat / 16) + ch.toNat % 16 = ch.toNat
      omega
    have hhex : [0x30, 0x30, Json.hexDigit (ch.toNat / 16), Json.hexDigit (ch.toNat % 16)].all
        isHexDigit = true := by
      simp [hhigh, hlow]
      decide
    refine ⟨_, _, parseChars_escape out last rest hhex (by omega), ?_⟩
    rw [hread, encodeUtf8, if_pos (by omega), UInt8.ofNat_toNat]
  · exact ⟨_, _, parseChars_plain out last rest hquote hback hlow, List.append_nil _⟩

theorem parseChars_quote (out : Bytes) (last : Option ℕ) (rest : Bytes) :
    parseChars out last (0x22 :: rest) = .ok (out ++ encodeUtf8 last, rest) := by
  rw [parseChars.eq_def]
  rfl

/-- **A string comes back**, with what was escaped before it. -/
theorem parseChars_dumpChars (value : Bytes) (out : Bytes) (last : Option ℕ) (rest : Bytes) :
    parseChars out last (Json.dumpChars value ++ 0x22 :: rest) =
      .ok (out ++ encodeUtf8 last ++ value, rest) := by
  have hbyte : ∀ (a : UInt8) (more : Bytes) (out : Bytes) (last : Option ℕ),
      (∀ out last, parseChars out last (Json.dumpChars more ++ 0x22 :: rest) =
        .ok (out ++ encodeUtf8 last ++ more, rest)) →
      parseChars out last (Json.dumpChar a ++ Json.dumpChars more ++ 0x22 :: rest) =
        .ok (out ++ encodeUtf8 last ++ a :: more, rest) := by
    intro a more out last ih
    obtain ⟨out', last', hparse, hout⟩ :=
      parseChars_dumpChar out last a (Json.dumpChars more ++ 0x22 :: rest)
    rw [List.append_assoc, hparse, ih, hout, List.append_assoc]
    rfl
  have hseparator : ∀ (c : UInt8) (more : Bytes) (out : Bytes) (last : Option ℕ),
      readHex [0x32, 0x30, 0x32, c] < 0xDC00 → isHexDigit c = true →
      (∀ out last, parseChars out last (Json.dumpChars more ++ 0x22 :: rest) =
        .ok (out ++ encodeUtf8 last ++ more, rest)) →
      parseChars out last ([0x5C, 0x75, 0x32, 0x30, 0x32, c] ++ Json.dumpChars more ++ 0x22 :: rest) =
        .ok (out ++ encodeUtf8 last ++ (encodeUtf8 (some (readHex [0x32, 0x30, 0x32, c])) ++ more),
          rest) := by
    intro c more out last hlow hhex ih
    have hall : [0x32, 0x30, 0x32, c].all isHexDigit = true := by
      simp [hhex]
      decide
    rw [List.append_assoc, parseChars_escape out last _ hall hlow, ih]
    simp only [List.append_assoc]
  induction value using Json.dumpChars.induct generalizing out last with
  | case1 => simp [Json.dumpChars, parseChars_quote]
  | case2 a =>
      have hend := hbyte a [] out last fun out last => by simp [Json.dumpChars, parseChars_quote]
      simpa [Json.dumpChars] using hend
  | case3 a b ih => exact hbyte a [b] out last ih
  | case4 a b c more h ih =>
      simp only [Bool.and_eq_true, decide_eq_true_eq] at h
      obtain ⟨⟨rfl, rfl⟩, rfl⟩ := h
      exact hseparator 0x38 more out last (by decide) (by decide) ih
  | case5 a b c more h h' ih =>
      simp only [Bool.and_eq_true, decide_eq_true_eq] at h'
      obtain ⟨⟨rfl, rfl⟩, rfl⟩ := h'
      exact hseparator 0x39 more out last (by decide) (by decide) ih
  | case6 a b c more h h' ih =>
      rw [Json.dumpChars, if_neg h, if_neg h']
      exact hbyte a (b :: c :: more) out last ih

/-- Anything may follow a string. -/
theorem reads_dumpChars (value : Bytes) :
    Reads parseString Always (Json.dumpChars value ++ [0x22]) value := by
  intro rest _
  rw [List.append_assoc]
  exact parseChars_dumpChars value [] none rest

/-! ## Numbers -/

/-- What may stand behind a number. -/
def EndsNumber (rest : Bytes) : Prop :=
  isDigit (current rest) = false ∧ current rest ≠ 0x2E ∧ current rest ≠ 0x65 ∧ current rest ≠ 0x45

theorem EndsNumber.head? {rest : Bytes} (h : EndsNumber rest) (c : UInt8)
    (hc : rest.head? = some c) : isDigit c = false := by
  cases rest with
  | nil => cases hc
  | cons a rest =>
      cases hc
      exact h.1

theorem isDigit_ne {c : UInt8} (h : isDigit c = true) : c ≠ 0x2D := by
  rintro rfl
  exact absurd h (by decide)

theorem run_parseInteger {v : Int32} {rest : Bytes} (hrest : EndsNumber rest) :
    parseInteger.run (Json.dumpInt v ++ rest) = .ok ((), rest) := by
  obtain ⟨c, text, htext, hdigit, hzero⟩ := decimal_eq_cons v.toInt.natAbs
  have hsign : (if current (Json.dumpInt v ++ rest) = 0x2D then (Json.dumpInt v ++ rest).drop 1
      else Json.dumpInt v ++ rest) = decimal v.toInt.natAbs ++ rest := by
    unfold Json.dumpInt
    by_cases hneg : v.toInt < 0
    · rw [if_pos hneg]
      exact if_pos rfl
    · rw [if_neg hneg, if_neg]
      rw [htext]
      exact isDigit_ne hdigit
  have hdrop := (dropWhile_isDigit (isDigit_decimal v.toInt.natAbs) hrest.head?).1
  show parseDigits (if _ then _ else _) = _
  rw [hsign, parseDigits]
  by_cases hc : c = 0x30
  · obtain rfl := hzero hc
    rw [htext, hc]
    show (if isDigit (current rest) = true then _ else Except.ok ((), rest)) = _
    rw [hrest.1]
    rfl
  · rw [hdrop]
    rw [htext]
    show (if c = 0x30 then _ else if isDigit c = true then _ else _) = _
    rw [if_neg hc, if_pos hdigit]

theorem atoi_dumpInt {v : Int32} {rest : Bytes} (hrest : EndsNumber rest) :
    atoi (Json.dumpInt v ++ rest) = v.toInt := by
  obtain ⟨c, text, htext, hdigit, -⟩ := decimal_eq_cons v.toInt.natAbs
  have htake := (dropWhile_isDigit (isDigit_decimal v.toInt.natAbs) hrest.head?).2
  unfold Json.dumpInt
  by_cases hneg : v.toInt < 0
  · rw [if_pos hneg]
    show (if (0x2D : UInt8) = 0x2D then -(readDecimal
      ((decimal v.toInt.natAbs ++ rest).takeWhile isDigit) : ℤ) else _) = _
    rw [if_pos rfl, htake, readDecimal_decimal]
    omega
  · have hplus : current (decimal v.toInt.natAbs ++ rest) ≠ 0x2D := by
      rw [htext]
      exact isDigit_ne hdigit
    rw [if_neg hneg, atoi, if_neg hplus, htake, readDecimal_decimal]
    omega

end JsonParser

/-! ## Values -/

namespace Json

variable {δ : Type}

mutual

/-- What comes back of a value: integers of more than nine characters as doubles. -/
def reread (d : DoubleOps δ) : Json δ → Json δ
  | null => null
  | double value => double value
  | int value => if (dumpInt value).length ≤ 9 then int value else double (d.ofInt value)
  | bool value => bool value
  | string value => string value
  | array values => array (rereadItems d values)
  | object values => object (rereadEntries d values)

def rereadItems (d : DoubleOps δ) : List (Json δ) → List (Json δ)
  | [] => []
  | value :: values => reread d value :: rereadItems d values

def rereadEntries (d : DoubleOps δ) : List (Bytes × Json δ) → List (Bytes × Json δ)
  | [] => []
  | (key, value) :: values => (key, reread d value) :: rereadEntries d values

end

/-- The keys of a `std::map`, in their order. -/
def Sorted (values : List (Bytes × Json δ)) : Prop :=
  values.Pairwise fun a b => JsonObject.keyLt a.1 b.1 = true

/-- The value is nested in no more than so many levels, its objects are sorted, and what
is no list and no object is as `scalar` says. -/
def Fits (scalar : Json δ → Prop) : ℕ → Json δ → Prop
  | 0, _ => False
  | levels + 1, array values => ∀ value ∈ values, Fits scalar levels value
  | levels + 1, object values =>
    Sorted values ∧ ∀ entry ∈ values, Fits scalar levels entry.2
  | _ + 1, value => scalar value

def NotDouble : Json δ → Prop
  | double _ => False
  | _ => True

theorem Fits.scalar_or {scalar : Json δ → Prop} {levels : ℕ} {v : Json δ}
    (h : v.Fits scalar levels) :
    scalar v ∨ (∃ values, v = array values) ∨ ∃ values, v = object values := by
  cases levels with
  | zero => exact h.elim
  | succ levels =>
      cases v with
      | array values => exact .inr (.inl ⟨values, rfl⟩)
      | object values => exact .inr (.inr ⟨values, rfl⟩)
      | _ => exact .inl h

theorem Fits.notDouble {levels : ℕ} {v : Json δ} (h : v.Fits NotDouble levels) : v.NotDouble := by
  obtain h | ⟨values, rfl⟩ | ⟨values, rfl⟩ := h.scalar_or
  · exact h
  · trivial
  · trivial

end Json

/-- What an integer prints as is read as its value. -/
def DoubleOps.ReadsInts {δ : Type} (d : DoubleOps δ) : Prop :=
  ∀ (v : Int32) (rest : Bytes), JsonParser.EndsNumber rest →
    d.scan (Json.dumpInt v ++ rest) = d.ofInt v

namespace JsonParser

variable {δ : Type} {d : DoubleOps δ} {strategy : JsonParse}

/-- **An integer comes back**, as an `int` or as a `double`. -/
theorem reads_dumpInt (hd : d.ReadsInts) (v : Int32) :
    Reads (parseNumber d) EndsNumber (Json.dumpInt v) (Json.reread d (.int v)) := by
  intro rest hrest
  have hlen : (Json.dumpInt v ++ rest).length - rest.length = (Json.dumpInt v).length := by
    rw [List.length_append, Nat.add_sub_cancel]
  obtain ⟨-, hdot, hlower, hupper⟩ := id hrest
  unfold parseNumber
  rw [run_bind_ok (show (get : Scanner Bytes).run _ = .ok (_, _) from rfl),
    run_bind_ok (run_parseInteger hrest), run_bind_ok (show (get : Scanner Bytes).run _ = .ok (_, _) from rfl)]
  simp only [hdot, hlower, hupper, hlen, ne_eq, not_false_eq_true, decide_true, Bool.true_and,
    decide_eq_true_eq, Json.reread]
  by_cases hshort : (Json.dumpInt v).length ≤ 9
  · rw [if_pos hshort, if_pos hshort, atoi_dumpInt hrest, Int32.ofInt_toInt]
    rfl
  · rw [if_neg hshort, if_neg hshort]
    have hfraction : parseFraction.run rest = .ok ((), rest) := if_neg hdot
    have hexponent : parseExponent.run rest = .ok ((), rest) := by
      show (if (decide _ || decide _) = true then _ else _) = _
      rw [decide_eq_false hlower, decide_eq_false hupper]
      rfl
    rw [run_bind_ok hfraction, run_bind_ok hexponent, hd v rest hrest]
    rfl

/-! ## Tokens -/

/-- What `dump` puts in front of a token. -/
def Spaced (space : Bytes) : Prop := space = [] ∨ space = [0x20]

/-- The character starts a token. -/
def StartsToken (c : UInt8) : Prop := isSpace c = false ∧ c ≠ 0x2F

instance : DecidablePred StartsToken := fun _ => inferInstanceAs (Decidable (_ ∧ _))

theorem run_consumeComments {c : UInt8} (hc : StartsToken c) (rounds : ℕ) (text : Bytes) :
    (consumeComments (rounds + 1)).run (c :: text) = .ok ((), c :: text) := by
  have hnone : consumeComment.run (c :: text) = .ok (false, c :: text) := by
    show consumeComment (c :: text) = _
    unfold consumeComment
    split
    · rename_i h
      exact absurd (List.cons.inj h).1 hc.2
    · rename_i h
      exact absurd (List.cons.inj h).1 hc.2
    · rename_i h
      exact absurd (List.cons.inj h).1 hc.2
    · rename_i h
      exact absurd (List.cons.inj h).1 hc.2
    · rfl
  have hspace : consumeWhitespace.run (c :: text) = .ok ((), c :: text) := by
    show Except.ok ((), (c :: text).dropWhile isSpace) = _
    rw [List.dropWhile_cons, hc.1]
    rfl
  rw [consumeComments, run_bind_ok hnone, run_bind_ok hspace]
  rfl

theorem run_consumeGarbage {space : Bytes} {c : UInt8} (hspace : Spaced space) (hc : StartsToken c)
    (text : Bytes) : (consumeGarbage strategy).run (space ++ c :: text) = .ok ((), c :: text) := by
  have hdrop : consumeWhitespace.run (space ++ c :: text) = .ok ((), c :: text) := by
    show Except.ok ((), (space ++ c :: text).dropWhile isSpace) = _
    have hstop : (c :: text).dropWhile isSpace = c :: text := by
      rw [List.dropWhile_cons, hc.1]
      rfl
    rcases hspace with rfl | rfl
    · rw [List.nil_append, hstop]
    · rw [List.singleton_append, List.dropWhile_cons, show isSpace 0x20 = true from rfl, if_pos rfl,
        hstop]
  rw [consumeGarbage, run_bind_ok hdrop]
  cases strategy with
  | standard => rfl
  | comments => exact run_consumeComments hc _ text

theorem run_getNextToken {space : Bytes} {c : UInt8} (hspace : Spaced space) (hc : StartsToken c)
    (text : Bytes) : (getNextToken strategy).run (space ++ c :: text) = .ok (c, text) := by
  rw [getNextToken, run_bind_ok (run_consumeGarbage hspace hc text)]
  rfl

/-- A token of its own, with nothing in front. -/
theorem run_getNextToken_cons {c : UInt8} (hc : StartsToken c) (text : Bytes) :
    (getNextToken strategy).run (c :: text) = .ok (c, text) := run_getNextToken (.inl rfl) hc text

theorem run_getNextToken_space {c : UInt8} (hc : StartsToken c) (text : Bytes) :
    (getNextToken strategy).run (0x20 :: c :: text) = .ok (c, text) :=
  run_getNextToken (.inr rfl) hc text

theorem run_back (c : UInt8) (text : Bytes) : (back c).run text = .ok ((), c :: text) := rfl

/-- The character of a digit or a sign. -/
def startsNumber (c : UInt8) : Bool := c = 0x2D || isDigit c

theorem StartsToken.of_number {c : UInt8} (h : startsNumber c = true) : StartsToken c := by
  constructor
  · rw [Bool.eq_false_iff]
    intro hspace
    simp only [isSpace, Bool.or_eq_true, decide_eq_true_eq] at hspace
    obtain ((rfl | rfl) | rfl) | rfl := hspace <;> exact absurd h (by decide)
  · rintro rfl
    exact absurd h (by decide)

theorem dumpInt_eq_cons (v : Int32) : ∃ c text, Json.dumpInt v = c :: text ∧
    startsNumber c = true := by
  unfold Json.dumpInt
  split
  · exact ⟨_, _, rfl, rfl⟩
  · obtain ⟨c, text, htext, hdigit, -⟩ := decimal_eq_cons v.toInt.natAbs
    exact ⟨c, text, htext, by rw [startsNumber, hdigit, Bool.or_true]⟩

/-- A value starts with a token, which does not close a list. -/
theorem dump_eq_cons {v : Json δ} (hv : v.NotDouble) :
    ∃ c text, v.dump d = c :: text ∧ StartsToken c ∧ c ≠ 0x5D := by
  cases v with
  | null => exact ⟨_, _, by rw [Json.dump]; rfl, by decide, by decide⟩
  | double value => exact hv.elim
  | int value =>
      obtain ⟨c, text, htext, hnumber⟩ := dumpInt_eq_cons value
      refine ⟨c, text, by rw [Json.dump, htext], .of_number hnumber, ?_⟩
      rintro rfl
      exact absurd hnumber (by decide)
  | bool value =>
      cases value with
      | true => exact ⟨_, _, by rw [Json.dump]; rfl, by decide, by decide⟩
      | false => exact ⟨_, _, by rw [Json.dump]; rfl, by decide, by decide⟩
  | string value => exact ⟨_, _, by rw [Json.dump]; rfl, by decide, by decide⟩
  | array values => exact ⟨_, _, by rw [Json.dump]; rfl, by decide, by decide⟩
  | object values => exact ⟨_, _, by rw [Json.dump]; rfl, by decide, by decide⟩

/-! ## Lists -/

variable {value : Scanner (Json δ)}

/-- The value is read in front of what ends a number, with a space or without. -/
def ReadsValue (d : DoubleOps δ) (value : Scanner (Json δ)) (v : Json δ) : Prop :=
  ∀ space, Spaced space → Reads value EndsNumber (space ++ v.dump d) (v.reread d)

theorem EndsNumber.cons {c : UInt8}
    (h : isDigit c = false ∧ c ≠ 0x2E ∧ c ≠ 0x65 ∧ c ≠ 0x45) (rest : Bytes) :
    EndsNumber (c :: rest) := h

/-- **The loop over a list**: it needs a round for each value. -/
theorem run_parseItems (strategy : JsonParse) (v : Json δ) (vs : List (Json δ)) (data : List (Json δ)) {rounds : ℕ}
    (hrounds : vs.length < rounds) (hvalue : ∀ w ∈ v :: vs, w.NotDouble ∧ ReadsValue d value w)
    (rest : Bytes) :
    (parseItems strategy value rounds data).run
        (Json.dumpItems d true (v :: vs) ++ 0x5D :: rest) =
      .ok (data ++ Json.rereadItems d (v :: vs), rest) := by
  induction vs generalizing v data rounds with
  | nil =>
      obtain ⟨rounds, rfl⟩ := Nat.exists_eq_succ_of_ne_zero (Nat.ne_zero_of_lt hrounds)
      have hv := (hvalue v List.mem_cons_self).2 [] (.inl rfl) (0x5D :: rest) (.cons (by decide) rest)
      rw [List.nil_append] at hv
      simp only [Json.dumpItems, Json.separator, if_true, List.nil_append, List.append_nil]
      rw [parseItems, run_bind_ok hv, run_bind_ok (run_getNextToken_cons (by decide) rest)]
      rfl
  | cons w ws ih =>
      obtain ⟨rounds, rfl⟩ := Nat.exists_eq_succ_of_ne_zero (Nat.ne_zero_of_lt hrounds)
      -- behind the comma stands the next value
      obtain ⟨c, text, htext, hc, -⟩ := dump_eq_cons (d := d)
        (hvalue w (List.mem_cons_of_mem _ List.mem_cons_self)).1
      have hnext := ih w (data ++ [v.reread d]) (Nat.lt_of_succ_lt_succ hrounds)
        (fun u hu => hvalue u (List.mem_cons_of_mem _ hu))
      have hitems : Json.dumpItems d true (w :: ws) =
          c :: (text ++ Json.dumpItems d false ws) := by
        simp only [Json.dumpItems, Json.separator, if_true, List.nil_append, htext, List.cons_append]
      have hrest : Json.dumpItems d true (v :: w :: ws) ++ 0x5D :: rest = v.dump d ++
          0x2C :: 0x20 :: (Json.dumpItems d true (w :: ws) ++ 0x5D :: rest) := by
        simp [Json.dumpItems, Json.separator]
      have hv := (hvalue v List.mem_cons_self).2 [] (.inl rfl)
        (0x2C :: 0x20 :: (Json.dumpItems d true (w :: ws) ++ 0x5D :: rest)) (.cons (by decide) _)
      rw [List.nil_append] at hv
      rw [hrest, parseItems, run_bind_ok hv, run_bind_ok (run_getNextToken_cons (by decide) _)]
      simp only [if_neg (show ¬ (0x2C : UInt8) = 0x5D by decide), ne_eq, not_true_eq_false, if_false]
      rw [hitems, List.cons_append] at hnext ⊢
      rw [run_bind_ok (run_getNextToken_space hc _), run_bind_ok (run_back c _), hnext]
      simp only [Json.rereadItems, List.append_assoc, List.singleton_append]

/-! ## Objects -/

theorem keyLt_asymm : ∀ {a b : Bytes}, JsonObject.keyLt a b = true →
    JsonObject.keyLt b a = false ∧ a ≠ b
  | [], [], h => by cases h
  | [], _ :: _, _ => ⟨rfl, nofun⟩
  | _ :: _, [], h => by cases h
  | a :: as, b :: bs, h => by
      simp only [JsonObject.keyLt, Bool.or_eq_true, Bool.and_eq_true, decide_eq_true_eq] at h ⊢
      rcases h with hlt | ⟨rfl, h⟩
      · have hne : a ≠ b := fun heq => absurd (heq ▸ hlt) (UInt8.lt_irrefl b)
        refine ⟨?_, fun heq => hne (List.cons.inj heq).1⟩
        rw [Bool.or_eq_false_iff, decide_eq_false_iff_not, Bool.and_eq_false_iff,
          decide_eq_false_iff_not]
        exact ⟨UInt8.lt_asymm hlt, .inl (Ne.symm hne)⟩
      · obtain ⟨hasymm, hne⟩ := keyLt_asymm h
        refine ⟨?_, fun heq => hne (List.cons.inj heq).2⟩
        rw [Bool.or_eq_false_iff, decide_eq_false_iff_not, hasymm, Bool.and_false]
        exact ⟨UInt8.lt_irrefl a, rfl⟩

/-- A key behind all others is put behind them. -/
theorem insert_last {α : Type} (data : List (Bytes × α)) {key : Bytes} (value : α)
    (h : ∀ e ∈ data, JsonObject.keyLt e.1 key = true) :
    JsonObject.insert data key value = data ++ [(key, value)] := by
  induction data with
  | nil => rfl
  | cons e data ih =>
      obtain ⟨hasymm, hne⟩ := keyLt_asymm (h e List.mem_cons_self)
      rw [JsonObject.insert, hasymm, if_neg Bool.false_ne_true, if_neg (Ne.symm hne),
        ih fun e he => h e (List.mem_cons_of_mem _ he)]
      rfl

/-- One entry, behind its first quote, and the token behind it. -/
theorem run_parseEntry {key : Bytes} {v : Json δ} (data : List (Bytes × Json δ)) (rounds : ℕ)
    (hvalue : ReadsValue d value v) (hdata : ∀ a ∈ data, JsonObject.keyLt a.1 key = true) {c : UInt8}
    (more : Bytes) (hc : StartsToken c) (hend : EndsNumber (c :: more)) :
    (parseEntries strategy value (rounds + 1) 0x22 data).run
        (Json.dumpChars key ++ 0x22 :: 0x3A :: 0x20 :: (v.dump d ++ c :: more)) =
      (if c = 0x7D then pure (data ++ [(key, v.reread d)])
        else if c ≠ 0x2C then fail (.expectedCommaInObject c)
        else do
          let ch ← getNextToken strategy
          parseEntries strategy value rounds ch (data ++ [(key, v.reread d)]) :
            Scanner (List (Bytes × Json δ))).run more := by
  have hkey : parseString.run (Json.dumpChars key ++ 0x22 :: 0x3A :: 0x20 :: (v.dump d ++ c :: more)) =
      .ok (key, 0x3A :: 0x20 :: (v.dump d ++ c :: more)) := parseChars_dumpChars key [] none _
  have hv : value.run (0x20 :: (v.dump d ++ c :: more)) = .ok (v.reread d, c :: more) :=
    hvalue [0x20] (.inr rfl) (c :: more) hend
  rw [parseEntries, if_neg (not_not.mpr rfl), run_bind_ok hkey,
    run_bind_ok (run_getNextToken_cons (by decide) _), if_neg (not_not.mpr rfl), run_bind_ok hv]
  simp only [insert_last data (v.reread d) hdata]
  rw [run_bind_ok (run_getNextToken_cons hc more)]

/-- **The loop over an object**, whose first quote was read already. -/
theorem run_parseEntries (strategy : JsonParse) (e : Bytes × Json δ) (es : List (Bytes × Json δ))
    (data : List (Bytes × Json δ)) {rounds : ℕ} (hrounds : es.length < rounds)
    (hvalue : ∀ f ∈ e :: es, ReadsValue d value f.2) (hsorted : Json.Sorted (e :: es))
    (hdata : ∀ a ∈ data, ∀ b ∈ e :: es, JsonObject.keyLt a.1 b.1 = true) (rest : Bytes) :
    ∃ text, Json.dumpEntries d true (e :: es) ++ 0x7D :: rest = 0x22 :: text ∧
      (parseEntries strategy value rounds 0x22 data).run text =
        .ok (data ++ Json.rereadEntries d (e :: es), rest) := by
  induction es generalizing e data rounds with
  | nil =>
      obtain ⟨rounds, rfl⟩ := Nat.exists_eq_succ_of_ne_zero (Nat.ne_zero_of_lt hrounds)
      obtain ⟨key, v⟩ := e
      refine ⟨Json.dumpChars key ++ 0x22 :: 0x3A :: 0x20 :: (v.dump d ++ 0x7D :: rest), ?_, ?_⟩
      · simp [Json.dumpEntries, Json.separator, Json.dumpString]
      · rw [run_parseEntry data rounds (hvalue _ List.mem_cons_self)
          (fun a ha => hdata a ha _ List.mem_cons_self) rest (by decide) (.cons (by decide) rest)]
        rfl
  | cons f es ih =>
      obtain ⟨rounds, rfl⟩ := Nat.exists_eq_succ_of_ne_zero (Nat.ne_zero_of_lt hrounds)
      obtain ⟨key, v⟩ := e
      obtain ⟨hfirst, hsorted⟩ := List.pairwise_cons.mp hsorted
      -- behind the comma stands the next entry
      obtain ⟨text, htext, hnext⟩ := ih f (data ++ [(key, v.reread d)])
        (Nat.lt_of_succ_lt_succ hrounds) (fun g hg => hvalue g (List.mem_cons_of_mem _ hg)) hsorted
        (by
          intro a ha b hb
          rcases List.mem_append.mp ha with ha | ha
          · exact hdata a ha b (List.mem_cons_of_mem _ hb)
          · rw [List.mem_singleton.mp ha]
            exact hfirst b hb)
      refine ⟨Json.dumpChars key ++ 0x22 :: 0x3A :: 0x20 :: (v.dump d ++ 0x2C :: 0x20 :: 0x22 :: text),
        ?_, ?_⟩
      · rw [← htext]
        simp [Json.dumpEntries, Json.separator, Json.dumpString]
      · rw [run_parseEntry data rounds (hvalue _ List.mem_cons_self)
          (fun a ha => hdata a ha _ List.mem_cons_self) _ (by decide) (.cons (by decide) _)]
        simp only [if_neg (show ¬ (0x2C : UInt8) = 0x7D by decide), ne_eq, not_true_eq_false, if_false]
        rw [run_bind_ok (run_getNextToken_space (by decide) text), hnext]
        simp only [Json.rereadEntries, List.append_assoc, List.singleton_append]

/-! ## Values -/

theorem length_le_dumpItems (d : DoubleOps δ) (first : Bool) (values : List (Json δ))
    (h : ∀ v ∈ values, v.NotDouble) : values.length ≤ (Json.dumpItems d first values).length := by
  induction values generalizing first with
  | nil => exact Nat.zero_le _
  | cons v values ih =>
      have hrest := ih false fun w hw => h w (List.mem_cons_of_mem _ hw)
      obtain ⟨c, text, htext, -⟩ := dump_eq_cons (d := d) (h v List.mem_cons_self)
      simp only [Json.dumpItems, List.length_append, List.length_cons, htext]
      omega

theorem length_le_dumpEntries (d : DoubleOps δ) (first : Bool) (values : List (Bytes × Json δ)) :
    values.length ≤ (Json.dumpEntries d first values).length := by
  induction values generalizing first with
  | nil => exact Nat.zero_le _
  | cons e values ih =>
      have hrest := ih false
      simp only [Json.dumpEntries, Json.dumpString, List.length_append, List.length_cons]
      omega

theorem run_parseItems_dump (strategy : JsonParse) {v : Json δ} {vs : List (Json δ)}
    (hvalue : ∀ w ∈ v :: vs, w.NotDouble ∧ ReadsValue d value w) (rest : Bytes) :
    (parseList strategy value).run (Json.dumpItems d true (v :: vs) ++ 0x5D :: rest) =
      .ok (.array (Json.rereadItems d (v :: vs)), rest) := by
  obtain ⟨c, text, htext, hc, hopen⟩ := dump_eq_cons (d := d) (hvalue v List.mem_cons_self).1
  have hitems : Json.dumpItems d true (v :: vs) ++ 0x5D :: rest =
      c :: (text ++ Json.dumpItems d false vs ++ 0x5D :: rest) := by
    simp [Json.dumpItems, Json.separator, htext]
  have hlen := length_le_dumpItems d true (v :: vs) fun w hw => (hvalue w hw).1
  have hrounds : vs.length < (Json.dumpItems d true (v :: vs) ++ 0x5D :: rest).length + 1 := by
    rw [List.length_append]
    rw [List.length_cons] at hlen
    omega
  have hloop := run_parseItems strategy v vs [] hrounds hvalue rest
  rw [hitems] at hloop ⊢
  rw [parseList, run_bind_ok (run_getNextToken_cons hc _), if_neg hopen, run_bind_ok (run_back c _),
    run_bind_ok (show (get : Scanner Bytes).run _ = .ok (_, _) from rfl), run_bind_ok hloop]
  rfl

theorem run_parseObject_dump (strategy : JsonParse) {e : Bytes × Json δ} {es : List (Bytes × Json δ)}
    (hvalue : ∀ f ∈ e :: es, ReadsValue d value f.2) (hsorted : Json.Sorted (e :: es)) (rest : Bytes) :
    (parseObject strategy value).run (Json.dumpEntries d true (e :: es) ++ 0x7D :: rest) =
      .ok (.object (Json.rereadEntries d (e :: es)), rest) := by
  have hlen := length_le_dumpEntries d true (e :: es)
  have hrounds : es.length < (Json.dumpEntries d true (e :: es) ++ 0x7D :: rest).length := by
    rw [List.length_append]
    rw [List.length_cons] at hlen
    omega
  obtain ⟨text, htext, hloop⟩ := run_parseEntries strategy e es [] hrounds hvalue hsorted nofun rest
  rw [htext] at hloop ⊢
  rw [parseObject, run_bind_ok (run_getNextToken_cons (by decide) text),
    if_neg (show ¬ (0x22 : UInt8) = 0x7D by decide),
    run_bind_ok (show (get : Scanner Bytes).run _ = .ok (_, _) from rfl)]
  rw [List.length_cons] at hloop
  rw [run_bind_ok hloop]
  rfl

/-- **A value comes back.** -/
theorem readsValue_parseJson (strategy : JsonParse) (hd : d.ReadsInts) {levels : ℕ} {v : Json δ}
    (hv : v.Fits Json.NotDouble levels) : ReadsValue d (parseJson strategy d levels) v := by
  induction levels generalizing v with
  | zero => exact hv.elim
  | succ levels ih =>
      intro space hspace rest hrest
      rw [List.append_assoc]
      cases v with
      | null =>
          rw [Json.dump, Json.reread, parseJson]
          exact run_bind_ok (run_getNextToken hspace (c := 0x6E) (by decide) _)
      | double value => exact absurd hv not_false
      | int value =>
          obtain ⟨c, text, htext, hnumber⟩ := dumpInt_eq_cons value
          have hint := reads_dumpInt hd value rest hrest
          rw [htext, List.cons_append] at hint
          rw [Json.dump, htext, List.cons_append, parseJson,
            run_bind_ok (run_getNextToken hspace (.of_number hnumber) _)]
          exact (congrFun (if_pos hnumber) _).trans ((run_bind_ok (run_back c _)).trans hint)
      | bool value =>
          rw [Json.dump, Json.reread, parseJson]
          cases value with
          | true => exact run_bind_ok (run_getNextToken hspace (c := 0x74) (by decide) _)
          | false => exact run_bind_ok (run_getNextToken hspace (c := 0x66) (by decide) _)
      | string value =>
          rw [Json.dump, Json.reread, parseJson, Json.dumpString, List.append_assoc, List.append_assoc]
          refine (run_bind_ok (run_getNextToken hspace (c := 0x22) (by decide) _)).trans ?_
          rw [← List.append_assoc]
          exact Reads.map (Json.string : Bytes → Json δ) (reads_dumpChars value) rest trivial
      | array values =>
          cases values with
          | nil =>
              rw [Json.dump, Json.reread, parseJson]
              refine (run_bind_ok (run_getNextToken hspace (c := 0x5B) (by decide) _)).trans ?_
              exact run_bind_ok (run_getNextToken_cons (by decide) rest)
          | cons w ws =>
              have hvalue : ∀ u ∈ w :: ws, u.NotDouble ∧ ReadsValue d (parseJson strategy d levels) u :=
                fun u hu => ⟨(hv u hu).notDouble, ih (hv u hu)⟩
              rw [Json.dump, Json.reread, parseJson, List.append_assoc, List.append_assoc]
              exact (run_bind_ok (run_getNextToken hspace (c := 0x5B) (by decide) _)).trans
                (run_parseItems_dump strategy hvalue rest)
      | object values =>
          obtain ⟨hsorted, hvalues⟩ := hv
          cases values with
          | nil =>
              rw [Json.dump, Json.reread, parseJson]
              refine (run_bind_ok (run_getNextToken hspace (c := 0x7B) (by decide) _)).trans ?_
              exact run_bind_ok (run_getNextToken_cons (by decide) rest)
          | cons e es =>
              have hvalue : ∀ f ∈ e :: es, ReadsValue d (parseJson strategy d levels) f.2 :=
                fun f hf => ih (hvalues f hf)
              rw [Json.dump, Json.reread, parseJson, List.append_assoc, List.append_assoc]
              exact (run_bind_ok (run_getNextToken hspace (c := 0x7B) (by decide) _)).trans
                (run_parseObject_dump strategy hvalue hsorted rest)

end JsonParser

namespace Json

open JsonParser

variable {δ : Type} {d : DoubleOps δ} {strategy : JsonParse} {v : Json δ}

/-! ## No NUL -/

theorem zero_notMem_decimal (n : ℕ) : 0 ∉ decimal n := by
  intro h
  have hdigit := isDigit_decimal n 0 h
  cases hdigit

theorem zero_notMem_dumpChar (ch : UInt8) : 0 ∉ dumpChar ch := by
  unfold dumpChar
  split_ifs with _ _ _ _ _ _ _ hlow
  any_goals decide
  · have hhex : ∀ d < 16, hexDigit d ≠ 0 := by decide
    have hlt : ch.toNat < 0x20 := Nat.lt_succ_of_le (UInt8.le_iff_toNat_le.mp hlow)
    simp [(hhex (ch.toNat / 16) (by omega)).symm, (hhex (ch.toNat % 16) (by omega)).symm]
  · rw [List.mem_singleton]
    rintro rfl
    exact hlow (by decide)

theorem zero_notMem_dumpChars (value : Bytes) : 0 ∉ dumpChars value := by
  induction value using dumpChars.induct with
  | case1 => simp [dumpChars]
  | case2 a => simpa [dumpChars] using zero_notMem_dumpChar a
  | case3 a b ih => simp [dumpChars, zero_notMem_dumpChar]
  | case4 a b c more h ih => simp [dumpChars, h, ih]
  | case5 a b c more h h' ih => simp [dumpChars, h, h', ih]
  | case6 a b c more h h' ih =>
      simp only [dumpChars, h, h', Bool.false_eq_true, if_false, List.mem_append, not_or]
      exact ⟨zero_notMem_dumpChar a, ih⟩

theorem zero_notMem_dumpString (value : Bytes) : 0 ∉ dumpString value := by
  simp [dumpString, zero_notMem_dumpChars]

theorem zero_notMem_separator (first : Bool) : 0 ∉ separator first := by
  cases first <;> simp [separator]

mutual

/-- **A text that is written ends where it ends**: it has no NUL in it. -/
theorem zero_notMem_dump {levels : ℕ} : ∀ v : Json δ, v.Fits NotDouble levels → 0 ∉ v.dump d
  | null, _ => by simp [dump, dumpNull]
  | double value, hv => (Fits.notDouble hv).elim
  | int value, _ => by
      rw [dump, dumpInt]
      split_ifs
      · simp [zero_notMem_decimal]
      · exact zero_notMem_decimal _
  | bool value, _ => by cases value <;> simp [dump, dumpBool]
  | string value, _ => by
      rw [dump]
      exact zero_notMem_dumpString value
  | array values, hv => by
      cases levels with
      | zero => exact hv.elim
      | succ levels => simp [dump, zero_notMem_dumpItems true values hv]
  | object values, hv => by
      cases levels with
      | zero => exact hv.elim
      | succ levels => simp [dump, zero_notMem_dumpEntries true values hv.2]

theorem zero_notMem_dumpItems {levels : ℕ} (first : Bool) : ∀ values : List (Json δ),
    (∀ v ∈ values, v.Fits NotDouble levels) → 0 ∉ dumpItems d first values
  | [], _ => by simp [dumpItems]
  | v :: values, h => by
      have hv := zero_notMem_dump v (h v List.mem_cons_self)
      have hvalues := zero_notMem_dumpItems false values fun w hw => h w (List.mem_cons_of_mem _ hw)
      simp [dumpItems, zero_notMem_separator, hv, hvalues]

theorem zero_notMem_dumpEntries {levels : ℕ} (first : Bool) :
    ∀ values : List (Bytes × Json δ),
    (∀ e ∈ values, e.2.Fits NotDouble levels) → 0 ∉ dumpEntries d first values
  | [], _ => by simp [dumpEntries]
  | (key, v) :: values, h => by
      have hv := zero_notMem_dump v (h (key, v) List.mem_cons_self)
      have hvalues :=
        zero_notMem_dumpEntries false values fun w hw => h w (List.mem_cons_of_mem _ hw)
      simp [dumpEntries, zero_notMem_separator, zero_notMem_dumpString, hv, hvalues]

end

/-! ## The round trip -/

theorem run_consumeGarbage_nil : (consumeGarbage strategy).run [] = .ok ((), []) := by
  cases strategy <;> rfl

theorem parse_of_run {input : Bytes} {levels : ℕ} (hlevels : levels = maxDepth + 1)
    (h : (parseJson strategy d levels).run input = .ok (v, [])) : parse d strategy input = .ok v := by
  subst hlevels
  show ((parseJson strategy d (maxDepth + 1)).run input >>= _) = _
  rw [h]
  show ((consumeGarbage strategy).run [] >>= _) = _
  rw [run_consumeGarbage_nil]
  rfl

/-- What was printed is read again. -/
theorem parse_dump_eq (hd : d.ReadsInts) (hv : v.Fits NotDouble (maxDepth + 1)) :
    parse d strategy (v.dump d) = .ok (v.reread d) := by
  have hrun := readsValue_parseJson strategy hd hv [] (.inl rfl) [] ⟨rfl, by decide⟩
  rw [List.nil_append, List.append_nil] at hrun
  exact parse_of_run rfl hrun

mutual

/-- What comes back is equal. -/
theorem equals_reread (hd : ∀ v, d.eq (d.ofInt v) (d.ofInt v) = true) {levels : ℕ} :
    ∀ v : Json δ, v.Fits NotDouble levels → equals d (v.reread d) v = true
  | null, _ => by rw [reread, equals]
  | double value, hv => (Fits.notDouble hv).elim
  | int value, _ => by
      rw [reread]
      split
      · rw [equals]
        exact hd value
      · rw [equals]
        exact hd value
  | bool value, _ => by simp [reread, equals]
  | string value, _ => by simp [reread, equals]
  | array values, hv => by
      rw [reread, equals]
      cases levels with
      | zero => exact hv.elim
      | succ levels => exact equalItems_reread hd values hv
  | object values, hv => by
      rw [reread, equals]
      cases levels with
      | zero => exact hv.elim
      | succ levels => exact equalEntries_reread hd values hv.2

theorem equalItems_reread (hd : ∀ v, d.eq (d.ofInt v) (d.ofInt v) = true) {levels : ℕ} :
    ∀ values : List (Json δ), (∀ v ∈ values, v.Fits NotDouble levels) →
      equalItems d (rereadItems d values) values = true
  | [], _ => by rw [rereadItems, equalItems]
  | v :: values, h => by
      rw [rereadItems, equalItems, equals_reread hd v (h v List.mem_cons_self),
        equalItems_reread hd values fun w hw => h w (List.mem_cons_of_mem _ hw)]
      rfl

theorem equalEntries_reread (hd : ∀ v, d.eq (d.ofInt v) (d.ofInt v) = true) {levels : ℕ} :
    ∀ values : List (Bytes × Json δ), (∀ e ∈ values, e.2.Fits NotDouble levels) →
      equalEntries d (rereadEntries d values) values = true
  | [], _ => by rw [rereadEntries, equalEntries]
  | (key, v) :: values, h => by
      rw [rereadEntries, equalEntries, equals_reread hd v (h (key, v) List.mem_cons_self),
        equalEntries_reread hd values fun w hw => h w (List.mem_cons_of_mem _ hw), beq_self_eq_true]
      rfl

end

/-- **What is printed is read back**, as an equal value, and integers of up to nine
characters as they were. -/
theorem parse_dump (hd : d.ReadsInts) (heq : ∀ v, d.eq (d.ofInt v) (d.ofInt v) = true)
    (hv : v.Fits NotDouble (maxDepth + 1)) :
    parse d strategy (v.dump d) = .ok (v.reread d) ∧ equals d (v.reread d) v = true :=
  ⟨parse_dump_eq hd hv, equals_reread heq v hv⟩

/-- Doubles that are whole numbers. -/
def wholeDoubles : DoubleOps ℤ where
  print n := some (if n < 0 then 0x2D :: decimal n.natAbs else decimal n.natAbs)
  scan := atoi
  ofInt := Int32.toInt
  toInt := Int32.ofInt
  eq a b := a == b

theorem wholeDoubles_readsInts : wholeDoubles.ReadsInts := fun _ _ => atoi_dumpInt

/-- A list of a null, a number of eleven characters and a string, in an object. -/
def sampleJson : Json ℤ :=
  object [([0x61], array [null, int (-1234567890), string [0x22, 0xE2, 0x80, 0xA8, 0x0A, 0xFF]]),
    ([0x62], bool true)]

theorem sampleJson_fits : sampleJson.Fits NotDouble (maxDepth + 1) := by
  refine ⟨?_, ?_⟩
  · simp [Sorted, JsonObject.keyLt]
  · simp [Fits, NotDouble]

theorem parse_dump_sample : parse wholeDoubles .comments (sampleJson.dump wholeDoubles) =
      .ok (sampleJson.reread wholeDoubles) ∧
    equals wholeDoubles (sampleJson.reread wholeDoubles) sampleJson = true :=
  parse_dump wholeDoubles_readsInts (fun _ => beq_self_eq_true _) sampleJson_fits

end Json

end Tgvoip
