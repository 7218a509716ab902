import Tgvoip.Lib.TextParser

/-!
# Json11 — values, `dump` and `parse`

`tools/json11.cpp`. The position `i` of a `JsonParser` is the text that is
left of `str`, of which `str[str.size()]` is a NUL. What the program does
with a `double` is `DoubleOps`: how the C++ library prints and reads one is
not modelled.

`parse_multi`, `has_shape` and `operator<` are left out: nothing calls them.
-/

namespace Tgvoip

open ByteReader (Bytes)
open TextParser

/-- The texts and the conversions of a type of floating-point numbers. -/
structure DoubleOps (δ : Type) where
  /-- `stm << value`, where it is finite. -/
  print : δ → Option Bytes
  /-- `stm >> result`, from the start of a text. -/
  scan : Bytes → δ
  ofInt : Int32 → δ
  toInt : δ → Int32
  eq : δ → δ → Bool

inductive Json (δ : Type) where
  | null
  | double (value : δ)
  | int (value : Int32)
  | bool (value : Bool)
  | string (value : Bytes)
  | array (values : List (Json δ))
  /-- A `std::map`: the entries in the order of their keys. -/
  | object (values : List (Bytes × Json δ))

inductive JsonParse where
  | standard
  | comments
  deriving DecidableEq, Repr

/-- What `fail` is called with. -/
inductive JsonError where
  | maxDepth
  | endOfInput
  | endAfterComment
  | endInComment
  | malformedComment
  | endInString
  | unescaped (ch : UInt8)
  | badEscape (esc : Bytes)
  | invalidEscape (ch : UInt8)
  | leadingZeros
  | invalidInNumber (ch : UInt8)
  | noFraction
  | noExponent
  | expectedLiteral (expected got : Bytes)
  | expectedQuote (ch : UInt8)
  | expectedColon (ch : UInt8)
  | expectedCommaInObject (ch : UInt8)
  | expectedCommaInList (ch : UInt8)
  | expectedValue (ch : UInt8)
  | trailing (ch : UInt8)
  /-- No error of the source: a loop of the model had too few rounds. -/
  | endless
  deriving DecidableEq, Repr

namespace JsonError

def text (s : String) : Bytes := s.toList.map fun c => UInt8.ofNat c.toNat

/-- `%d` of a `char`. -/
def charNumber (c : UInt8) : Bytes :=
  if c < 0x80 then decimal c.toNat else text "-" ++ decimal (256 - c.toNat)

/-- `esc`. -/
def esc (c : UInt8) : Bytes :=
  (if 0x20 ≤ c && c ≤ 0x7f then text "'" ++ [c] ++ text "' (" else text "(") ++ charNumber c ++ text ")"

def message : JsonError → Bytes
  | maxDepth => text "exceeded maximum nesting depth"
  | endOfInput => text "unexpected end of input"
  | endAfterComment => text "unexpected end of input after start of comment"
  | endInComment => text "unexpected end of input inside multi-line comment"
  | malformedComment => text "malformed comment"
  | endInString => text "unexpected end of input in string"
  | unescaped ch => text "unescaped " ++ esc ch ++ text " in string"
  | badEscape esc => text "bad \\u escape: " ++ esc
  | invalidEscape ch => text "invalid escape character " ++ esc ch
  | leadingZeros => text "leading 0s not permitted in numbers"
  | invalidInNumber ch => text "invalid " ++ esc ch ++ text " in number"
  | noFraction => text "at least one digit required in fractional part"
  | noExponent => text "at least one digit required in exponent"
  | expectedLiteral expected got => text "parse error: expected " ++ expected ++ text ", got " ++ got
  | expectedQuote ch => text "expected '\"' in object, got " ++ esc ch
  | expectedColon ch => text "expected ':' in object, got " ++ esc ch
  | expectedCommaInObject ch => text "expected ',' in object, got " ++ esc ch
  | expectedCommaInList ch => text "expected ',' in list, got " ++ esc ch
  | expectedValue ch => text "expected value, got " ++ esc ch
  | trailing ch => text "unexpected trailing " ++ esc ch
  | endless => []

end JsonError

/-! ## Serialization -/

namespace Json

variable {δ : Type}

def hexDigit (d : ℕ) : UInt8 := if d < 10 then digit d else UInt8.ofNat (0x57 + d)

/-- What is written for a byte. -/
def dumpChar (ch : UInt8) : Bytes :=
  if ch = 0x5C then [0x5C, 0x5C]
  else if ch = 0x22 then [0x5C, 0x22]
  else if ch = 0x08 then [0x5C, 0x62]
  else if ch = 0x0C then [0x5C, 0x66]
  else if ch = 0x0A then [0x5C, 0x6E]
  else if ch = 0x0D then [0x5C, 0x72]
  else if ch = 0x09 then [0x5C, 0x74]
  else if ch ≤ 0x1f then
    -- `\u%04x`
    [0x5C, 0x75, 0x30, 0x30, hexDigit (ch.toNat / 16), hexDigit (ch.toNat % 16)]
  else [ch]

/-- The loop over a string: the line separators U+2028 and U+2029 are three bytes. -/
def dumpChars : Bytes → Bytes
  | [] => []
  | [a] => dumpChar a
  | [a, b] => dumpChar a ++ dumpChars [b]
  | a :: b :: c :: rest =>
    if a = 0xE2 && b = 0x80 && c = 0xA8 then [0x5C, 0x75, 0x32, 0x30, 0x32, 0x38] ++ dumpChars rest
    else if a = 0xE2 && b = 0x80 && c = 0xA9 then
      [0x5C, 0x75, 0x32, 0x30, 0x32, 0x39] ++ dumpChars rest
    else dumpChar a ++ dumpChars (b :: c :: rest)

def dumpString (value : Bytes) : Bytes := [0x22] ++ dumpChars value ++ [0x22]

/-- `%d`. -/
def dumpInt (value : Int32) : Bytes :=
  if value.toInt < 0 then 0x2D :: decimal value.toInt.natAbs else decimal value.toInt.natAbs

def dumpNull : Bytes := [0x6E, 0x75, 0x6C, 0x6C]

def dumpBool (value : Bool) : Bytes :=
  if value then [0x74, 0x72, 0x75, 0x65] else [0x66, 0x61, 0x6C, 0x73, 0x65]

/-- The comma in front of all entries but the first. -/
def separator (first : Bool) : Bytes := if first then [] else [0x2C, 0x20]

mutual

def dump (d : DoubleOps δ) : Json δ → Bytes
  | null => dumpNull
  | double value => (d.print value).getD dumpNull
  | int value => dumpInt value
  | bool value => dumpBool value
  | string value => dumpString value
  | array values => [0x5B] ++ dumpItems d true values ++ [0x5D]
  | object values => [0x7B] ++ dumpEntries d true values ++ [0x7D]

def dumpItems (d : DoubleOps δ) (first : Bool) : List (Json δ) → Bytes
  | [] => []
  | value :: values => separator first ++ dump d value ++ dumpItems d false values

def dumpEntries (d : DoubleOps δ) (first : Bool) : List (Bytes × Json δ) → Bytes
  | [] => []
  | (key, value) :: values =>
    separator first ++ (dumpString key ++ [0x3A, 0x20] ++ dump d value) ++ dumpEntries d false values

end

/-! ## Accessors and comparison -/

def numberValue (d : DoubleOps δ) : Json δ → δ
  | double value => value
  | int value => d.ofInt value
  | _ => d.ofInt 0

def boolValue : Json δ → Bool
  | bool value => value
  | _ => false

def stringValue : Json δ → Bytes
  | string value => value
  | _ => []

def objectItems : Json δ → List (Bytes × Json δ)
  | object values => values
  | _ => []

mutual

/-- `operator==`; that one value is the same object as the other is not told. -/
def equals (d : DoubleOps δ) : Json δ → Json δ → Bool
  | null, null => true
  | double a, double b => d.eq a b
  | double a, int b => d.eq a (d.ofInt b)
  | int a, double b => d.eq (d.ofInt a) b
  | int a, int b => d.eq (d.ofInt a) (d.ofInt b)
  | bool a, bool b => a == b
  | string a, string b => a == b
  | array as, array bs => equalItems d as bs
  | object as, object bs => equalEntries d as bs
  | _, _ => false

def equalItems (d : DoubleOps δ) : List (Json δ) → List (Json δ) → Bool
  | [], [] => true
  | a :: as, b :: bs => equals d a b && equalItems d as bs
  | _, _ => false

def equalEntries (d : DoubleOps δ) : List (Bytes × Json δ) → List (Bytes × Json δ) → Bool
  | [], [] => true
  | (k, a) :: as, (l, b) :: bs => k == l && equals d a b && equalEntries d as bs
  | _, _ => false

end

end Json

/-! ## Objects -/

namespace JsonObject

variable {α : Type}

/-- `operator<` of `std::string`. -/
def keyLt : Bytes → Bytes → Bool
  | _, [] => false
  | [], _ :: _ => true
  | a :: as, b :: bs => a < b || (a = b && keyLt as bs)

/-- `data[key] = value`. -/
def insert (data : List (Bytes × α)) (key : Bytes) (value : α) : List (Bytes × α) :=
  match data with
  | [] => [(key, value)]
  | (k, v) :: rest =>
    if keyLt key k then (key, value) :: (k, v) :: rest
    else if key = k then (k, value) :: rest
    else (k, v) :: insert rest key value

/-- `find`. -/
def find? (data : List (Bytes × α)) (key : Bytes) : Option α := (data.find? (·.1 == key)).map (·.2)

end JsonObject

/-! ## Parsing -/

namespace JsonParser

variable {δ : Type}

abbrev Scanner (α : Type) := Parser JsonError α

def maxDepth : ℕ := 200

def isSpace (c : UInt8) : Bool := c = 0x20 || c = 0x0D || c = 0x0A || c = 0x09

def isHexDigit (c : UInt8) : Bool := (0x61 ≤ c && c ≤ 0x66) || (0x41 ≤ c && c ≤ 0x46) || isDigit c

def fail {α : Type} (e : JsonError) : Scanner α := throw e

/-- `str[i]`. -/
def current (s : Bytes) : UInt8 := s.headD 0

def consumeWhitespace : Scanner Unit := modify (List.dropWhile isSpace)

/-- Up to the closing tokens of a multi-line comment. -/
def closeComment : Bytes → Except JsonError Bytes
  | [] => .error .endInComment
  | [_] => .error .endInComment
  | a :: b :: rest => if a = 0x2A && b = 0x2F then .ok rest else closeComment (b :: rest)

/-- Whether there was a comment. -/
def consumeComment : Scanner Bool := fun s =>
  match s with
  | 0x2F :: [] => .error .endAfterComment
  | 0x2F :: 0x2F :: rest => .ok (true, rest.dropWhile (· ≠ 0x0A))
  | 0x2F :: 0x2A :: rest => (closeComment rest).map (true, ·)
  | 0x2F :: _ :: _ => .error .malformedComment
  | s => .ok (false, s)

/-- The loop over comments, as often as `rounds`. -/
def consumeComments : ℕ → Scanner Unit
  | 0 => fail .endless
  | rounds + 1 => do
    let found ← consumeComment
    consumeWhitespace
    if found then consumeComments rounds else pure ()

def consumeGarbage (strategy : JsonParse) : Scanner Unit := do
  consumeWhitespace
  if strategy = .comments then
    let left := (← get).length
    consumeComments (left + 1)

def takeChar : Scanner UInt8 := fun s =>
  match s with
  | [] => .error .endOfInput
  | ch :: rest => .ok (ch, rest)

def getNextToken (strategy : JsonParse) : Scanner UInt8 := do
  consumeGarbage strategy
  takeChar

/-- `i--`, back to the character that was read last. -/
def back (ch : UInt8) : Scanner Unit := modify (ch :: ·)

/-- `encode_utf8`; −1 is no codepoint. -/
def encodeUtf8 : Option ℕ → Bytes
  | none => []
  | some pt =>
    if pt < 0x80 then [UInt8.ofNat pt]
    else if pt < 0x800 then [UInt8.ofNat (pt >>> 6 ||| 0xC0), UInt8.ofNat (pt &&& 0x3F ||| 0x80)]
    else if pt < 0x10000 then
      [UInt8.ofNat (pt >>> 12 ||| 0xE0), UInt8.ofNat (pt >>> 6 &&& 0x3F ||| 0x80),
        UInt8.ofNat (pt &&& 0x3F ||| 0x80)]
    else
      [UInt8.ofNat (pt >>> 18 ||| 0xF0), UInt8.ofNat (pt >>> 12 &&& 0x3F ||| 0x80),
        UInt8.ofNat (pt >>> 6 &&& 0x3F ||| 0x80), UInt8.ofNat (pt &&& 0x3F ||| 0x80)]

def hexValue (c : UInt8) : ℕ :=
  if isDigit c then c.toNat - 0x30 else if 0x61 ≤ c then c.toNat - 0x57 else c.toNat - 0x37

/-- `strtol(esc.data(), nullptr, 16)`. -/
def readHex (esc : Bytes) : ℕ := esc.foldl (fun n c => 16 * n + hexValue c) 0

/-- What an escape gives that is one character long. -/
def unescape (ch : UInt8) : Option UInt8 :=
  if ch = 0x62 then some 0x08
  else if ch = 0x66 then some 0x0C
  else if ch = 0x6E then some 0x0A
  else if ch = 0x72 then some 0x0D
  else if ch = 0x74 then some 0x09
  else if ch = 0x22 || ch = 0x5C || ch = 0x2F then some ch
  else none

/-- A new escaped codepoint: what is written, and what waits to be written. -/
def pairUp (last : Option ℕ) (codepoint : ℕ) : Bytes × Option ℕ :=
  match last with
  | some lead =>
    if 0xD800 ≤ lead && lead ≤ 0xDBFF && 0xDC00 ≤ codepoint && codepoint ≤ 0xDFFF then
      (encodeUtf8 (some (((lead - 0xD800) <<< 10 ||| (codepoint - 0xDC00)) + 0x10000)), none)
    else (encodeUtf8 last, some codepoint)
  | none => (encodeUtf8 last, some codepoint)

/-- `parse_string`, behind the opening quote: `out` is what was read, `last` the codepoint
that was escaped last. -/
def parseChars (out : Bytes) (last : Option ℕ) : Scanner Bytes
  | [] => .error .endInString
  | ch :: rest =>
    if ch = 0x22 then .ok (out ++ encodeUtf8 last, rest)
    else if ch ≤ 0x1f then .error (.unescaped ch)
    else if ch ≠ 0x5C then parseChars (out ++ encodeUtf8 last ++ [ch]) none rest
    else
      match rest with
      | [] => .error .endInString
      | 0x75 :: a :: b :: c :: d :: rest =>
        if [a, b, c, d].all isHexDigit then
          let pair := pairUp last (readHex [a, b, c, d])
          parseChars (out ++ pair.1) pair.2 rest
        else .error (.badEscape [a, b, c, d])
      | ch :: rest =>
        if ch = 0x75 then .error (.badEscape rest)
        else
          match unescape ch with
          | some byte => parseChars (out ++ encodeUtf8 last ++ [byte]) none rest
          | none => .error (.invalidEscape ch)

def parseString : Scanner Bytes := parseChars [] none

/-- The digits of the integer part of a number. -/
def parseDigits : Scanner Unit := fun s =>
  if current s = 0x30 then
    if isDigit (current (s.drop 1)) then .error .leadingZeros else .ok ((), s.drop 1)
  else if isDigit (current s) then .ok ((), s.dropWhile isDigit)
  else .error (.invalidInNumber (current s))

/-- The integer part, with its sign. -/
def parseInteger : Scanner Unit := fun s =>
  parseDigits (if current s = 0x2D then s.drop 1 else s)

/-- The decimal part. -/
def parseFraction : Scanner Unit := fun s =>
  if current s = 0x2E then
    let s := s.drop 1
    if isDigit (current s) then .ok ((), s.dropWhile isDigit) else .error .noFraction
  else .ok ((), s)

/-- The exponent part. -/
def parseExponent : Scanner Unit := fun s =>
  if current s = 0x65 || current s = 0x45 then
    let s := s.drop 1
    let s := if current s = 0x2B || current s = 0x2D then s.drop 1 else s
    if isDigit (current s) then .ok ((), s.dropWhile isDigit) else .error .noExponent
  else .ok ((), s)

/-- `std::atoi`, on a text without leading spaces. -/
def atoi (s : Bytes) : ℤ :=
  if current s = 0x2D then -(readDecimal ((s.drop 1).takeWhile isDigit) : ℤ)
  else (readDecimal (s.takeWhile isDigit) : ℤ)

/-- A number is an `int` if it has no fraction, no exponent and at most
`std::numeric_limits<int>::digits10` characters. -/
def parseNumber (d : DoubleOps δ) : Scanner (Json δ) := do
  let start ← get
  parseInteger
  let s ← get
  if current s ≠ 0x2E && current s ≠ 0x65 && current s ≠ 0x45 &&
      start.length - s.length ≤ 9 then
    pure (.int (Int32.ofInt (atoi start)))
  else
    parseFraction
    parseExponent
    pure (.double (d.scan start))

/-- `expect`, at the character that was just read. -/
def expect (expected : Bytes) (res : Json δ) : Scanner (Json δ) := fun s =>
  if s.take expected.length = expected then .ok (res, s.drop expected.length)
  else .error (.expectedLiteral expected (s.take expected.length))

variable (strategy : JsonParse) (value : Scanner (Json δ))

/-- The loop over the values of a list, as often as `rounds`. -/
def parseItems : ℕ → List (Json δ) → Scanner (List (Json δ))
  | 0, _ => fail .endless
  | rounds + 1, data => do
    let item ← value
    let data := data ++ [item]
    let ch ← getNextToken strategy
    if ch = 0x5D then pure data
    else if ch ≠ 0x2C then fail (.expectedCommaInList ch)
    else do
      let ch ← getNextToken strategy
      back ch
      parseItems rounds data

/-- The loop over the entries of an object; `ch` is the first character of one. -/
def parseEntries : ℕ → UInt8 → List (Bytes × Json δ) → Scanner (List (Bytes × Json δ))
  | 0, _, _ => fail .endless
  | rounds + 1, ch, data => do
    if ch ≠ 0x22 then fail (.expectedQuote ch)
    else do
      let key ← parseString
      let ch ← getNextToken strategy
      if ch ≠ 0x3A then fail (.expectedColon ch)
      else do
        let item ← value
        let data := JsonObject.insert data key item
        let ch ← getNextToken strategy
        if ch = 0x7D then pure data
        else if ch ≠ 0x2C then fail (.expectedCommaInObject ch)
        else do
          let ch ← getNextToken strategy
          parseEntries rounds ch data

def parseList : Scanner (Json δ) := do
  let ch ← getNextToken strategy
  if ch = 0x5D then pure (.array [])
  else do
    back ch
    let left := (← get).length
    let data ← parseItems strategy value (left + 1) []
    pure (.array data)

def parseObject : Scanner (Json δ) := do
  let ch ← getNextToken strategy
  if ch = 0x7D then pure (.object [])
  else do
    let left := (← get).length
    let data ← parseEntries strategy value (left + 1) ch []
    pure (.object data)

/-- `parse_json` at a depth with so many levels left. -/
def parseJson (d : DoubleOps δ) : ℕ → Scanner (Json δ)
  | 0 => fail .maxDepth
  | levels + 1 => do
    let ch ← getNextToken strategy
    if ch = 0x2D || isDigit ch then do
      back ch
      parseNumber d
    else if ch = 0x74 then do
      back ch
      expect (Json.dumpBool true) (.bool true)
    else if ch = 0x66 then do
      back ch
      expect (Json.dumpBool false) (.bool false)
    else if ch = 0x6E then do
      back ch
      expect Json.dumpNull .null
    else if ch = 0x22 then Json.string <$> parseString
    else if ch = 0x7B then parseObject strategy (parseJson d levels)
    else if ch = 0x5B then parseList strategy (parseJson d levels)
    else fail (.expectedValue ch)

end JsonParser

open JsonParser in
/-- `Json::parse`: the value, or what `err` is set to. -/
def Json.parse {δ : Type} (d : DoubleOps δ) (strategy : JsonParse) (input : Bytes) :
    Except JsonError (Json δ) := do
  let (result, s) ← (parseJson strategy d (maxDepth + 1)).run input
  let ((), s) ← (consumeGarbage strategy).run s
  match s with
  | [] => pure result
  | ch :: _ => .error (.trailing ch)

end Tgvoip
