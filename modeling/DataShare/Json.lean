import DataShare.RustResultSet
import DataShare.OrderedMap
import Mathlib.Data.List.DropRight

/-!
# The Rust JSON values

`serializable.rs` has its own JSON : a value type, a writer on characters, and a recursive
descent over the bytes of the trimmed text. The parser returns a value, or fails, or panics at
an index outside of the text and, with overflow checks on, at a difference below zero.
-/

namespace DataShare

namespace Rust

/-! ## Outcomes -/

/-- What a call comes to. `outOfFuel` is no outcome of the code. -/
inductive Outcome (α : Type)
  | ok (a : α)
  | fail
  | panic
  | outOfFuel
deriving DecidableEq, Repr

namespace Outcome

variable {α β : Type}

def bind : Outcome α → (α → Outcome β) → Outcome β
  | ok a, f => f a
  | fail, _ => fail
  | panic, _ => panic
  | outOfFuel, _ => outOfFuel

instance : Monad Outcome where
  pure := ok
  bind := bind

/-- The `?` on an `Option`. -/
def ofOption : Option α → Outcome α
  | some a => ok a
  | none => fail

@[simp] theorem ok_bind (a : α) (f : α → Outcome β) : (ok a >>= f) = f a :=
  rfl

@[simp] theorem pure_eq (a : α) : (pure a : Outcome α) = ok a :=
  rfl

end Outcome

/-! ## Values -/

/-- `Object` is a `BTreeMap`, by its entries. -/
inductive JsonValue
  | null
  | bool (b : Bool)
  | int (n : Int64)
  | uint (n : UInt64)
  | float (f : Double)
  | string (s : String)
  | array (vs : List JsonValue)
  | object (entries : List (String × JsonValue))

/-- The text of an `f64`, and its `str::parse`. -/
structure FloatText where
  display : Double → List Char
  parse : String → Option Double

/-- `u64` as `str::parse` reads it. -/
def parseU64 (s : String) : Option UInt64 :=
  let digits := if s.toList.head? = some '+' then s.toList.tail else s.toList
  if digits ≠ [] ∧ digits.all Char.isDigit then
    let n : ℕ := digits.foldl (fun n c => 10 * n + (c.toNat - '0'.toNat)) 0
    if n < 2 ^ 64 then some (.ofNat n) else none
  else none

/-! ## The writer -/

/-- `{:04x}`. -/
def hex4 (n : ℕ) : List Char :=
  let digits := Nat.toDigits 16 n
  List.replicate (4 - digits.length) '0' ++ digits

def writeJsonChar (c : Char) : List Char :=
  if c = '"' then ['\\', '"']
  else if c = '\\' then ['\\', '\\']
  else if c = '\n' then ['\\', 'n']
  else if c = '\r' then ['\\', 'r']
  else if c = '\t' then ['\\', 't']
  else if c.toNat < 0x20 then '\\' :: 'u' :: hex4 c.toNat
  else [c]

def writeJsonString (s : String) : List Char :=
  '"' :: (s.toList.flatMap writeJsonChar ++ ['"'])

/-- An infinity or a NaN. -/
def isInfiniteOrNan (f : Double) : Bool :=
  f.bits.toNat / 2 ^ 52 % 2 ^ 11 == 2 ^ 11 - 1

namespace JsonValue

variable (conv : FloatText)

/- The elements after the first follow a comma each. -/
mutual

def writeTo : JsonValue → List Char
  | .null => "null".toList
  | .bool b => (if b then "true" else "false").toList
  | .int n => (toString n.toInt).toList
  | .uint n => (toString n.toNat).toList
  | .float f => if isInfiniteOrNan f then "null".toList else conv.display f
  | .string s => writeJsonString s
  | .array [] => ['[', ']']
  | .array (v :: vs) => '[' :: (writeTo v ++ (writeElements vs ++ [']']))
  | .object [] => ['{', '}']
  | .object ((k, v) :: kvs) =>
    '{' :: (writeJsonString k ++ ':' :: (writeTo v ++ (writeMembers kvs ++ ['}'])))

def writeElements : List JsonValue → List Char
  | [] => []
  | v :: vs => ',' :: (writeTo v ++ writeElements vs)

def writeMembers : List (String × JsonValue) → List Char
  | [] => []
  | (k, v) :: kvs => ',' :: (writeJsonString k ++ ':' :: (writeTo v ++ writeMembers kvs))

end

def dump (v : JsonValue) : String :=
  String.ofList (writeTo conv v)

end JsonValue

/-! ## Characters -/

/-- A byte literal. -/
def ascii (c : Char) : UInt8 :=
  .ofNat c.toNat

theorem utf8EncodeChar_of_lt {c : Char} (h : c.toNat < 128) :
    String.utf8EncodeChar c = [ascii c] := by
  have hle : c.val.toNat ≤ 127 := Nat.le_of_lt_succ h
  unfold String.utf8EncodeChar
  dsimp only
  rw [if_pos hle]
  rfl

/-- `char::is_whitespace`. -/
def isWhitespace (c : Char) : Bool :=
  let n := c.toNat
  (9 ≤ n && n ≤ 13) || n == 32 || n == 0x85 || n == 0xA0 || n == 0x1680 ||
    (0x2000 ≤ n && n ≤ 0x200A) || n == 0x2028 || n == 0x2029 || n == 0x202F || n == 0x205F ||
    n == 0x3000

/-- `str::trim`. -/
def trim (cs : List Char) : List Char :=
  (cs.dropWhile isWhitespace).rdropWhile isWhitespace

/-- `char::to_digit(16)`. -/
def hexDigit (c : Char) : Option ℕ :=
  if c.isDigit then some (c.toNat - 48)
  else if 'a' ≤ c ∧ c ≤ 'f' then some (c.toNat - 87)
  else if 'A' ≤ c ∧ c ≤ 'F' then some (c.toNat - 55)
  else none

def hexValue (digits : List Char) : Option ℕ :=
  digits.foldlM (fun n c => (hexDigit c).map fun d => 16 * n + d) 0

/-- `u16::from_str_radix(_, 16)`, which takes a plus sign. -/
def u16FromStrRadix16 (cs : List Char) : Option ℕ :=
  let digits := if cs.head? = some '+' then cs.tail else cs
  if digits = [] then none else (hexValue digits).filter (· < 2 ^ 16)

/-- `char::from_u32`. -/
def charFromU32 (n : ℕ) : Option Char :=
  if n.isValidChar then some (Char.ofNat n) else none

/-- The code point of two units, in `u32`. `checks` are the overflow checks of the build. -/
def surrogatePair (checks : Bool) (cp cp2 : ℕ) : Outcome ℕ :=
  if cp2 < 0xDC00 ∧ checks then .panic
  else .ok ((0x10000 + ((cp - 0xD800) <<< 10) + (cp2 + 2 ^ 32 - 0xDC00) % 2 ^ 32) % 2 ^ 32)

/-- What follows a backslash, and the character it stands for. -/
def shortEscapes : List (Char × Char) :=
  [('"', '"'), ('\\', '\\'), ('/', '/'), ('n', '\n'), ('r', '\r'), ('t', '\t'), ('b', '\x08'),
    ('f', '\x0c')]

def shortEscape (b : UInt8) : Option Char :=
  (shortEscapes.find? fun e => ascii e.1 == b).map Prod.snd

/-! ## The parser -/

section Parser

variable (conv : FloatText) (checks : Bool) (bytes : List UInt8)

def index (i : ℕ) : Outcome UInt8 :=
  match bytes[i]? with
  | some b => .ok b
  | none => .panic

def slice (a b : ℕ) : Outcome (List UInt8) :=
  if a ≤ b ∧ b ≤ bytes.length then .ok ((bytes.drop a).take (b - a)) else .panic

def isSpaceByte (b : UInt8) : Bool :=
  b == ascii ' ' || b == ascii '\t' || b == ascii '\n' || b == ascii '\r'

def isAsciiDigit (b : UInt8) : Bool :=
  ascii '0' ≤ b && b ≤ ascii '9'

def skipWhitespace (pos : ℕ) : ℕ :=
  pos + ((bytes.drop pos).takeWhile isSpaceByte).length

/-- The four digits at `i`. -/
def parseHex (i : ℕ) : Outcome ℕ := do
  let hex ← slice bytes i (i + 4)
  let hex ← .ofOption (fromUtf8 hex)
  .ofOption (u16FromStrRadix16 hex.toList)

/-- The escape whose `u` is at `i`, and the index after it. -/
def parseUnicode (i : ℕ) : Outcome (Char × ℕ) :=
  if i + 4 ≥ bytes.length then .fail
  else do
    let cp ← parseHex bytes (i + 1)
    if 0xD800 ≤ cp ∧ cp ≤ 0xDBFF then
      if i + 10 < bytes.length ∧ bytes[i + 5]? = some (ascii '\\') ∧
          bytes[i + 6]? = some (ascii 'u') then do
        let cp2 ← parseHex bytes (i + 7)
        let codepoint ← surrogatePair checks cp cp2
        let c ← .ofOption (charFromU32 codepoint)
        pure (c, i + 11)
      else pure ('\uFFFD', i + 5)
    else do
      let c ← .ofOption (charFromU32 cp)
      pure (c, i + 5)

/-- The escape whose backslash is before `i`. -/
def parseEscape (i : ℕ) : Outcome (Char × ℕ) :=
  if i ≥ bytes.length then .fail
  else do
    let b ← index bytes i
    if b = ascii 'u' then parseUnicode checks bytes i
    else do
      let c ← .ofOption (shortEscape b)
      pure (c, i + 1)

def parseStringLoop : ℕ → ℕ → String → Outcome (String × ℕ)
  | 0, _, _ => .outOfFuel
  | fuel + 1, i, s =>
    if i ≥ bytes.length then .fail
    else do
      let b ← index bytes i
      if b = ascii '"' then pure (s, i + 1)
      else if b = ascii '\\' then do
        let (c, i) ← parseEscape checks bytes (i + 1)
        parseStringLoop fuel i (s.push c)
      else do
        let remaining ← slice bytes i bytes.length
        let ch ← .ofOption ((fromUtf8 remaining).bind fun r => r.toList.head?)
        parseStringLoop fuel (i + ch.utf8Size) (s.push ch)

def parseString (pos : ℕ) : Outcome (String × ℕ) := do
  let b ← index bytes pos
  if b ≠ ascii '"' then .fail
  else parseStringLoop checks bytes bytes.length (pos + 1) ""

def skipDigits (i : ℕ) : ℕ :=
  i + ((bytes.drop i).takeWhile isAsciiDigit).length

/-- The digits of a fraction or an exponent. -/
def parseDigits (i : ℕ) : Outcome ℕ :=
  if bytes[i]?.any isAsciiDigit then pure (skipDigits bytes i) else .fail

def parseInteger (i : ℕ) : Outcome ℕ :=
  if i ≥ bytes.length then .fail
  else do
    let b ← index bytes i
    if b = ascii '0' then pure (i + 1)
    else if isAsciiDigit b then pure (skipDigits bytes i)
    else .fail

/-- The fraction, and if there is one. -/
def parseFraction (i : ℕ) : Outcome (Bool × ℕ) :=
  if bytes[i]? = some (ascii '.') then do
    let i ← parseDigits bytes (i + 1)
    pure (true, i)
  else pure (false, i)

def parseExponent (i : ℕ) : Outcome (Bool × ℕ) :=
  if bytes[i]? = some (ascii 'e') ∨ bytes[i]? = some (ascii 'E') then do
    let signed := bytes[i + 1]? = some (ascii '+') ∨ bytes[i + 1]? = some (ascii '-')
    let i ← parseDigits bytes (if signed then i + 2 else i + 1)
    pure (true, i)
  else pure (false, i)

def numberValue (isFloat negative : Bool) (numStr : String) : Option JsonValue :=
  if isFloat then (conv.parse numStr).map .float
  else if negative then (parseI64 numStr).map .int
  else (parseU64 numStr).map .uint

def parseNumber (pos : ℕ) : Outcome (JsonValue × ℕ) := do
  let negative := bytes[pos]? == some (ascii '-')
  let i ← parseInteger bytes (if negative then pos + 1 else pos)
  let (fraction, i) ← parseFraction bytes i
  let (exponent, i) ← parseExponent bytes i
  let numStr ← slice bytes pos i
  let numStr ← .ofOption (fromUtf8 numStr)
  let v ← .ofOption (numberValue conv (fraction || exponent) negative numStr)
  pure (v, i)

def parseBool (pos : ℕ) : Outcome (JsonValue × ℕ) := do
  let rest ← slice bytes pos bytes.length
  if ("true".toList.map ascii).isPrefixOf rest then pure (.bool true, pos + 4)
  else if ("false".toList.map ascii).isPrefixOf rest then pure (.bool false, pos + 5)
  else .fail

def parseNull (pos : ℕ) : Outcome (JsonValue × ℕ) := do
  let rest ← slice bytes pos bytes.length
  if ("null".toList.map ascii).isPrefixOf rest then pure (.null, pos + 4) else .fail

/-- The loop of `parse_array`. `parseValue` is the recursive call. -/
def parseArrayLoop (parseValue : ℕ → Outcome (JsonValue × ℕ)) :
    ℕ → ℕ → List JsonValue → Outcome (JsonValue × ℕ)
  | 0, _, _ => .outOfFuel
  | fuel + 1, i, arr => do
    let (val, next) ← parseValue i
    let i := skipWhitespace bytes next
    if i ≥ bytes.length then .fail
    else do
      let b ← index bytes i
      if b = ascii ']' then pure (.array (arr ++ [val]), i + 1)
      else if b = ascii ',' then parseArrayLoop parseValue fuel (i + 1) (arr ++ [val])
      else .fail

def parseArray (parseValue : ℕ → Outcome (JsonValue × ℕ)) (pos : ℕ) :
    Outcome (JsonValue × ℕ) :=
  let i := skipWhitespace bytes (pos + 1)
  if bytes[i]? = some (ascii ']') then pure (.array [], i + 1)
  else parseArrayLoop bytes parseValue bytes.length i []

/-- `BTreeMap::insert`. -/
def insertMember (map : List (String × JsonValue)) (key : String) (val : JsonValue) :
    List (String × JsonValue) :=
  upsertEntries key (fun _ => val) map

/-- The loop of `parse_object`. A key is read even at the end of the text. -/
def parseObjectLoop (parseValue : ℕ → Outcome (JsonValue × ℕ)) :
    ℕ → ℕ → List (String × JsonValue) → Outcome (JsonValue × ℕ)
  | 0, _, _ => .outOfFuel
  | fuel + 1, i, map => do
    let (key, next) ← parseString checks bytes (skipWhitespace bytes i)
    let i := skipWhitespace bytes next
    if bytes[i]? ≠ some (ascii ':') then .fail
    else do
      let (val, next) ← parseValue (i + 1)
      let i := skipWhitespace bytes next
      if i ≥ bytes.length then .fail
      else do
        let b ← index bytes i
        if b = ascii '}' then pure (.object (insertMember map key val), i + 1)
        else if b = ascii ',' then
          parseObjectLoop parseValue fuel (i + 1) (insertMember map key val)
        else .fail

def parseObject (parseValue : ℕ → Outcome (JsonValue × ℕ)) (pos : ℕ) :
    Outcome (JsonValue × ℕ) :=
  let i := skipWhitespace bytes (pos + 1)
  if bytes[i]? = some (ascii '}') then pure (.object [], i + 1)
  else parseObjectLoop checks bytes parseValue bytes.length i []

/-- The fuel is the depth of the recursion. -/
def parseValue : ℕ → ℕ → Outcome (JsonValue × ℕ)
  | 0, _ => .outOfFuel
  | fuel + 1, pos =>
    let pos := skipWhitespace bytes pos
    if pos ≥ bytes.length then .fail
    else do
      let b ← index bytes pos
      if b = ascii '"' then do
        let (s, p) ← parseString checks bytes pos
        pure (.string s, p)
      else if b = ascii '{' then parseObject checks bytes (parseValue fuel) pos
      else if b = ascii '[' then parseArray bytes (parseValue fuel) pos
      else if b = ascii 't' ∨ b = ascii 'f' then parseBool bytes pos
      else if b = ascii 'n' then parseNull bytes pos
      else if b = ascii '-' ∨ isAsciiDigit b then parseNumber conv bytes pos
      else .fail

end Parser

/-- `JsonValue::parse`. -/
def JsonValue.parse (conv : FloatText) (checks : Bool) (input : String) : Outcome JsonValue :=
  let trimmed := trim input.toList
  if trimmed = [] then .fail
  else do
    let bytes := utf8Bytes (String.ofList trimmed)
    let (val, pos) ← parseValue conv checks bytes (bytes.length + 1) 0
    if skipWhitespace bytes pos = bytes.length then pure val else .fail

end Rust

end DataShare
