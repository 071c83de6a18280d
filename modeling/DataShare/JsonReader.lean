import DataShare.Json

/-!
# Reading JSON from characters

The parser goes by byte indices of a UTF-8 text. `At` says which characters are left at an index,
and the byte there leads the first of them (`Leads`). The reader is the same descent on the
characters that are left : `readValue`, with `readString`, `readNumber` and the rest.
-/

namespace DataShare

namespace Rust

namespace Json

/-! ## Positions in a text -/

/-- The UTF-8 bytes. -/
def encode (cs : List Char) : List UInt8 :=
  cs.flatMap String.utf8EncodeChar

theorem utf8Bytes_eq_encode (s : String) : utf8Bytes s = encode s.toList := by
  unfold encode
  rw [← utf8Bytes_ofList, String.ofList_toList]

/-- The characters left at `pos` are `input`. -/
structure At (bytes : List UInt8) (pos : ℕ) (input : List Char) : Prop where
  le : pos ≤ bytes.length
  drop : bytes.drop pos = encode input

/-- `b` is the first byte of `c`. -/
def Leads (c : Char) (b : UInt8) : Prop :=
  c.toNat < 128 ∧ b = ascii c ∨ 128 ≤ c.toNat ∧ 128 ≤ b.toNat

/-- The encoding of a character, by its first byte. -/
theorem exists_utf8EncodeChar (c : Char) : ∃ b bs, String.utf8EncodeChar c = b :: bs ∧ Leads c b := by
  by_cases h : c.toNat < 128
  · exact ⟨ascii c, [], utf8EncodeChar_of_lt h, .inl ⟨h, rfl⟩⟩
  have hlow : 128 ≤ c.toNat := not_lt.mp h
  have hval : c.val.toNat = c.toNat := rfl
  have hfirst : ∀ n : ℕ, 128 ≤ n → n < 256 → 128 ≤ (UInt8.ofNat n).toNat := fun n hn hlt => by
    rwa [UInt8.toNat_ofNat', Nat.mod_eq_of_lt hlt]
  unfold String.utf8EncodeChar
  dsimp only
  rw [if_neg (by omega)]
  split
  · exact ⟨_, _, rfl, .inr ⟨hlow, hfirst _ (by omega) (by omega)⟩⟩
  split
  · exact ⟨_, _, rfl, .inr ⟨hlow, hfirst _ (by omega) (by omega)⟩⟩
  · exact ⟨_, _, rfl, .inr ⟨hlow, hfirst _ (by omega) (by omega)⟩⟩

theorem toNat_ascii {c : Char} (h : c.toNat < 128) : (ascii c).toNat = c.toNat := by
  unfold ascii
  rw [UInt8.toNat_ofNat', Nat.mod_eq_of_lt (by omega)]

/-- A first byte is an ASCII character exactly if the character is. -/
theorem Leads.eq_ascii_iff {c a : Char} {b : UInt8} (h : Leads c b) (ha : a.toNat < 128) :
    b = ascii a ↔ c = a := by
  rcases h with ⟨hc, rfl⟩ | ⟨hc, hb⟩
  · refine ⟨fun heq => Char.toNat_inj.mp ?_, fun heq => by rw [heq]⟩
    rw [← toNat_ascii hc, heq, toNat_ascii ha]
  · refine ⟨fun heq => ?_, fun heq => ?_⟩
    · rw [heq, toNat_ascii ha] at hb
      omega
    · rw [heq] at hc
      omega

theorem isDigit_iff (c : Char) : c.isDigit = true ↔ 48 ≤ c.toNat ∧ c.toNat ≤ 57 := by
  unfold Char.isDigit
  rw [Bool.and_eq_true, decide_eq_true_eq, decide_eq_true_eq]
  rfl

theorem Leads.isAsciiDigit {c : Char} {b : UInt8} (h : Leads c b) :
    isAsciiDigit b = c.isDigit := by
  rw [Bool.eq_iff_iff, isDigit_iff, Rust.isAsciiDigit, Bool.and_eq_true, decide_eq_true_eq,
    decide_eq_true_eq, UInt8.le_iff_toNat_le, UInt8.le_iff_toNat_le]
  have hzero : (ascii '0').toNat = 48 := rfl
  have hnine : (ascii '9').toNat = 57 := rfl
  rcases h with ⟨hc, rfl⟩ | ⟨hc, hb⟩
  · rw [toNat_ascii hc, hzero, hnine]
  · omega

/-- The four white spaces of JSON. -/
def isSpace (c : Char) : Bool :=
  c == ' ' || c == '\t' || c == '\n' || c == '\r'

theorem Leads.isSpaceByte {c : Char} {b : UInt8} (h : Leads c b) : isSpaceByte b = isSpace c := by
  have heq : ∀ a : Char, a.toNat < 128 → (b == ascii a) = (c == a) := fun a ha => by
    rw [Bool.eq_iff_iff, beq_iff_eq, beq_iff_eq]
    exact h.eq_ascii_iff ha
  unfold Rust.isSpaceByte isSpace
  rw [heq ' ' (by decide), heq '\t' (by decide), heq '\n' (by decide), heq '\r' (by decide)]

theorem lt_of_isDigit {c : Char} (h : c.isDigit = true) : c.toNat < 128 := by
  have := (isDigit_iff c).mp h
  omega

theorem lt_of_isSpace {c : Char} (h : isSpace c = true) : c.toNat < 128 := by
  simp only [isSpace, Bool.or_eq_true, beq_iff_eq] at h
  rcases h with ((rfl | rfl) | rfl) | rfl <;> decide

theorem encode_append (cs cs' : List Char) : encode (cs ++ cs') = encode cs ++ encode cs' :=
  List.flatMap_append ..

theorem encode_cons (c : Char) (cs : List Char) :
    encode (c :: cs) = String.utf8EncodeChar c ++ encode cs :=
  List.flatMap_cons ..

theorem encode_singleton (c : Char) : encode [c] = String.utf8EncodeChar c :=
  List.append_nil _

theorem fromUtf8_encode (cs : List Char) : fromUtf8 (encode cs) = some (String.ofList cs) := by
  unfold encode
  rw [← utf8Bytes_ofList, fromUtf8_utf8Bytes]

theorem encode_ascii : ∀ {cs : List Char}, (∀ c ∈ cs, c.toNat < 128) →
    encode cs = cs.map ascii
  | [], _ => rfl
  | c :: cs, h => by
    rw [encode_cons, utf8EncodeChar_of_lt (h c List.mem_cons_self),
      encode_ascii fun c' hc' => h c' (List.mem_cons_of_mem _ hc')]
    rfl

theorem length_encode_ge : ∀ cs : List Char, cs.length ≤ (encode cs).length
  | [] => le_rfl
  | c :: cs => by
    have hpos := c.utf8Size_pos
    have hle := length_encode_ge cs
    rw [encode_cons, List.length_append, String.length_utf8EncodeChar, List.length_cons]
    omega

theorem encode_eq_nil {cs : List Char} : encode cs = [] ↔ cs = [] := by
  refine ⟨fun h => List.length_eq_zero_iff.mp (Nat.le_zero.mp ?_), fun h => by rw [h]; rfl⟩
  rw [← List.length_eq_zero_iff.mpr h]
  exact length_encode_ge cs

/-- A run of bytes is the run of the characters they lead. -/
theorem takeWhile_encode {p : Char → Bool} {q : UInt8 → Bool}
    (hpq : ∀ c b, Leads c b → q b = p c) (hascii : ∀ c, p c = true → c.toNat < 128) :
    ∀ cs : List Char, (encode cs).takeWhile q = encode (cs.takeWhile p)
  | [] => rfl
  | c :: cs => by
    obtain ⟨b, bs, hb, hlead⟩ := exists_utf8EncodeChar c
    rw [encode_cons, hb, List.cons_append]
    by_cases hc : p c = true
    · have hbyte : b :: bs = [ascii c] := hb.symm.trans (utf8EncodeChar_of_lt (hascii c hc))
      obtain ⟨rfl, rfl⟩ := List.cons_eq_cons.mp hbyte
      rw [List.takeWhile_cons_of_pos ((hpq _ _ hlead).trans hc), List.takeWhile_cons_of_pos hc,
        List.nil_append, takeWhile_encode hpq hascii cs, encode_cons,
        utf8EncodeChar_of_lt (hascii c hc)]
      rfl
    · rw [List.takeWhile_cons_of_neg (by rwa [hpq _ _ hlead]), List.takeWhile_cons_of_neg hc]
      rfl

section At

variable {bytes : List UInt8} {pos : ℕ} {c : Char} {input rest : List Char}

theorem At.length (h : At bytes pos input) : bytes.length = pos + (encode input).length := by
  have hle := h.le
  rw [← h.drop, List.length_drop]
  omega

theorem At.append (taken : List Char) (h : At bytes pos (taken ++ rest)) :
    At bytes (pos + (encode taken).length) rest := by
  have hlen := h.length
  rw [encode_append, List.length_append] at hlen
  refine ⟨by omega, ?_⟩
  rw [← List.drop_drop, h.drop, encode_append, List.drop_left]

theorem At.tail (h : At bytes pos (c :: rest)) : At bytes (pos + c.utf8Size) rest := by
  have hrest := At.append [c] h
  rwa [encode_singleton, String.length_utf8EncodeChar] at hrest

theorem At.tail_ascii (h : At bytes pos (c :: rest)) (hc : c.toNat < 128) :
    At bytes (pos + 1) rest := by
  have hrest := At.append [c] h
  rwa [encode_singleton, utf8EncodeChar_of_lt hc] at hrest

theorem At.eq_length (h : At bytes pos []) : pos = bytes.length := by
  rw [h.length]
  rfl

theorem At.ge_iff (h : At bytes pos input) : pos ≥ bytes.length ↔ input = [] := by
  rw [← encode_eq_nil, ← List.length_eq_zero_iff, h.length]
  omega

theorem At.getElem (h : At bytes pos (c :: rest)) : ∃ b, bytes[pos]? = some b ∧ Leads c b := by
  obtain ⟨b, bs, hb, hlead⟩ := exists_utf8EncodeChar c
  refine ⟨b, ?_, hlead⟩
  have hdrop := h.drop
  rw [encode_cons, hb] at hdrop
  rw [← List.head?_drop, hdrop]
  rfl

theorem At.getElem_nil (h : At bytes pos []) : bytes[pos]? = none := by
  rw [List.getElem?_eq_none_iff]
  exact (h.eq_length).ge

/-- The byte at a position is an ASCII character exactly if the next character is. -/
theorem At.getElem_eq_iff (h : At bytes pos input) {a : Char} (ha : a.toNat < 128) :
    bytes[pos]? = some (ascii a) ↔ input.head? = some a := by
  rcases input with - | ⟨c, rest⟩
  · rw [h.getElem_nil]
    exact iff_of_false nofun nofun
  · obtain ⟨b, hb, hlead⟩ := h.getElem
    rw [hb, Option.some_inj, hlead.eq_ascii_iff ha, List.head?_cons, Option.some_inj]

theorem At.dropWhile (h : At bytes pos input) {p : Char → Bool} {q : UInt8 → Bool}
    (hpq : ∀ c b, Leads c b → q b = p c) (hascii : ∀ c, p c = true → c.toNat < 128) :
    At bytes (pos + ((bytes.drop pos).takeWhile q).length) (input.dropWhile p) := by
  rw [h.drop, takeWhile_encode hpq hascii]
  refine At.append (input.takeWhile p) ?_
  rwa [List.takeWhile_append_dropWhile]

end At

/-! ## The reader -/

section Reader

variable (conv : FloatText) (checks : Bool)

def skipSpace (input : List Char) : List Char :=
  input.dropWhile isSpace

/-- The four digits at the front. -/
def readHex : List Char → Outcome (ℕ × List Char)
  | a :: b :: c :: d :: rest => do
    let n ← .ofOption (u16FromStrRadix16 [a, b, c, d])
    pure (n, rest)
  | _ => .fail

/-- After a second `\u` with as many bytes as its digits have. -/
def afterUnicode : List Char → Option (List Char)
  | c :: u :: rest =>
    if c = '\\' ∧ u = 'u' ∧ 4 ≤ (encode rest).length then some rest else none
  | _ => none

def readUnicode (input : List Char) : Outcome (Char × List Char) := do
  let (cp, rest) ← readHex input
  if 0xD800 ≤ cp ∧ cp ≤ 0xDBFF then
    match afterUnicode rest with
    | some rest => do
      let (cp2, rest) ← readHex rest
      let codepoint ← surrogatePair checks cp cp2
      let c ← .ofOption (charFromU32 codepoint)
      pure (c, rest)
    | none => pure ('\uFFFD', rest)
  else do
    let c ← .ofOption (charFromU32 cp)
    pure (c, rest)

def readEscape : List Char → Outcome (Char × List Char)
  | [] => .fail
  | e :: rest =>
    if e = 'u' then readUnicode checks rest
    else do
      let c ← .ofOption (shortEscapes.lookup e)
      pure (c, rest)

def readStringLoop : ℕ → List Char → String → Outcome (String × List Char)
  | 0, _, _ => .outOfFuel
  | _ + 1, [], _ => .fail
  | fuel + 1, c :: rest, s =>
    if c = '"' then pure (s, rest)
    else if c = '\\' then do
      let (c, rest) ← readEscape checks rest
      readStringLoop fuel rest (s.push c)
    else readStringLoop fuel rest (s.push c)

/-- The end of the text is not looked for. -/
def readString (fuel : ℕ) : List Char → Outcome (String × List Char)
  | [] => .panic
  | c :: rest => if c = '"' then readStringLoop checks fuel rest "" else .fail

/-- The minus sign of a number, or nothing. -/
def readMinus : List Char → List Char × List Char
  | [] => ([], [])
  | c :: rest => if c = '-' then ([c], rest) else ([], c :: rest)

/-- Digits at the front, at least one. -/
def readDigits (input : List Char) : Option (List Char × List Char) :=
  if input.head?.any Char.isDigit then
    some (input.takeWhile Char.isDigit, input.dropWhile Char.isDigit)
  else none

def readInteger : List Char → Option (List Char × List Char)
  | [] => none
  | c :: rest => if c = '0' then some ([c], rest) else readDigits (c :: rest)

/-- The text of the fraction, which may be empty. -/
def readFraction : List Char → Option (List Char × List Char)
  | [] => some ([], [])
  | c :: rest =>
    if c = '.' then (readDigits rest).map fun r => (c :: r.1, r.2) else some ([], c :: rest)

/-- The sign of an exponent, or nothing. -/
def readSign : List Char → List Char × List Char
  | [] => ([], [])
  | c :: rest => if c = '+' ∨ c = '-' then ([c], rest) else ([], c :: rest)

def readExponent : List Char → Option (List Char × List Char)
  | [] => some ([], [])
  | c :: rest =>
    if c = 'e' ∨ c = 'E' then
      (readDigits (readSign rest).2).map fun r => (c :: ((readSign rest).1 ++ r.1), r.2)
    else some ([], c :: rest)

/-- The texts of a minus sign, an integer, a fraction and an exponent. -/
structure NumberText where
  minus : List Char
  int : List Char
  frac : List Char
  exp : List Char

def NumberText.text (t : NumberText) : List Char :=
  t.minus ++ (t.int ++ (t.frac ++ t.exp))

def NumberText.value (t : NumberText) : Option JsonValue :=
  numberValue conv (t.frac != [] || t.exp != []) (t.minus != []) (String.ofList t.text)

def readNumberText (input : List Char) : Option (NumberText × List Char) := do
  let (int, rest) ← readInteger (readMinus input).2
  let (frac, rest) ← readFraction rest
  let (exp, rest) ← readExponent rest
  pure (⟨(readMinus input).1, int, frac, exp⟩, rest)

def readNumber (input : List Char) : Outcome (JsonValue × List Char) := do
  let (t, rest) ← .ofOption (readNumberText input)
  let v ← .ofOption (t.value conv)
  pure (v, rest)

/-- A word with its value. -/
def readWord (word : String) (v : JsonValue) (input : List Char) :
    Option (JsonValue × List Char) :=
  if word.toList.isPrefixOf input then some (v, input.drop word.length) else none

def readBool (input : List Char) : Outcome (JsonValue × List Char) :=
  .ofOption ((readWord "true" (.bool true) input).or (readWord "false" (.bool false) input))

def readNull (input : List Char) : Outcome (JsonValue × List Char) :=
  .ofOption (readWord "null" .null input)

/-- After a value : the end of the collection, or a comma and more of it. -/
def readNext (close : Char) (done : JsonValue)
    (more : List Char → Outcome (JsonValue × List Char)) :
    List Char → Outcome (JsonValue × List Char)
  | [] => .fail
  | c :: rest =>
    if c = close then pure (done, rest) else if c = ',' then more rest else .fail

def readArrayLoop (readValue : List Char → Outcome (JsonValue × List Char)) :
    ℕ → List Char → List JsonValue → Outcome (JsonValue × List Char)
  | 0, _, _ => .outOfFuel
  | fuel + 1, input, arr => do
    let (val, rest) ← readValue input
    readNext ']' (.array (arr ++ [val]))
      (fun rest => readArrayLoop readValue fuel rest (arr ++ [val])) (skipSpace rest)

def readArray (readValue : List Char → Outcome (JsonValue × List Char)) (fuel : ℕ)
    (input : List Char) : Outcome (JsonValue × List Char) :=
  if (skipSpace input).head? = some ']' then pure (.array [], (skipSpace input).tail)
  else readArrayLoop readValue fuel (skipSpace input) []

def readObjectLoop (readValue : List Char → Outcome (JsonValue × List Char)) (n : ℕ) :
    ℕ → List Char → List (String × JsonValue) → Outcome (JsonValue × List Char)
  | 0, _, _ => .outOfFuel
  | fuel + 1, input, map => do
    let (key, rest) ← readString checks n (skipSpace input)
    if (skipSpace rest).head? ≠ some ':' then .fail
    else do
      let (val, rest) ← readValue (skipSpace rest).tail
      readNext '}' (.object (insertMember map key val))
        (fun rest => readObjectLoop readValue n fuel rest (insertMember map key val))
        (skipSpace rest)

def readObject (readValue : List Char → Outcome (JsonValue × List Char)) (fuel : ℕ)
    (input : List Char) : Outcome (JsonValue × List Char) :=
  if (skipSpace input).head? = some '}' then pure (.object [], (skipSpace input).tail)
  else readObjectLoop checks readValue fuel fuel (skipSpace input) []

/-- `n` is the fuel of the loops. -/
def readValue (n : ℕ) : ℕ → List Char → Outcome (JsonValue × List Char)
  | 0, _ => .outOfFuel
  | fuel + 1, input =>
    match skipSpace input with
    | [] => .fail
    | c :: rest =>
      if c = '"' then do
        let (s, rest) ← readStringLoop checks n rest ""
        pure (.string s, rest)
      else if c = '{' then readObject checks (readValue n fuel) n rest
      else if c = '[' then readArray (readValue n fuel) n rest
      else if c = 't' ∨ c = 'f' then readBool (c :: rest)
      else if c = 'n' then readNull (c :: rest)
      else if c = '-' ∨ c.isDigit then readNumber conv (c :: rest)
      else .fail

def readDocument (text : List Char) : Outcome JsonValue :=
  if text = [] then .fail
  else do
    let n := (encode text).length
    let (val, rest) ← readValue conv checks n (n + 1) text
    if skipSpace rest = [] then pure val else .fail

end Reader

end Json

end Rust

end DataShare
