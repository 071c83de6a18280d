import DataShare.JsonDescent

/-!
# The grammars of JSON

A grammar relates a phrase to the text before it and the text after it. The grammars differ in
what a string literal may hold (`Dialect`) : `Dialect.rfc` is RFC 8259, `Dialect.code` is what the
parser takes. A text on which the parser panics is `Stuck`.
-/

namespace DataShare

namespace Rust

namespace Json

/-! ## String literals -/

/-- A high surrogate. -/
def IsHigh (n : ℕ) : Prop :=
  0xD800 ≤ n ∧ n ≤ 0xDBFF

instance (n : ℕ) : Decidable (IsHigh n) :=
  inferInstanceAs (Decidable (_ ∧ _))

/-- A low surrogate. -/
def IsLow (n : ℕ) : Prop :=
  0xDC00 ≤ n ∧ n ≤ 0xDFFF

instance (n : ℕ) : Decidable (IsLow n) :=
  inferInstanceAs (Decidable (_ ∧ _))

/-- What a string literal may hold. -/
structure Dialect where
  /-- The characters that stand for themselves, but for the quote and the backslash. -/
  raw : Char → Prop
  /-- The digits of a unit. -/
  hex : List Char → ℕ → Prop
  /-- A high surrogate, a second unit, and their code point. -/
  pair : ℕ → ℕ → ℕ → Prop
  /-- The texts before which a high surrogate stands alone. -/
  lone : List Char → Prop

namespace Dialect

/-- Four hexadecimal digits. -/
def fourDigits (ds : List Char) (n : ℕ) : Prop :=
  ds.length = 4 ∧ hexValue ds = some n

/-- The code point of a high and a low surrogate. -/
def surrogates (n n' code : ℕ) : Prop :=
  IsLow n' ∧ code = 0x10000 + (n - 0xD800) * 0x400 + (n' - 0xDC00)

/-- RFC 8259, with surrogates in pairs only. -/
def rfc : Dialect where
  raw c := 0x20 ≤ c.toNat
  hex := fourDigits
  pair := surrogates
  lone _ := False

/-- What `parse_string` takes. -/
def code (checks : Bool) : Dialect where
  raw _ := True
  hex ds n := ds.length = 4 ∧ u16FromStrRadix16 ds = some n
  pair n n' code := surrogatePair checks n n' = .ok code
  lone rest := afterUnicode rest = none

end Dialect

/-- One character of a string literal. -/
inductive Item (D : Dialect) : Char → List Char → List Char → Prop
  | raw {c : Char} {rest : List Char} (hquote : c ≠ '"') (hslash : c ≠ '\\') (h : D.raw c) :
    Item D c (c :: rest) rest
  | short {e c : Char} {rest : List Char} (h : shortEscapes.lookup e = some c) :
    Item D c ('\\' :: e :: rest) rest
  | unicode {ds : List Char} {n : ℕ} {c : Char} {rest : List Char} (h : D.hex ds n)
    (hhigh : ¬IsHigh n) (hc : charFromU32 n = some c) : Item D c ('\\' :: 'u' :: (ds ++ rest)) rest
  | pair {ds ds' : List Char} {n n' code : ℕ} {c : Char} {rest : List Char} (h : D.hex ds n)
    (hhigh : IsHigh n) (h' : D.hex ds' n') (hcode : D.pair n n' code)
    (hc : charFromU32 code = some c) :
    Item D c ('\\' :: 'u' :: (ds ++ '\\' :: 'u' :: (ds' ++ rest))) rest
  | lone {ds : List Char} {n : ℕ} {rest : List Char} (h : D.hex ds n) (hhigh : IsHigh n)
    (hrest : D.lone rest) : Item D '\uFFFD' ('\\' :: 'u' :: (ds ++ rest)) rest

/-- A string literal after its first quote. -/
inductive Body (D : Dialect) : List Char → List Char → List Char → Prop
  | close {rest : List Char} : Body D [] ('"' :: rest) rest
  | item {c : Char} {cs input mid rest : List Char} (h : Item D c input mid)
    (hrest : Body D cs mid rest) : Body D (c :: cs) input rest

/-- After items of a literal, a high surrogate and a second unit below the low surrogates. -/
inductive Underflow (checks : Bool) : List Char → Prop
  | here {ds ds' : List Char} {n n' : ℕ} {rest : List Char} (h : (Dialect.code checks).hex ds n)
    (hhigh : IsHigh n) (h' : (Dialect.code checks).hex ds' n') (hlow : n' < 0xDC00) :
    Underflow checks ('\\' :: 'u' :: (ds ++ '\\' :: 'u' :: (ds' ++ rest)))
  | item {c : Char} {input mid : List Char} (h : Item (.code checks) c input mid)
    (hmid : Underflow checks mid) : Underflow checks input

/-! ## Numbers -/

def Digits (ds : List Char) : Prop :=
  ds ≠ [] ∧ ∀ d ∈ ds, d.isDigit = true

/-- The number texts of RFC 8259. -/
structure NumberText.WellFormed (t : NumberText) : Prop where
  minus : t.minus = [] ∨ t.minus = ['-']
  int : t.int = ['0'] ∨ Digits t.int ∧ t.int.head? ≠ some '0'
  frac : t.frac = [] ∨ ∃ ds, Digits ds ∧ t.frac = '.' :: ds
  exp : t.exp = [] ∨ ∃ e sign ds, (e = 'e' ∨ e = 'E') ∧ (sign = [] ∨ sign = ['+'] ∨ sign = ['-']) ∧
    Digits ds ∧ t.exp = e :: (sign ++ ds)

/-! ## Values -/

def Space (sp : List Char) : Prop :=
  ∀ c ∈ sp, isSpace c = true

/-- The map of a member list. -/
def insertMembers (map : List (String × JsonValue)) (kvs : List (String × JsonValue)) :
    List (String × JsonValue) :=
  kvs.foldl (fun map kv => insertMember map kv.1 kv.2) map

inductive Phrase
  | value (v : JsonValue)
  | elements (vs : List JsonValue)
  | members (kvs : List (String × JsonValue))

/-- A phrase between the text before it and the text after it. -/
inductive Reads (conv : FloatText) (D : Dialect) : Phrase → List Char → List Char → Prop
  | null {rest : List Char} : Reads conv D (.value .null) ("null".toList ++ rest) rest
  | true {rest : List Char} : Reads conv D (.value (.bool true)) ("true".toList ++ rest) rest
  | false {rest : List Char} : Reads conv D (.value (.bool false)) ("false".toList ++ rest) rest
  | number {t : NumberText} {v : JsonValue} {rest : List Char} (h : t.WellFormed)
    (hv : t.value conv = some v) : Reads conv D (.value v) (t.text ++ rest) rest
  | string {cs input rest : List Char} (h : Body D cs input rest) :
    Reads conv D (.value (.string (String.ofList cs))) ('"' :: input) rest
  | emptyArray {sp rest : List Char} (hsp : Space sp) :
    Reads conv D (.value (.array [])) ('[' :: (sp ++ ']' :: rest)) rest
  | array {vs : List JsonValue} {input rest : List Char}
    (h : Reads conv D (.elements vs) input rest) :
    Reads conv D (.value (.array vs)) ('[' :: input) rest
  | emptyObject {sp rest : List Char} (hsp : Space sp) :
    Reads conv D (.value (.object [])) ('{' :: (sp ++ '}' :: rest)) rest
  | object {kvs : List (String × JsonValue)} {input rest : List Char}
    (h : Reads conv D (.members kvs) input rest) :
    Reads conv D (.value (.object (insertMembers [] kvs))) ('{' :: input) rest
  | lastElement {v : JsonValue} {sp sp' input rest : List Char} (hsp : Space sp) (hsp' : Space sp')
    (h : Reads conv D (.value v) input (sp' ++ ']' :: rest)) :
    Reads conv D (.elements [v]) (sp ++ input) rest
  | moreElements {v : JsonValue} {vs : List JsonValue} {sp sp' input mid rest : List Char}
    (hsp : Space sp) (hsp' : Space sp') (h : Reads conv D (.value v) input (sp' ++ ',' :: mid))
    (hmore : Reads conv D (.elements vs) mid rest) :
    Reads conv D (.elements (v :: vs)) (sp ++ input) rest
  | lastMember {k : List Char} {v : JsonValue} {sp sp₁ sp₂ sp₃ text input rest : List Char}
    (hsp : Space sp) (hsp₁ : Space sp₁) (hsp₂ : Space sp₂) (hsp₃ : Space sp₃)
    (hkey : Body D k text (sp₁ ++ ':' :: (sp₂ ++ input)))
    (h : Reads conv D (.value v) input (sp₃ ++ '}' :: rest)) :
    Reads conv D (.members [(String.ofList k, v)]) (sp ++ '"' :: text) rest
  | moreMembers {k : List Char} {v : JsonValue} {kvs : List (String × JsonValue)}
    {sp sp₁ sp₂ sp₃ text input mid rest : List Char}
    (hsp : Space sp) (hsp₁ : Space sp₁) (hsp₂ : Space sp₂) (hsp₃ : Space sp₃)
    (hkey : Body D k text (sp₁ ++ ':' :: (sp₂ ++ input)))
    (h : Reads conv D (.value v) input (sp₃ ++ ',' :: mid))
    (hmore : Reads conv D (.members kvs) mid rest) :
    Reads conv D (.members ((String.ofList k, v) :: kvs)) (sp ++ '"' :: text) rest

/-- A value with white space around it. -/
def Document (conv : FloatText) (D : Dialect) (text : List Char) (v : JsonValue) : Prop :=
  ∃ sp input sp', Space sp ∧ Space sp' ∧ text = sp ++ input ∧ Reads conv D (.value v) input sp'

/-! ## Stuck texts -/

inductive Place
  | value
  | elements
  | members

/-- A well formed beginning of a text, and then the place of a panic : the end of the text where
the key of a member is to begin, or with overflow checks a surrogate pair that underflows. -/
inductive Stuck (conv : FloatText) (checks : Bool) : Place → List Char → Prop
  | string {input : List Char} (hchecks : checks = true) (h : Underflow checks input) :
    Stuck conv checks .value ('"' :: input)
  | array {input : List Char} (h : Stuck conv checks .elements input) :
    Stuck conv checks .value ('[' :: input)
  | object {input : List Char} (h : Stuck conv checks .members input) :
    Stuck conv checks .value ('{' :: input)
  | element {sp input : List Char} (hsp : Space sp) (h : Stuck conv checks .value input) :
    Stuck conv checks .elements (sp ++ input)
  | laterElement {v : JsonValue} {sp sp' input mid : List Char} (hsp : Space sp) (hsp' : Space sp')
    (h : Reads conv (.code checks) (.value v) input (sp' ++ ',' :: mid))
    (hmore : Stuck conv checks .elements mid) : Stuck conv checks .elements (sp ++ input)
  | noKey {sp : List Char} (hsp : Space sp) : Stuck conv checks .members sp
  | key {sp text : List Char} (hsp : Space sp) (hchecks : checks = true)
    (h : Underflow checks text) : Stuck conv checks .members (sp ++ '"' :: text)
  | member {k sp sp₁ sp₂ text input : List Char} (hsp : Space sp) (hsp₁ : Space sp₁)
    (hsp₂ : Space sp₂) (hkey : Body (.code checks) k text (sp₁ ++ ':' :: (sp₂ ++ input)))
    (h : Stuck conv checks .value input) : Stuck conv checks .members (sp ++ '"' :: text)
  | laterMember {k : List Char} {v : JsonValue} {sp sp₁ sp₂ sp₃ text input mid : List Char}
    (hsp : Space sp) (hsp₁ : Space sp₁) (hsp₂ : Space sp₂) (hsp₃ : Space sp₃)
    (hkey : Body (.code checks) k text (sp₁ ++ ':' :: (sp₂ ++ input)))
    (h : Reads conv (.code checks) (.value v) input (sp₃ ++ ',' :: mid))
    (hmore : Stuck conv checks .members mid) : Stuck conv checks .members (sp ++ '"' :: text)

/-! ## Outcomes that meet a specification -/

/-- A value with `P`, or a failure, or a panic in the case `Q`. -/
def Meets {α : Type} (P : α → Prop) (Q : Prop) (x : Outcome α) : Prop :=
  (∃ a, x = .ok a ∧ P a) ∨ x = .fail ∨ x = .panic ∧ Q

section Meets

variable {α β : Type} {P P' : α → Prop} {Q Q' : Prop}

theorem Meets.ok {a : α} (h : P a) : Meets P Q (.ok a) :=
  .inl ⟨a, rfl, h⟩

theorem Meets.fail : Meets P Q .fail :=
  .inr (.inl rfl)

theorem Meets.panic (h : Q) : Meets P Q .panic :=
  .inr (.inr ⟨rfl, h⟩)

theorem Meets.bind {R : β → Prop} {x : Outcome α} {f : α → Outcome β} (h : Meets P Q x)
    (hf : ∀ a, P a → Meets R Q' (f a)) (hQ : Q → Q') : Meets R Q' (x >>= f) := by
  rcases h with ⟨a, rfl, ha⟩ | rfl | ⟨rfl, hq⟩
  · exact hf a ha
  · exact .fail
  · exact .panic (hQ hq)

theorem Meets.mono {x : Outcome α} (h : Meets P Q x) (hP : ∀ a, P a → P' a) (hQ : Q → Q') :
    Meets P' Q' x := by
  rcases h with ⟨a, rfl, ha⟩ | rfl | ⟨rfl, hq⟩
  · exact .ok (hP a ha)
  · exact .fail
  · exact .panic (hQ hq)

theorem meets_ofOption {x : Option α} : Meets (fun a => x = some a) Q (.ofOption x) := by
  rcases x with - | a
  · exact .fail
  · exact .ok rfl

end Meets

end Json

end Rust

end DataShare
