import DataShare.IntegerTexts
import DataShare.JsonReader
import DataShare.TypedGetters
import Mathlib.Data.Int.ModEq

/-!
# The typed getters of both languages

The getters of `result_set.rs` say in their comments what C++ does, and are meant to do the same.
For a cell with any content, at a position that both result sets accept, `getters_agree_iff`
says exactly where they do : both fail, or both succeed with the same value. And it says where
`GetInt` is `GetLong` reduced to 32 bits.

They differ in most ways to read a text as a number, in the blob of a number or a null, in the
text of a blob, in cells of no known type, and in the `GetInt` of C++, which takes the low word of
whatever is in the cell. How a double is printed is left out.
-/

namespace DataShare

open Rust (DataShareError FloatConversions parseI64 sizeOfCellUnit cellUnitTypeNull
  cellUnitTypeString)

open Cpp (StdString Conversions eOk eError eInvalidObjectType)

/-! ## Casts of doubles -/

namespace Double

def negative (d : Double) : Bool :=
  decide (2 ^ 63 ≤ d.bits.toNat)

def exponent (d : Double) : ℕ :=
  d.bits.toNat / 2 ^ 52 % 2 ^ 11

def fraction (d : Double) : ℕ :=
  d.bits.toNat % 2 ^ 52

/-- The integer part, which infinities and NaN do not have. -/
def trunc (d : Double) : Option ℤ :=
  if d.exponent = 2047 then none
  else if d.exponent = 0 then some 0
  else some (signed d.negative ((2 ^ 52 + d.fraction) * 2 ^ d.exponent / 2 ^ 1075))

/-- The integer part fits in 64 bits. -/
def Fits (d : Double) : Prop :=
  ∃ v, d.trunc = some v ∧ InRange v

end Double

/-- `as i64` : NaN is 0, and what does not fit saturates. -/
def Rust.castI64 (d : Double) : Int64 :=
  match d.trunc with
  | some v => saturate v
  | none => if d.fraction = 0 then saturate (signed d.negative (2 ^ 63)) else 0

/-- The conversions of Rust, but for how a double is printed. -/
def Rust.FloatConversions.Conforms (conv : FloatConversions) : Prop :=
  conv.asI64 = Rust.castI64

/-- The conversions of C++, as far as the language defines them. -/
structure Cpp.Conversions.Conforms (conv : Conversions) : Prop where
  asI64 : ∀ d v, d.trunc = some v → InRange v → conv.asI64 d = .ofInt v
  strtoll : conv.strtoll = DataShare.strtoll

/-! ## What is asked for -/

/-- Both fail, or both succeed with the same value. -/
def Same {α β : Type} (same : α → β → Prop) :
    Option (Except DataShareError α) → Option (Int32 × β) → Prop
  | some (.ok a), some (code, b) => code = eOk ∧ same a b
  | some (.error _), some (code, _) => code ≠ eOk
  | _, _ => False

/-- The getters, each with what the C++ caller has in its argument, and `GetInt` against
`GetLong`. -/
inductive Requirement
  | sameString (value : StdString)
  | sameLong (value : Int64)
  | sameInt (value : Int32)
  | sameBlob (value : List UInt8)
  | sameNull (isNull : Bool)
  | reducesInRust
  | reducesInCpp (value : Int32) (value' : Int64)

def Content.IsDouble : Content → Prop
  | .cell (.double _) => True
  | _ => False

def Requirement.Met {σ τ : Type} (br : Cpp.ResultSetBridge τ) (rs : Rust.DataShareResultSet σ)
    (cs : Cpp.DataShareResultSet τ) (column : Int32) (content : Content)
    (fconv : FloatConversions) (conv : Conversions) : Requirement → Prop
  | .sameString value => Same (fun s t => content.IsDouble ∨ utf8Bytes s = t)
    (rs.getString fconv column) (cs.getString conv column value)
  | .sameLong value => Same (· = ·) (rs.getLong fconv column) (cs.getLong conv column value)
  | .sameInt value => Same (· = ·) (rs.getInt fconv column) (cs.getInt column value)
  | .sameBlob value => Same (· = ·) (rs.getBlob column)
    ((cs.getBlob br column value).map fun r => (r.1, r.2.1))
  | .sameNull isNull => Same (· = ·) (rs.isColumnNull column)
    ((cs.isColumnNull br column isNull).map fun r => (r.1, r.2.1))
  | .reducesInRust =>
    rs.getInt fconv column = (rs.getLong fconv column).map (Except.map Int64.toInt32)
  | .reducesInCpp value value' => ∃ code x code' y, cs.getInt column value = some (code, x) ∧
    cs.getLong conv column value' = some (code', y) ∧ (code = eOk ↔ code' = eOk) ∧
      (code = eOk → x = y.toInt32)

/-- Whatever the conversions do where their language leaves it open. -/
def Requirement.Holds {σ τ : Type} (br : Cpp.ResultSetBridge τ) (rs : Rust.DataShareResultSet σ)
    (cs : Cpp.DataShareResultSet τ) (column : Int32) (content : Content) (r : Requirement) : Prop :=
  ∀ (fconv : FloatConversions) (conv : Conversions), fconv.Conforms → conv.Conforms →
    r.Met br rs cs column content fconv conv

/-- The number whose low word is in the union, if the payload is at `p`. -/
def Content.word (p : ℕ) : Content → ℤ
  | .cell .null => 0
  | .cell (.long v) => v.toInt
  | .cell (.double d) => d.bits.toNat
  | .cell (.string _) => p
  | .cell (.blob _) => p
  | .unknown _ value _ => leNat (value.take 4)

/-- A null leaves the argument as it is, C++ takes any bytes, and Rust takes a blob. -/
def SameString (value : StdString) : Content → Prop
  | .cell .null => value = []
  | .cell (.long _) => True
  | .cell (.double _) => True
  | .cell (.string s) => (fromUtf8 (text s)).isSome
  | .cell (.blob bs) => fromUtf8 bs = none
  | .unknown _ _ _ => False

def SameLong : Content → Prop
  | .cell (.double d) => d.Fits
  | .cell (.string s) => SameNumber (text s)
  | .cell _ => True
  | .unknown _ _ _ => False

/-- C++ takes the low word of the union. -/
def SameInt (p : ℕ) : Content → Prop
  | .cell (.double d) => Content.word p (.cell (.double d)) ≡ (Rust.castI64 d).toInt [ZMOD 2 ^ 32]
  | .cell (.string s) => (p : ℤ) ≡ number (text s) [ZMOD 2 ^ 32]
  | .cell (.blob _) => (p : ℤ) ≡ 0 [ZMOD 2 ^ 32]
  | .cell _ => True
  | .unknown type value h => Content.word p (.unknown type value h) ≡ 0 [ZMOD 2 ^ 32]

/-- C++ has no bytes in a null or a number, and Rust fails. -/
def SameBlob : Content → Prop
  | .cell .null => False
  | .cell (.long _) => False
  | .cell (.double _) => False
  | _ => True

def Reduces (p : ℕ) : Content → Prop
  | .cell (.double d) => ∃ v, d.trunc = some v ∧ InRange v ∧
    Content.word p (.cell (.double d)) ≡ v [ZMOD 2 ^ 32]
  | .cell (.string s) => (p : ℤ) ≡ (strtoll (text s)).toInt [ZMOD 2 ^ 32]
  | .cell (.blob _) => (p : ℤ) ≡ 0 [ZMOD 2 ^ 32]
  | .cell _ => True
  | .unknown _ _ _ => False

def Requirement.Condition (content : Content) (p : ℕ) : Requirement → Prop
  | .sameString value => SameString value content
  | .sameLong _ => SameLong content
  | .sameInt _ => SameInt p content
  | .sameBlob _ => SameBlob content
  | .sameNull _ => True
  | .reducesInRust => True
  | .reducesInCpp _ _ => Reduces p content

/-! ## Numbers -/

/-- The sign of a text, and the rest. -/
def charSign (cs : List Char) : Bool × List Char :=
  match cs with
  | '-' :: cs => (true, cs)
  | '+' :: cs => (false, cs)
  | cs => (false, cs)

def charNumeral (cs : List Char) : ℕ :=
  cs.foldl (fun n c => 10 * n + (c.toNat - '0'.toNat)) 0

theorem parseI64_eq (s : String) : parseI64 s =
    if (charSign s.toList).2 ≠ [] ∧ (charSign s.toList).2.all Char.isDigit then
      if InRange (signed (charSign s.toList).1 (charNumeral (charSign s.toList).2)) then
        some (.ofInt (signed (charSign s.toList).1 (charNumeral (charSign s.toList).2)))
      else none
    else none :=
  rfl

open Rust (ascii utf8EncodeChar_of_lt)

open Rust.Json (encode encode_cons encode_ascii fromUtf8_encode exists_utf8EncodeChar
  lt_of_isDigit toNat_ascii isDigit_iff utf8Bytes_eq_encode
  encode_eq_nil)

theorem charSign_cons (c : Char) (cs : List Char) : charSign (c :: cs) =
    if c = '-' then (true, cs) else if c = '+' then (false, cs) else (false, c :: cs) := by
  by_cases hminus : c = '-'
  · subst hminus
    rfl
  by_cases hplus : c = '+'
  · subst hplus
    rfl
  rw [if_neg hminus, if_neg hplus, charSign.eq_def]
  split
  · rename_i heq
    exact absurd (List.cons.inj heq).1 hminus
  · rename_i heq
    exact absurd (List.cons.inj heq).1 hplus
  · rfl

theorem takeSign_encode (cs : List Char) :
    takeSign (encode cs) = ((charSign cs).1, encode (charSign cs).2) := by
  cases cs with
  | nil => rfl
  | cons c cs =>
    have hsign : ∀ a : Char, a.toNat < 128 → c = a → encode (c :: cs) = ascii a :: encode cs := by
      rintro a ha rfl
      rw [encode_cons, utf8EncodeChar_of_lt ha, List.singleton_append]
    obtain ⟨b, bs, hencode, hleads⟩ := exists_utf8EncodeChar c
    rw [charSign_cons]
    split
    · rename_i hminus
      rw [hsign '-' (by decide) hminus]
      rfl
    split
    · rename_i hplus
      rw [hsign '+' (by decide) hplus]
      rfl
    · rename_i hminus hplus
      have hb : b ≠ 45 := fun hb => hminus ((hleads.eq_ascii_iff (by decide)).mp hb)
      have hb' : b ≠ 43 := fun hb => hplus ((hleads.eq_ascii_iff (by decide)).mp hb)
      rw [encode_cons, hencode, List.cons_append, takeSign_cons, if_neg hb, if_neg hb']

theorem isDigitIn_ascii {c : Char} (h : c.isDigit = true) : isDigitIn 10 (ascii c) = true := by
  rw [isDigitIn_ten_iff, toNat_ascii (lt_of_isDigit h)]
  exact (isDigit_iff c).mp h

theorem all_digits_encode (cs : List Char) :
    (∀ b ∈ encode cs, isDigitIn 10 b = true) ↔ cs.all Char.isDigit = true := by
  rw [List.all_eq_true]
  constructor
  · intro hall c hc
    obtain ⟨b, bs, hencode, hleads⟩ := exists_utf8EncodeChar c
    have hmem : b ∈ encode cs := List.mem_flatMap.mpr ⟨c, hc, by rw [hencode]; simp⟩
    rw [← hleads.isAsciiDigit, Rust.isAsciiDigit, Bool.and_eq_true, decide_eq_true_eq,
      decide_eq_true_eq, UInt8.le_iff_toNat_le, UInt8.le_iff_toNat_le]
    exact isDigitIn_ten_iff.mp (hall b hmem)
  · intro hall b hb
    rw [encode_ascii fun c hc => lt_of_isDigit (hall c hc)] at hb
    obtain ⟨c, hc, rfl⟩ := List.mem_map.mp hb
    exact isDigitIn_ascii (hall c hc)

theorem numeral_encode {cs : List Char} (h : cs.all Char.isDigit = true) :
    numeral 10 (encode cs) = charNumeral cs := by
  rw [List.all_eq_true] at h
  rw [encode_ascii fun c hc => lt_of_isDigit (h c hc), numeral, List.foldl_map, charNumeral]
  refine List.foldl_ext _ _ _ fun n c hc => ?_
  have hdigit := (isDigit_iff c).mp (h c hc)
  have hnat := toNat_ascii (lt_of_isDigit (h c hc))
  have hle : 48 ≤ ascii c ∧ ascii c ≤ 57 := by
    rw [UInt8.le_iff_toNat_le, UInt8.le_iff_toNat_le, hnat]
    exact hdigit
  rw [digit, digitOf, if_pos hle, Option.getD_some, hnat]
  rfl

theorem toInt_ofInt_of_inRange {v : ℤ} (h : InRange v) : (Int64.ofInt v).toInt = v := by
  have hsaturate : saturate v = .ofInt v := by
    rw [saturate, if_neg (not_lt.mpr h.1), if_neg (not_le.mpr h.2)]
  rw [← hsaturate, toInt_saturate h]

/-- Rust reads the decimal integer that a text is. -/
theorem toInt_parseI64 (s : String) : ((parseI64 s).getD 0).toInt = number (utf8Bytes s) := by
  have hbytes := utf8Bytes_eq_encode s
  have hsign := takeSign_encode s.toList
  rw [← hbytes] at hsign
  have hdigits : (takeSign (utf8Bytes s)).2 = encode (charSign s.toList).2 := by rw [hsign]
  have hnegative : (takeSign (utf8Bytes s)).1 = (charSign s.toList).1 := by rw [hsign]
  have hne : (charSign s.toList).2 ≠ [] ↔ (takeSign (utf8Bytes s)).2 ≠ [] := by
    rw [hdigits, ne_eq, ne_eq, encode_eq_nil]
  have hall : (charSign s.toList).2.all Char.isDigit = true ↔
      ∀ b ∈ (takeSign (utf8Bytes s)).2, isDigitIn 10 b = true := by
    rw [hdigits, all_digits_encode]
  rw [parseI64_eq]
  by_cases h : (charSign s.toList).2 ≠ [] ∧ (charSign s.toList).2.all Char.isDigit = true
  · have hvalue : decimal (utf8Bytes s) =
        some (signed (charSign s.toList).1 (charNumeral (charSign s.toList).2)) := by
      refine decimal_eq_some_iff.mpr ⟨⟨hne.mp h.1, hall.mp h.2⟩, ?_⟩
      rw [hnegative, hdigits, numeral_encode h.2]
    rw [if_pos h]
    split
    · rename_i hrange
      rw [number_of_decimal hvalue hrange, Option.getD_some, toInt_ofInt_of_inRange hrange]
    · rename_i hrange
      have hno : ¬IsLong (utf8Bytes s) := by
        rintro ⟨v, hv, hv'⟩
        rw [hvalue] at hv
        cases hv
        exact hrange hv'
      rw [number_of_not_isLong hno]
      rfl
  · have hno : ¬IsLong (utf8Bytes s) := by
      rintro ⟨v, hv, -⟩
      obtain ⟨⟨hne', hall'⟩, -⟩ := decimal_eq_some_iff.mp hv
      exact h ⟨hne.mpr hne', hall.mpr hall'⟩
    rw [if_neg h, number_of_not_isLong hno]
    rfl

/-- A decimal integer is ASCII. -/
theorem isSome_fromUtf8_of_decimal {bs : StdString} {v : ℤ} (h : decimal bs = some v) :
    (fromUtf8 bs).isSome := by
  obtain ⟨⟨-, hall⟩, -⟩ := decimal_eq_some_iff.mp h
  have hascii : ∀ b ∈ bs, b.toNat < 128 := by
    cases bs with
    | nil => simp
    | cons c bs =>
      have hdigit : ∀ b : UInt8, isDigitIn 10 b = true → b.toNat < 128 := fun b hb => by
        have := isDigitIn_ten_iff.mp hb
        omega
      rw [takeSign_cons] at hall
      rintro b hb
      split at hall
      · rename_i hc
        rcases List.mem_cons.mp hb with rfl | hb
        · rw [hc]
          decide
        · exact hdigit b (hall b hb)
      split at hall
      · rename_i hc
        rcases List.mem_cons.mp hb with rfl | hb
        · rw [hc]
          decide
        · exact hdigit b (hall b hb)
      · exact hdigit b (hall b hb)
  have hchar : ∀ b ∈ bs, (Char.ofNat b.toNat).toNat = b.toNat := fun b hb => by
    have hvalid : b.toNat.isValidChar := Or.inl ((hascii b hb).trans (by decide))
    rw [Char.ofNat, dif_pos hvalid]
    rfl
  have hencode : encode (bs.map fun b => Char.ofNat b.toNat) = bs := by
    have hlt : ∀ c ∈ bs.map fun b => Char.ofNat b.toNat, c.toNat < 128 := by
      rintro c hc
      obtain ⟨b, hb, rfl⟩ := List.mem_map.mp hc
      rw [hchar b hb]
      exact hascii b hb
    rw [encode_ascii hlt, List.map_map]
    refine (List.map_congr_left fun b hb => ?_).trans (List.map_id bs)
    rw [Function.comp_apply, ascii, hchar b hb, UInt8.ofNat_toNat, id]
  rw [← hencode, fromUtf8_encode]
  rfl

/-- What Rust reads in a text. -/
theorem toInt_rustLong (conv : FloatConversions) (s : StdString) :
    ((Content.cell (.string s)).rustLong conv).toInt = number (text s) := by
  show ((parseI64 ((fromUtf8 (text s)).getD "")).getD 0).toInt = _
  rcases hutf : fromUtf8 (text s) with _ | t
  · have hno : ¬IsLong (text s) := by
      rintro ⟨v, hv, -⟩
      have hsome := isSome_fromUtf8_of_decimal hv
      rw [hutf] at hsome
      cases hsome
    rw [number_of_not_isLong hno]
    rfl
  · rw [Option.getD_some, toInt_parseI64, utf8Bytes_of_fromUtf8 hutf]

/-- The low word of one number is that of another. -/
theorem toInt32_eq_iff (a b : Int64) :
    a.toInt32 = b.toInt32 ↔ a.toInt ≡ b.toInt [ZMOD 2 ^ 32] := by
  rw [← Int32.toInt_inj, Int64.toInt_toInt32, Int64.toInt_toInt32, Int.ModEq]
  constructor
  · intro h
    have hmod : a.toInt.bmod (2 ^ 32) % ((2 ^ 32 : ℕ) : ℤ) =
        b.toInt.bmod (2 ^ 32) % ((2 ^ 32 : ℕ) : ℤ) := by rw [h]
    rw [Int.bmod_emod, Int.bmod_emod] at hmod
    exact hmod
  · intro h
    have hmod : a.toInt % ((2 ^ 32 : ℕ) : ℤ) = b.toInt % ((2 ^ 32 : ℕ) : ℤ) := h
    rw [← Int.emod_bmod, hmod, Int.emod_bmod]

theorem toInt_ofNat_modEq (n : ℕ) : (Int64.ofNat n).toInt ≡ n [ZMOD 2 ^ 32] := by
  have hdvd : ((2 ^ 32 : ℕ) : ℤ) ∣ ((2 ^ 64 : ℕ) : ℤ) := by decide
  have hmod := Int.emod_emod_of_dvd ((n : ℤ).bmod (2 ^ 64)) hdvd
  rw [Int.bmod_emod, Int.emod_emod_of_dvd _ hdvd] at hmod
  rw [Int64.toInt_ofNat', Int.ModEq]
  exact hmod.symm

/-- `GetInt` takes the low word of the union. -/
theorem toInt_value_modEq (content : Content) (p : ℕ) :
    (ofBasicBytes (content.value p) : Int64).toInt ≡ content.word p [ZMOD 2 ^ 32] := by
  have hlow : ∀ n m : ℕ, ((n + 2 ^ 32 * m : ℕ) : ℤ) ≡ n [ZMOD 2 ^ 32] := fun n m => by
    rw [Nat.cast_add, Nat.cast_mul, Int.ModEq]
    exact Int.add_mul_emod_self_left _ _ _
  have hbytes : ∀ bs : List UInt8, (ofBasicBytes bs : Int64).toInt ≡ leNat bs [ZMOD 2 ^ 32] :=
    fun bs => toInt_ofNat_modEq (leNat bs)
  have hpayload : ∀ n : ℕ, (ofBasicBytes (leBytes 4 p ++ leBytes 4 n) : Int64).toInt ≡ p
      [ZMOD 2 ^ 32] := fun n => by
    refine (hbytes _).trans ?_
    rw [leNat_append, leNat_leBytes, length_leBytes]
    refine (hlow _ _).trans ?_
    rw [Int.natCast_mod, Int.ModEq]
    exact Int.emod_emod_of_dvd _ dvd_rfl
  rcases content with (_ | v | d | s | bs) | ⟨type, value, htype⟩
  · have hzero : (leNat (leBytes 4 0 ++ leBytes 4 0) : ℤ) ≡ 0 [ZMOD 2 ^ 32] := by decide
    exact (hbytes _).trans hzero
  · show (ofBasicBytes (basicBytes v) : Int64).toInt ≡ v.toInt [ZMOD 2 ^ 32]
    rw [ofBasicBytes_basicBytes]
  · refine (hbytes _).trans ?_
    show (leNat (leBytes 8 d.bits.toNat) : ℤ) ≡ d.bits.toNat [ZMOD 2 ^ 32]
    rw [leNat_leBytes, Nat.mod_eq_of_lt (d.bits.toNat_lt.trans_eq (by decide))]
  · exact hpayload _
  · exact hpayload _
  · refine (hbytes _).trans ?_
    have hsplit := leNat_append (value.take 4) (value.drop 4)
    rw [List.take_append_drop, List.length_take, htype.2] at hsplit
    show (leNat value : ℤ) ≡ leNat (value.take 4) [ZMOD 2 ^ 32]
    rw [hsplit]
    exact hlow _ _

/-! ## Where the getters agree -/

theorem same_ok {α β : Type} {same : α → β → Prop} {a : α} {b : β} :
    Same same (some (.ok a)) (some (eOk, b)) ↔ same a b :=
  and_iff_right rfl

theorem not_same_error {α β : Type} {same : α → β → Prop} {e : DataShareError} {b : β} :
    ¬Same same (some (.error e)) (some (eOk, b)) :=
  fun h => h rfl

theorem not_same_failure {α β : Type} {same : α → β → Prop} {a : α} {code : Int32} {b : β}
    (hcode : code ≠ eOk) : ¬Same same (some (.ok a)) (some (code, b)) :=
  fun h => hcode h.1

/-- Conversions whose result is `v` where the language leaves it open. -/
def openCasts (v : Int64) : Conversions where
  toString _ := []
  asI64 d := ((d.trunc.filter fun v => decide (InRange v)).map Int64.ofInt).getD v
  strtoll := strtoll

theorem conforms_openCasts (v : Int64) : (openCasts v).Conforms where
  asI64 d n hn hrange := by
    show ((d.trunc.filter fun v => decide (InRange v)).map Int64.ofInt).getD v = .ofInt n
    rw [hn, Option.filter_some, if_pos (decide_eq_true hrange)]
    rfl
  strtoll := rfl

theorem openCasts_asI64 {d : Double} (h : ¬d.Fits) (v : Int64) : (openCasts v).asI64 d = v := by
  show ((d.trunc.filter fun v => decide (InRange v)).map Int64.ofInt).getD v = v
  cases htrunc : d.trunc with
  | none => rfl
  | some n =>
    have hrange : ¬InRange n := fun hrange => h ⟨n, htrunc, hrange⟩
    rw [Option.filter_some, if_neg (by simpa using hrange)]
    rfl

def exactCasts : FloatConversions where
  asI64 := Rust.castI64
  ofI64 _ := ⟨0⟩
  toString _ := ""
  parse _ := none

/-- What does not depend on the conversions. -/
theorem forall_conforms_iff {Q : FloatConversions → Conversions → Prop} {P : Prop}
    (h : ∀ fconv conv, fconv.Conforms → conv.Conforms → (Q fconv conv ↔ P)) :
    (∀ (fconv : FloatConversions) (conv : Conversions), fconv.Conforms → conv.Conforms →
      Q fconv conv) ↔ P :=
  ⟨fun hall => (h exactCasts (openCasts 0) rfl (conforms_openCasts 0)).mp
    (hall _ _ rfl (conforms_openCasts 0)), fun hp _ _ hf hc => (h _ _ hf hc).mpr hp⟩

theorem castI64_of_trunc {d : Double} {v : ℤ} (h : d.trunc = some v) (hrange : InRange v) :
    Rust.castI64 d = .ofInt v := by
  unfold Rust.castI64
  rw [h]
  show saturate v = _
  rw [saturate, if_neg (not_lt.mpr hrange.1), if_neg (not_le.mpr hrange.2)]

section Agreement

variable {σ τ : Type} {br : Cpp.ResultSetBridge τ} {rs : Rust.DataShareResultSet σ}
  {cs : Cpp.DataShareResultSet τ} {column : Int32} {content : Content} {p : ℕ}

theorem AtCell.rustString_eq (h : AtCell br rs cs column content p) (conv : FloatConversions) :
    rs.getString conv column = some (content.rustString conv) := by
  obtain ⟨b, ptr, q, hplaced, hcell⟩ := h.withCell_eq (.error .invalidOperation)
    (Rust.DataShareResultSet.stringOf conv)
  rw [Rust.DataShareResultSet.getString, hcell, hplaced.stringOf_eq]

theorem AtCell.rustLong_eq (h : AtCell br rs cs column content p) (conv : FloatConversions) :
    rs.getLong conv column = some (.ok (content.rustLong conv)) := by
  obtain ⟨b, ptr, q, hplaced, hcell⟩ := h.withCell_eq (.error .invalidOperation)
    (Rust.DataShareResultSet.longOf conv)
  rw [Rust.DataShareResultSet.getLong, hcell, hplaced.longOf_eq]

theorem AtCell.rustInt_eq (h : AtCell br rs cs column content p) (conv : FloatConversions) :
    rs.getInt conv column = some (.ok (content.rustLong conv).toInt32) := by
  rw [Rust.DataShareResultSet.getInt, h.rustLong_eq]
  rfl

theorem AtCell.rustBlob_eq (h : AtCell br rs cs column content p) :
    rs.getBlob column = some content.rustBlob := by
  obtain ⟨b, ptr, q, hplaced, hcell⟩ := h.withCell_eq (.error .invalidOperation)
    Rust.DataShareResultSet.blobOf
  rw [Rust.DataShareResultSet.getBlob, hcell, hplaced.blobOf_eq]

theorem AtCell.rustNull_eq (h : AtCell br rs cs column content p) :
    rs.isColumnNull column = some (.ok (content.type == cellUnitTypeNull)) := by
  obtain ⟨b, ptr, q, hplaced, hcell⟩ := h.withCell_eq (.error .invalidOperation)
    fun _ cell => pure (.ok (cell.cellType == cellUnitTypeNull))
  rw [Rust.DataShareResultSet.isColumnNull, hcell, type_legacy]
  rfl

theorem AtCell.exists_unit (h : AtCell br rs cs column content p) :
    ∃ b ptr, cs.sharedBlock = some b ∧ Placed b ptr content p ∧
      cs.cellUnit b column = some (some ⟨content.type, content.value p⟩) := by
  obtain ⟨-, b, ptr, hblock, hunit, hplaced⟩ := h.cpp
  exact ⟨b, ptr, hblock, hplaced, hplaced.cellUnit_eq hunit⟩

theorem AtCell.cppString_eq (h : AtCell br rs cs column content p) (conv : Conversions)
    (value : StdString) : cs.getString conv column value = some (content.cppString conv value) := by
  obtain ⟨b, ptr, hblock, hplaced, hunit⟩ := h.exists_unit
  exact getString_eq conv hplaced hblock hunit value

theorem AtCell.cppLong_eq (h : AtCell br rs cs column content p) (conv : Conversions)
    (value : Int64) : cs.getLong conv column value = some (content.cppLong conv value) := by
  obtain ⟨b, ptr, hblock, hplaced, hunit⟩ := h.exists_unit
  exact getLong_eq conv hplaced hblock hunit value

theorem AtCell.cppInt_eq (h : AtCell br rs cs column content p) (value : Int32) :
    cs.getInt column value = some (eOk, content.cppInt p) := by
  obtain ⟨b, ptr, hblock, -, hunit⟩ := h.exists_unit
  exact getInt_eq hblock hunit value

theorem AtCell.cppBlob_eq (h : AtCell br rs cs column content p) (value : List UInt8) :
    ((cs.getBlob br column value).map fun r => (r.1, r.2.1)) = some content.cppBlob := by
  obtain ⟨b, ptr, hblock, hplaced, hunit⟩ := h.exists_unit
  exact getBlob_eq hplaced h.cpp.1 hblock hunit value

theorem AtCell.cppNull_eq (h : AtCell br rs cs column content p) (isNull : Bool) :
    ((cs.isColumnNull br column isNull).map fun r => (r.1, r.2.1)) =
      some (eOk, content.type == cellUnitTypeNull) := by
  obtain ⟨b, ptr, hblock, -, hunit⟩ := h.exists_unit
  exact isColumnNull_eq h.cpp.1 hblock hunit isNull

theorem sameString_iff (h : AtCell br rs cs column content p) (value : StdString) :
    (Requirement.sameString value).Holds br rs cs column content ↔ SameString value content := by
  unfold Requirement.Holds
  simp only [Requirement.Met, h.rustString_eq, h.cppString_eq]
  have herror : eError ≠ eOk := by decide
  rcases content with (_ | v | d | s | bs) | ⟨type, bytes, htype⟩
  · refine forall_conforms_iff fun _ _ _ _ => ?_
    exact same_ok.trans ((or_iff_right id).trans eq_comm)
  · exact iff_of_true (fun _ _ _ _ => ⟨rfl, Or.inr rfl⟩) trivial
  · exact iff_of_true (fun _ _ _ _ => ⟨rfl, Or.inl trivial⟩) trivial
  · refine forall_conforms_iff fun _ _ _ _ => ?_
    show Same _ (some (Content.rustText (text s))) (some (eOk, text s)) ↔ (fromUtf8 (text s)).isSome
    rcases hutf : fromUtf8 (text s) with _ | t
    · rw [Content.rustText, hutf]
      exact iff_of_false not_same_error (by simp)
    · rw [Content.rustText, hutf]
      exact iff_of_true ⟨rfl, Or.inr (utf8Bytes_of_fromUtf8 hutf)⟩ rfl
  · refine forall_conforms_iff fun _ _ _ _ => ?_
    show Same _ (some (Content.rustText bs)) (some (eError, value)) ↔ fromUtf8 bs = none
    rcases hutf : fromUtf8 bs with _ | t
    · rw [Content.rustText, hutf]
      exact iff_of_true herror rfl
    · rw [Content.rustText, hutf]
      exact iff_of_false (not_same_failure herror) (by simp)
  · exact forall_conforms_iff fun _ _ _ _ => iff_of_false (not_same_failure herror) id

/-- What C++ reads in a text. -/
theorem cppLong_string {conv : Conversions} (h : conv.Conforms) (value : Int64) (s : StdString) :
    (Content.cell (.string s)).cppLong conv value = (eOk, strtoll (text s)) := by
  show (eOk, if s = [] then 0 else conv.strtoll (text s)) = _
  by_cases hs : s = []
  · subst hs
    rfl
  · rw [if_neg hs, h.strtoll]

theorem sameLong_iff (h : AtCell br rs cs column content p) (value : Int64) :
    (Requirement.sameLong value).Holds br rs cs column content ↔ SameLong content := by
  unfold Requirement.Holds
  simp only [Requirement.Met, h.rustLong_eq, h.cppLong_eq]
  have hfailure : eInvalidObjectType ≠ eOk := by decide
  rcases content with (_ | v | d | s | bs) | ⟨type, bytes, htype⟩
  · exact iff_of_true (fun _ _ _ _ => ⟨rfl, rfl⟩) trivial
  · exact iff_of_true (fun _ _ _ _ => ⟨rfl, rfl⟩) trivial
  · constructor
    · intro hall
      by_contra hfits
      -- the cast is open, and may give another value
      have hsame := same_ok.mp (hall exactCasts (openCasts (Rust.castI64 d + 1)) rfl
        (conforms_openCasts _))
      rw [openCasts_asI64 hfits] at hsame
      have hne : ∀ x : Int64, x ≠ x + 1 := fun x hx => by
        simp at hx
      exact hne _ hsame
    · rintro ⟨v, hv, hrange⟩ fconv conv hfconv hconv
      refine same_ok.mpr ?_
      show fconv.asI64 d = conv.asI64 d
      rw [hfconv, castI64_of_trunc hv hrange, hconv.asI64 d v hv hrange]
  · have hiff : ∀ fconv : FloatConversions,
        (Content.cell (.string s)).rustLong fconv = strtoll (text s) ↔ SameNumber (text s) :=
      fun fconv => by
        rw [← Int64.toInt_inj, toInt_rustLong, eq_comm, strtoll_eq_number_iff]
    refine forall_conforms_iff fun fconv conv _ hconv => ?_
    rw [cppLong_string hconv, same_ok]
    exact hiff fconv
  · exact iff_of_true (fun _ _ _ _ => ⟨rfl, rfl⟩) trivial
  · exact forall_conforms_iff fun _ _ _ _ => iff_of_false (not_same_failure hfailure) id

/-- The low word that `GetInt` takes is that of a number. -/
theorem cppInt_eq_iff (content : Content) (p : ℕ) (v : Int64) :
    v.toInt32 = content.cppInt p ↔ content.word p ≡ v.toInt [ZMOD 2 ^ 32] := by
  rw [Content.cppInt, toInt32_eq_iff]
  have hword := toInt_value_modEq content p
  exact ⟨fun hv => (hv.trans hword).symm, fun hv => hv.symm.trans hword.symm⟩

theorem sameInt_iff (h : AtCell br rs cs column content p) (value : Int32) :
    (Requirement.sameInt value).Holds br rs cs column content ↔ SameInt p content := by
  unfold Requirement.Holds
  simp only [Requirement.Met, h.rustInt_eq, h.cppInt_eq, same_ok, cppInt_eq_iff]
  rcases content with (_ | v | d | s | bs) | ⟨type, bytes, htype⟩
  · exact iff_of_true (fun _ _ _ _ => Int.ModEq.refl _) trivial
  · exact iff_of_true (fun _ _ _ _ => Int.ModEq.refl _) trivial
  · refine forall_conforms_iff fun fconv conv hfconv _ => ?_
    show Content.word p (.cell (.double d)) ≡ (fconv.asI64 d).toInt [ZMOD 2 ^ 32] ↔ _
    rw [hfconv]
    rfl
  · simp only [toInt_rustLong]
    exact forall_conforms_iff fun _ _ _ _ => Iff.rfl
  · exact forall_conforms_iff fun _ _ _ _ => Iff.rfl
  · exact forall_conforms_iff fun _ _ _ _ => Iff.rfl

theorem sameBlob_iff (h : AtCell br rs cs column content p) (value : List UInt8) :
    (Requirement.sameBlob value).Holds br rs cs column content ↔ SameBlob content := by
  unfold Requirement.Holds
  simp only [Requirement.Met, h.rustBlob_eq, h.cppBlob_eq]
  refine forall_conforms_iff fun _ _ _ _ => ?_
  rcases content with (_ | v | d | s | bs) | ⟨type, bytes, htype⟩
  · exact iff_of_false not_same_error id
  · exact iff_of_false not_same_error id
  · exact iff_of_false not_same_error id
  · exact iff_of_true ⟨rfl, rfl⟩ trivial
  · exact iff_of_true ⟨rfl, rfl⟩ trivial
  · have hfailure : eInvalidObjectType ≠ eOk := by decide
    exact iff_of_true hfailure trivial

theorem sameNull (h : AtCell br rs cs column content p) (isNull : Bool) :
    (Requirement.sameNull isNull).Holds br rs cs column content := by
  unfold Requirement.Holds
  simp only [Requirement.Met, h.rustNull_eq, h.cppNull_eq]
  exact fun _ _ _ _ => ⟨rfl, rfl⟩

theorem reducesInRust (h : AtCell br rs cs column content p) :
    Requirement.reducesInRust.Holds br rs cs column content := by
  intro fconv conv _ _
  rw [Requirement.Met, h.rustInt_eq, h.rustLong_eq]
  rfl

theorem reducesInCpp_iff (h : AtCell br rs cs column content p) (value : Int32) (value' : Int64) :
    (Requirement.reducesInCpp value value').Holds br rs cs column content ↔ Reduces p content := by
  have hmet : ∀ fconv conv,
      (Requirement.reducesInCpp value value').Met br rs cs column content fconv conv ↔
        (content.cppLong conv value').1 = eOk ∧
          content.word p ≡ (content.cppLong conv value').2.toInt [ZMOD 2 ^ 32] := by
    intro fconv conv
    rw [← cppInt_eq_iff, Requirement.Met, h.cppInt_eq, h.cppLong_eq]
    constructor
    · rintro ⟨_, _, code, y, ⟨⟩, hlong, hcode, hvalue⟩
      rw [Option.some.inj hlong]
      exact ⟨hcode.mp rfl, (hvalue rfl).symm⟩
    · rintro ⟨hcode, hvalue⟩
      exact ⟨_, _, _, _, rfl, rfl, iff_of_true rfl hcode, fun _ => hvalue.symm⟩
  unfold Requirement.Holds
  simp only [hmet]
  rcases content with (_ | v | d | s | bs) | ⟨type, bytes, htype⟩
  · exact iff_of_true (fun _ _ _ _ => ⟨rfl, Int.ModEq.refl _⟩) trivial
  · exact iff_of_true (fun _ _ _ _ => ⟨rfl, Int.ModEq.refl _⟩) trivial
  · constructor
    · intro hall
      by_cases hfits : d.Fits
      · obtain ⟨v, hv, hrange⟩ := hfits
        have hword := (hall exactCasts (openCasts 0) rfl (conforms_openCasts 0)).2
        refine ⟨v, hv, hrange, ?_⟩
        rw [Content.cppLong, (conforms_openCasts 0).asI64 d v hv hrange,
          toInt_ofInt_of_inRange hrange] at hword
        exact hword
      · -- the cast is open, and cannot be both 0 and 1
        have hcast : ∀ v : Int64, Content.word p (.cell (.double d)) ≡ v.toInt [ZMOD 2 ^ 32] := by
          intro v
          have hword := (hall exactCasts (openCasts v) rfl (conforms_openCasts v)).2
          rw [Content.cppLong, openCasts_asI64 hfits] at hword
          exact hword
        have hone : (0 : ℤ) ≡ 1 [ZMOD 2 ^ 32] := (hcast 0).symm.trans (hcast 1)
        exact absurd hone (by decide)
    · rintro ⟨v, hv, hrange, hword⟩ fconv conv _ hconv
      rw [Content.cppLong, hconv.asI64 d v hv hrange, toInt_ofInt_of_inRange hrange]
      exact ⟨rfl, hword⟩
  · refine forall_conforms_iff fun fconv conv _ hconv => ?_
    rw [cppLong_string hconv]
    exact and_iff_right rfl
  · exact forall_conforms_iff fun _ _ _ _ => and_iff_right rfl
  · have hfailure : eInvalidObjectType ≠ eOk := by decide
    exact forall_conforms_iff fun _ _ _ _ => iff_of_false (fun hmet => hfailure hmet.1) id

/-- Exactly where the getters agree, and where `GetInt` is `GetLong` reduced to 32 bits. -/
theorem getters_agree_iff (h : AtCell br rs cs column content p) (r : Requirement) :
    r.Holds br rs cs column content ↔ r.Condition content p := by
  cases r with
  | sameString value => exact sameString_iff h value
  | sameLong value => exact sameLong_iff h value
  | sameInt value => exact sameInt_iff h value
  | sameBlob value => exact sameBlob_iff h value
  | sameNull isNull => exact iff_of_true (sameNull h isNull) trivial
  | reducesInRust => exact iff_of_true (reducesInRust h) trivial
  | reducesInCpp value value' => exact reducesInCpp_iff h value value'

end Agreement

/-- A block whose one cell is a text. -/
def textBlock (s : String) : Option Rust.SharedBlock := do
  match ← Rust.SharedBlock.create 1024 with
  | .error _ => none
  | .ok b => do
    let (_, b) ← b.setColumnNum 1
    let (_, b) ← b.allocRow
    let (_, b) ← b.putString 0 0 (utf8Bytes s ++ [0])
    pure b

def idBridge : Cpp.ResultSetBridge ℕ where
  getAllColumnNames _ := (eOk, [[105, 100]])
  getRowCount _ := (eOk, 1)
  onGo s _ _ := .done eOk s

def rustRow (b : Rust.SharedBlock) : Rust.DataShareResultSet ℕ where
  block := some b
  columnNames := ["id"]
  rowPos := 0
  count := 1
  startRowPos := 0
  endRowPos := 0

def cppRow (b : Rust.SharedBlock) : Cpp.DataShareResultSet ℕ where
  rowPos := 0
  count := 1
  startRowPos := 0
  endRowPos := 0
  sharedBlock := some b

/-- Both at a cell with the text "0x10". -/
theorem exists_atCell : ∃ b,
    AtCell idBridge (rustRow b) (cppRow b) 0 (.cell (.string [48, 120, 49, 48])) 444 := by
  have hok : (textBlock "0x10").any fun b =>
      b.getCellUnit 0 0 == some (some 432) &&
        (b.mem.load 432 sizeOfCellUnit ==
          some (leBytes 4 cellUnitTypeString ++ (leBytes 4 444 ++ leBytes 4 5)) &&
        (b.offsetToPtr 444 5 == some 444 && b.mem.load 444 5 == some [48, 120, 49, 48, 0])) := by
    decide +kernel
  obtain ⟨b, -, hb⟩ := (Option.any_eq_true _ _).mp hok
  simp only [Bool.and_eq_true, beq_iff_eq] at hb
  obtain ⟨hunit, hcell, hptr, hload⟩ := hb
  have hplaced : Placed b 432 (.cell (.string [48, 120, 49, 48])) 444 :=
    ⟨hcell, by decide, hptr, hload⟩
  have hzero : (0 : Int32).toUInt32.toNat = 0 := by decide
  have hrust : (rustRow b).blockRowIndex = 0 := by
    have hsub : (0 : Int32) - 0 = 0 := by decide
    rw [Rust.DataShareResultSet.blockRowIndex, if_pos (by simp [rustRow])]
    exact hsub
  have hcpp : (cppRow b).rowPos - (cppRow b).startRowPos = 0 := by
    have hsub : (0 : Int32) - 0 = 0 := by decide
    exact hsub
  refine ⟨b, ⟨rfl, b, 432, 444, rfl, ?_, hplaced⟩, rfl, b, 432, rfl, ?_, hplaced⟩
  · rw [hrust, hzero]
    exact hunit
  · rw [hcpp, hzero]
    exact hunit

theorem blobs_agree_hex : ∃ b, (Requirement.sameBlob []).Holds idBridge (rustRow b) (cppRow b) 0
    (.cell (.string [48, 120, 49, 48])) := by
  obtain ⟨b, hat⟩ := exists_atCell
  exact ⟨b, (getters_agree_iff hat _).mpr trivial⟩

/-- "0x10" is 0 in Rust and 16 in C++. -/
theorem not_getters_agree : ¬∀ (br : Cpp.ResultSetBridge ℕ) (rs : Rust.DataShareResultSet ℕ)
    (cs : Cpp.DataShareResultSet ℕ) (column : Int32) (content : Content) (p : ℕ),
      AtCell br rs cs column content p → ∀ r : Requirement, r.Holds br rs cs column content := by
  intro hall
  obtain ⟨b, hat⟩ := exists_atCell
  have hsame : SameNumber [48, 120, 49, 48] :=
    (sameLong_iff hat 0).mp (hall _ _ _ _ _ _ hat (.sameLong 0))
  have hnot : ¬IsLong [48, 120, 49, 48] := by
    rintro ⟨v, hv, -⟩
    have hnone : decimal [48, 120, 49, 48] = none := by decide
    rw [hnone] at hv
    cases hv
  have hone : (49 : UInt8) = 48 := hsame.2 hnot 49 (by decide)
  exact absurd hone (by decide)

end DataShare
