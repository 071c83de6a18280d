import DataShare.FieldNames
import DataShare.Json
import DataShare.BatchRequests

/-!
# The verification of predicates in Rust

`verify.rs` says that it is the same as `DataSharePredicatesVerify`. It trims a field, takes the
brackets off and looks at the parts between the dots, where C++ has its patterns. The names are
the same (`isName_unwrapBrackets_iff`).

The white space of a pattern is that of the C locale, and `str::trim` takes all white space of
Unicode. So C++ allows the fields that Rust allows and that are ASCII (`verifyField_utf8Bytes`).
-/

namespace DataShare

namespace Rust

/-! ## The fields -/

/-- The ends of `unwrap_brackets`. -/
def inBrackets (first last : UInt8) : Bool :=
  (first == ascii '(' && last == ascii ')') || (first == ascii '[' && last == ascii ']') ||
    (first == ascii '"' && last == ascii '"')

def unwrapBrackets (bytes : List UInt8) : List UInt8 :=
  match bytes.head?, bytes.getLast? with
  | some first, some last =>
    if bytes.length ≥ 2 ∧ inBrackets first last = true then
      (bytes.take (bytes.length - 1)).drop 1
    else bytes
  | _, _ => bytes

/-- The bytes of ASCII letters, of digits and of the underscore. -/
def isWord (bytes : List UInt8) : Bool :=
  !bytes.isEmpty && bytes.all fun b =>
    (ascii 'a' ≤ b && b ≤ ascii 'z') || (ascii 'A' ≤ b && b ≤ ascii 'Z') ||
      (ascii '0' ≤ b && b ≤ ascii '9') || b == ascii '_'

/-- The match on the parts between the dots. -/
def areWords : List (List UInt8) → Bool
  | [column] => isWord column
  | [table, column] => isWord table && isWord column
  | [store, table, column] => isWord store && isWord table && isWord column
  | _ => false

def isValidIdentifier (bytes : List UInt8) : Bool :=
  if bytes.isEmpty then false
  else if [ascii '$', ascii '.'].isPrefixOf bytes then isWord (bytes.drop 2)
  else areWords (bytes.splitOn (ascii '.'))

def verifyField (field : String) : Bool :=
  if field = "" then true
  else isValidIdentifier (unwrapBrackets (utf8Bytes (String.ofList (trim field.toList))))

/-- Only the strings of a list are fields. -/
def verifyFields (values : List SingleValue) : Bool :=
  (values.filterMap (·.asString?)).all verifyField

/-! ## The items -/

inductive PredicatesVerifyType
  | default
  | single2ParamsPublic
  | single3ParamsPublic
  | single2ParamsSys
  | single3ParamsSys
  | multi2ParamsSys
deriving DecidableEq, Repr

def getVerifyType : OperationType → PredicatesVerifyType
  | .orderByAsc | .orderByDesc => .single2ParamsPublic
  | .equalTo => .single3ParamsPublic
  | .isNull | .isNotNull | .indexedBy | .keyPrefix => .single2ParamsSys
  | .notEqualTo | .greaterThan | .lessThan | .greaterThanOrEqualTo | .lessThanOrEqualTo
  | .notIn | .like | .unlike | .beginWith | .endWith | .contains | .glob | .between
  | .notBetween => .single3ParamsSys
  | .inKey | .groupBy => .multi2ParamsSys
  | _ => .default

def checkParamNum (verifyType : PredicatesVerifyType) (item : OperationItem) : Bool :=
  match verifyType with
  | .default => true
  | .multi2ParamsSys => item.multiValues.isSome
  | _ => item.field ≠ "" || item.value.isSome

def fieldIllegal : Int32 := 1087

def fieldInvalid : Int32 := 1088

def verifyByType (verifyType : PredicatesVerifyType) (item : OperationItem) : Int32 :=
  if verifyType = .default ∨ checkParamNum verifyType item = false then 0
  else
    match verifyType with
    | .single2ParamsPublic | .single3ParamsPublic =>
      if verifyField item.field = false then fieldInvalid else 0
    | .single2ParamsSys | .single3ParamsSys =>
      if verifyField item.field = false then fieldIllegal else 0
    | .multi2ParamsSys =>
      match item.multiValues with
      | some vals => if verifyFields vals = false then fieldIllegal else 0
      | none => 0
    | .default => 0

def OperationItem.verify (item : OperationItem) : Int32 :=
  verifyByType (getVerifyType item.operation) item

/-- The loop of `verify_predicates`. -/
def verifyItems : List OperationItem → Int32 × Int32
  | [] => (0, 0)
  | item :: items =>
    if item.verify ≠ 0 then (item.operation.toI32, item.verify) else verifyItems items

def verifyPredicates (predicates : DataSharePredicates) : Int32 × Int32 :=
  verifyItems predicates.operations

example : verifyField " (store.table.col)\t" = true := by decide +kernel

/-! ## The names -/

theorem ascii_dot : ascii '.' = 46 := by decide

theorem ascii_dollar : ascii '$' = 36 := by decide

theorem mem_charRange {first b : UInt8} {n : ℕ} (h : first.toNat + n ≤ 256) :
    b ∈ Cpp.charRange first n ↔ first.toNat ≤ b.toNat ∧ b.toNat < first.toNat + n := by
  have hadd : ∀ i < n, (first + UInt8.ofNat i).toNat = first.toNat + i := by
    intro i hi
    rw [UInt8.toNat_add, UInt8.toNat_ofNat']
    omega
  simp only [Cpp.charRange, List.mem_map, List.mem_range]
  constructor
  · rintro ⟨i, hi, rfl⟩
    rw [hadd i hi]
    omega
  · rintro ⟨hle, hlt⟩
    refine ⟨b.toNat - first.toNat, by omega, UInt8.toNat_inj.mp ?_⟩
    rw [hadd _ (by omega)]
    omega

theorem mem_wordBytes (b : UInt8) : b ∈ wordBytes ↔
    97 ≤ b.toNat ∧ b.toNat < 123 ∨ 65 ≤ b.toNat ∧ b.toNat < 91 ∨
      48 ≤ b.toNat ∧ b.toNat < 58 ∨ b.toNat = 95 := by
  rw [wordBytes, List.mem_append, List.mem_append, List.mem_append, List.mem_singleton,
    mem_charRange (by decide), mem_charRange (by decide), mem_charRange (by decide),
    ← UInt8.toNat_inj]
  rfl

theorem isWord_iff (bs : List UInt8) : isWord bs = true ↔ IsWord bs := by
  have hascii : (ascii 'a').toNat = 97 ∧ (ascii 'z').toNat = 122 ∧ (ascii 'A').toNat = 65 ∧
      (ascii 'Z').toNat = 90 ∧ (ascii '0').toNat = 48 ∧ (ascii '9').toNat = 57 ∧
      (ascii '_').toNat = 95 := by
    decide
  rw [isWord, IsWord, Bool.and_eq_true, Bool.not_eq_true', List.isEmpty_eq_false_iff,
    List.all_eq_true]
  refine and_congr_right fun _ => forall₂_congr fun b _ => ?_
  simp only [mem_wordBytes, Bool.or_eq_true, Bool.and_eq_true, decide_eq_true_eq, beq_iff_eq,
    UInt8.le_iff_toNat_le, ← UInt8.toNat_inj, hascii]
  omega

theorem dot_notMem {bs : List UInt8} (h : IsWord bs) : ascii '.' ∉ bs := by
  intro hdot
  exact absurd (h.2 _ hdot) (by decide)

/-- A word does not start with a dollar. -/
theorem not_isPrefixOf_dollar {word : List UInt8} (h : IsWord word) (rest : List UInt8) :
    [ascii '$', ascii '.'].isPrefixOf (word ++ rest) = false := by
  obtain ⟨b, word', rfl⟩ := List.exists_cons_of_ne_nil h.1
  have hb : ascii '$' ≠ b := by
    rintro rfl
    exact absurd (h.2 _ List.mem_cons_self) (by decide)
  rw [List.cons_append, List.isPrefixOf_cons_cons, beq_eq_false_iff_ne.mpr hb, Bool.false_and]

/-- Words between dots are taken apart. -/
theorem isValidIdentifier_words {first : List UInt8} {parts : List (List UInt8)}
    (hfirst : IsWord first) (hparts : ∀ part ∈ parts, IsWord part) :
    isValidIdentifier ([ascii '.'].intercalate (first :: parts)) = areWords (first :: parts) := by
  have hrest : ∃ rest, [ascii '.'].intercalate (first :: parts) = first ++ rest := by
    cases parts with
    | nil => exact ⟨[], by simp⟩
    | cons part parts => exact ⟨_, by rw [List.intercalate_cons_cons, List.append_assoc]⟩
  obtain ⟨rest, hrest⟩ := hrest
  have hsplit : (first ++ rest).splitOn (ascii '.') = first :: parts := by
    rw [← hrest]
    exact List.splitOn_intercalate _
      (fun part hpart => dot_notMem ((List.forall_mem_cons.mpr ⟨hfirst, hparts⟩) part hpart))
      (List.cons_ne_nil _ _)
  have hempty : (first ++ rest).isEmpty = false := by
    simp [hfirst.1]
  rw [hrest, isValidIdentifier, hempty, not_isPrefixOf_dollar hfirst, hsplit]
  rfl

theorem isValidIdentifier_iff (bs : List UInt8) : isValidIdentifier bs = true ↔ IsName bs := by
  constructor
  · intro h
    have hjoin : [ascii '.'].intercalate (bs.splitOn (ascii '.')) = bs :=
      List.intercalate_splitOn _
    rw [isValidIdentifier] at h
    split at h
    · cases h
    split at h
    case isTrue hprefix =>
      obtain ⟨rest, rfl⟩ := List.isPrefixOf_iff_prefix.mp hprefix
      exact .json ((isWord_iff rest).mp h)
    rw [areWords.eq_def] at h
    split at h
    case h_1 column hsplit =>
      rw [hsplit] at hjoin
      rw [← hjoin]
      simpa using IsName.column ((isWord_iff _).mp h)
    case h_2 table column hsplit =>
      rw [hsplit] at hjoin
      rw [← hjoin]
      rw [Bool.and_eq_true, isWord_iff, isWord_iff] at h
      simpa [List.intercalate_cons_cons, ascii_dot] using IsName.table h.1 h.2
    case h_3 store table column hsplit =>
      rw [hsplit] at hjoin
      rw [← hjoin]
      rw [Bool.and_eq_true, Bool.and_eq_true, isWord_iff, isWord_iff, isWord_iff] at h
      simpa [List.intercalate_cons_cons, ascii_dot] using IsName.store h.1.1 h.1.2 h.2
    case h_4 => cases h
  · rintro (hc | ⟨ht, hc⟩ | hc | ⟨hs, ht, hc⟩)
    · have h := @isValidIdentifier_words _ [] hc (by simp)
      simpa [areWords, (isWord_iff _).mpr hc] using h
    · have h := @isValidIdentifier_words _ [_] ht (by simpa using hc)
      simpa [areWords, (isWord_iff _).mpr hc, (isWord_iff _).mpr ht, List.intercalate_cons_cons,
        ascii_dot] using h
    · simpa [isValidIdentifier, ascii_dot, ascii_dollar] using (isWord_iff _).mpr hc
    · have h := @isValidIdentifier_words _ [_, _] hs (by simpa using ⟨ht, hc⟩)
      simpa [areWords, (isWord_iff _).mpr hc, (isWord_iff _).mpr ht, (isWord_iff _).mpr hs,
        List.intercalate_cons_cons, ascii_dot] using h

theorem inBrackets_iff (first last : UInt8) :
    inBrackets first last = true ↔ (first, last) ∈ brackets := by
  have hpairs : brackets = [(ascii '(', ascii ')'), (ascii '[', ascii ']'), (ascii '"', ascii '"')] :=
    rfl
  simp [inBrackets, hpairs, or_assoc]

theorem unwrapBrackets_ends (first last : UInt8) (mid : List UInt8) :
    unwrapBrackets (first :: (mid ++ [last])) =
      if inBrackets first last then mid else first :: (mid ++ [last]) := by
  have hlast : (first :: (mid ++ [last])).getLast? = some last := by
    rw [← List.cons_append, List.getLast?_concat]
  have htake : ((first :: (mid ++ [last])).take ((first :: (mid ++ [last])).length - 1)).drop 1 =
      mid := by
    simp
  rw [unwrapBrackets, List.head?_cons, hlast]
  dsimp only
  rw [htake]
  by_cases hin : inBrackets first last = true
  · rw [if_pos ⟨by simp, hin⟩, if_pos hin]
  · rw [if_neg fun h => hin h.2, if_neg hin]

/-- A field is short, or has two ends. -/
theorem short_or_ends (bs : List UInt8) :
    bs = [] ∨ (∃ b, bs = [b]) ∨ ∃ first mid last, bs = first :: (mid ++ [last]) := by
  rcases bs with _ | ⟨first, rest⟩
  · exact Or.inl rfl
  · rcases List.eq_nil_or_concat rest with rfl | ⟨mid, last, rfl⟩
    · exact Or.inr (Or.inl ⟨first, rfl⟩)
    · exact Or.inr (Or.inr ⟨first, mid, last, by rw [List.concat_eq_append]⟩)

theorem isName_unwrapBrackets_iff (bs : List UInt8) :
    IsName (unwrapBrackets bs) ↔ IsField bs := by
  rcases short_or_ends bs with rfl | ⟨b, rfl⟩ | ⟨first, mid, last, rfl⟩
  · exact iff_of_false (fun h => h.ne_nil rfl) fun h => h.ne_nil rfl
  · have hsame : unwrapBrackets [b] = [b] := by
      simp [unwrapBrackets]
    rw [hsame]
    refine ⟨.bare, fun h => ?_⟩
    generalize hbs : [b] = bs at h
    cases h with
    | bare h => exact h
    | bracketed => simp at hbs
  · rw [unwrapBrackets_ends]
    constructor
    · intro h
      split at h
      case isTrue hin => exact .bracketed ((inBrackets_iff first last).mp hin) h
      case isFalse => exact .bare h
    · intro h
      generalize hbs : first :: (mid ++ [last]) = bs at h
      cases h with
      | bare h =>
        subst hbs
        have hfirst : first ∈ nameBytes := mem_nameBytes_of_isName h first List.mem_cons_self
        have hall : (brackets.all fun pair => decide (pair.1 ∉ nameBytes)) = true := by decide
        have hopen := fun pair hpair => of_decide_eq_true (List.all_eq_true.mp hall pair hpair)
        rw [if_neg fun hin => hopen _ ((inBrackets_iff first last).mp hin) hfirst]
        exact h
      | bracketed hpair h =>
        obtain ⟨rfl, htail⟩ := List.cons.inj hbs
        obtain ⟨rfl, hlast⟩ := List.append_inj' htail rfl
        obtain rfl := (List.cons.inj hlast).1
        rw [if_pos ((inBrackets_iff _ _).mpr hpair)]
        exact h

/-- The fields that Rust allows. -/
theorem verifyField_iff (field : String) : verifyField field = true ↔
    field = "" ∨ IsField (utf8Bytes (String.ofList (trim field.toList))) := by
  rw [verifyField, ← isName_unwrapBrackets_iff, ← isValidIdentifier_iff]
  split
  · simp [*]
  · simp [*]

/-! ## ASCII characters -/

/-- All characters of the text are ASCII. -/
def IsAscii (s : String) : Prop :=
  ∀ c ∈ s.toList, c.toNat < 128

theorem utf8Bytes_of_isAscii {l : List Char} (h : ∀ c ∈ l, c.toNat < 128) :
    utf8Bytes (String.ofList l) = l.map ascii := by
  rw [utf8Bytes_ofList, List.flatMap_congr fun c hc => utf8EncodeChar_of_lt (h c hc),
    List.map_eq_flatMap]

/-- The last byte of another character is not ASCII. -/
theorem exists_byte_of_le {c : Char} (h : 128 ≤ c.toNat) :
    ∃ b ∈ String.utf8EncodeChar c, 128 ≤ b.toNat := by
  have hc : ¬c.val.toNat ≤ 0x7f := Nat.not_le_of_lt h
  have hlast : 128 ≤ (UInt8.ofNat (c.val.toNat % 64 + 128)).toNat := by
    rw [UInt8.toNat_ofNat']
    omega
  rw [String.utf8EncodeChar, if_neg hc]
  refine ⟨UInt8.ofNat (c.val.toNat % 64 + 128), ?_, hlast⟩
  split
  · simp
  · split <;> simp

theorem isAscii_of_utf8Bytes {s : String} (h : ∀ b ∈ utf8Bytes s, b.toNat < 128) : IsAscii s := by
  intro c hc
  by_contra hge
  obtain ⟨b, hb, hb'⟩ := exists_byte_of_le (Nat.le_of_not_lt hge)
  refine absurd (h b ?_) (Nat.not_lt_of_le hb')
  rw [← String.ofList_toList (s := s), utf8Bytes_ofList]
  exact List.mem_flatMap.mpr ⟨c, hc, hb⟩

theorem isWhitespace_of_lt {c : Char} (h : c.toNat < 128) :
    isWhitespace c = true ↔ ascii c ∈ blankBytes := by
  have hall : ∀ n < 128, ((9 ≤ n && n ≤ 13) || n == 32 || n == 0x85 || n == 0xA0 || n == 0x1680 ||
      (0x2000 ≤ n && n ≤ 0x200A) || n == 0x2028 || n == 0x2029 || n == 0x202F || n == 0x205F ||
      n == 0x3000) = decide (UInt8.ofNat n ∈ blankBytes) := by
    decide +kernel
  rw [isWhitespace, hall _ h, decide_eq_true_eq]
  rfl

/-! ## White space -/

theorem trim_eq {before name after : List Char} (hbefore : ∀ c ∈ before, isWhitespace c = true)
    (hafter : ∀ c ∈ after, isWhitespace c = true) (hname : ∀ c ∈ name, ¬isWhitespace c = true)
    (hne : name ≠ []) : trim (before ++ (name ++ after)) = name := by
  obtain ⟨first, rest, rfl⟩ := List.exists_cons_of_ne_nil hne
  rw [trim, List.dropWhile_append_of_pos hbefore, List.cons_append,
    List.dropWhile_cons_of_neg (hname first List.mem_cons_self), ← List.cons_append]
  rw [List.rdropWhile, List.reverse_append,
    List.dropWhile_append_of_pos fun c hc => hafter c (List.mem_reverse.mp hc)]
  rw [← List.rdropWhile, List.rdropWhile_eq_self_iff]
  exact fun _ => hname _ (List.getLast_mem _)

theorem exists_trim (cs : List Char) :
    ∃ before after, cs = before ++ (trim cs ++ after) ∧ (∀ c ∈ before, isWhitespace c = true) ∧
      ∀ c ∈ after, isWhitespace c = true := by
  refine ⟨cs.takeWhile isWhitespace, (cs.dropWhile isWhitespace).rtakeWhile isWhitespace, ?_,
    fun c hc => List.mem_takeWhile_imp hc, fun c hc => List.mem_rtakeWhile_imp hc⟩
  rw [trim, List.rdropWhile_append_rtakeWhile, List.takeWhile_append_dropWhile]

/-- C++ allows the fields that Rust allows and that are ASCII. -/
theorem verifyField_utf8Bytes (s : String) :
    Cpp.verifyField (utf8Bytes s) = true ↔ verifyField s = true ∧ IsAscii s := by
  have hblanks : (blankBytes.all fun b => decide (b.toNat < 128)) = true := by decide
  have hblank := fun b hb => of_decide_eq_true (List.all_eq_true.mp hblanks b hb)
  have hfields : (fieldBytes.all fun b => decide (b.toNat < 128 ∧ b ∉ blankBytes)) = true := by
    decide +kernel
  have hfield := fun b hb => of_decide_eq_true (List.all_eq_true.mp hfields b hb)
  rw [Cpp.verifyField_iff, verifyField_iff, utf8Bytes_eq_nil]
  constructor
  · rintro (rfl | ⟨before, name, after, hs, hbefore, hafter, hname⟩)
    · exact ⟨Or.inl rfl, fun c hc => absurd hc (by simp)⟩
    have hmem := mem_fieldBytes_of_isField hname
    have hascii : IsAscii s := by
      refine isAscii_of_utf8Bytes fun b hb => ?_
      rw [hs, List.mem_append, List.mem_append] at hb
      rcases hb with hb | hb | hb
      exacts [hblank b (hbefore b hb), (hfield b (hmem b hb)).1, hblank b (hafter b hb)]
    refine ⟨Or.inr ?_, hascii⟩
    rw [← String.ofList_toList (s := s), utf8Bytes_of_isAscii hascii, List.map_eq_append_iff] at hs
    obtain ⟨cs, cs', hcs, rfl, hcs'⟩ := hs
    obtain ⟨name, after, rfl, rfl, rfl⟩ := List.map_eq_append_iff.mp hcs'
    rw [IsAscii, hcs] at hascii
    have hspace : ∀ c ∈ cs ++ (name ++ after), ascii c ∈ blankBytes ↔ isWhitespace c = true :=
      fun c hc => (isWhitespace_of_lt (hascii c hc)).symm
    have htrim : trim (cs ++ (name ++ after)) = name := by
      refine trim_eq ?_ ?_ ?_ fun hnil => hname.ne_nil (by rw [hnil, List.map_nil])
      · exact fun c hc => (hspace c (by simp [hc])).mp (hbefore _ (List.mem_map_of_mem hc))
      · exact fun c hc => (hspace c (by simp [hc])).mp (hafter _ (List.mem_map_of_mem hc))
      · intro c hc hwhite
        exact (hfield _ (hmem _ (List.mem_map_of_mem hc))).2 ((hspace c (by simp [hc])).mpr hwhite)
    rw [hcs, htrim, utf8Bytes_of_isAscii fun c hc => hascii c (by simp [hc])]
    exact hname
  · rintro ⟨rfl | hname, hascii⟩
    · exact Or.inl rfl
    obtain ⟨before, after, hcs, hbefore, hafter⟩ := exists_trim s.toList
    have hlt : ∀ c ∈ before ++ (trim s.toList ++ after), c.toNat < 128 := by
      rw [← hcs]
      exact hascii
    have hspace : ∀ c ∈ before ++ (trim s.toList ++ after), isWhitespace c = true →
        ascii c ∈ blankBytes :=
      fun c hc => (isWhitespace_of_lt (hlt c hc)).mp
    refine Or.inr ⟨before.map ascii, (trim s.toList).map ascii, after.map ascii, ?_, ?_, ?_, ?_⟩
    · rw [← List.map_append, ← List.map_append, ← hcs, ← utf8Bytes_of_isAscii hascii,
        String.ofList_toList]
    · exact List.forall_mem_map.mpr fun c hc => hspace c (by simp [hc]) (hbefore c hc)
    · exact List.forall_mem_map.mpr fun c hc => hspace c (by simp [hc]) (hafter c hc)
    · rwa [utf8Bytes_of_isAscii fun c hc => hlt c (by simp [hc])] at hname

/-! ## The language of the patterns -/

/-- The fields of the patterns : the empty one, and a name between blanks of ASCII. -/
def InPatterns (bytes : List UInt8) : Prop :=
  bytes = [] ∨ ∃ before name after, bytes = before ++ (name ++ after) ∧ IsBlank before ∧
    IsBlank after ∧ IsField name

/-- A name between white space that is not all ASCII. -/
def InWideBlanks (field : String) : Prop :=
  ∃ before name after : List Char, field.toList = before ++ (name ++ after) ∧
    (∀ c ∈ before ++ after, isWhitespace c = true) ∧ IsField (utf8Bytes (String.ofList name)) ∧
    ∃ c ∈ before ++ after, 128 ≤ c.toNat

theorem isAscii_of_isField {name : List Char} (h : IsField (utf8Bytes (String.ofList name))) :
    ∀ c ∈ name, c.toNat < 128 := by
  have hfields : (fieldBytes.all fun b => decide (b.toNat < 128)) = true := by decide +kernel
  have hfield := fun b hb => of_decide_eq_true (List.all_eq_true.mp hfields b hb)
  have hname : IsAscii (String.ofList name) :=
    isAscii_of_utf8Bytes fun b hb => hfield b (mem_fieldBytes_of_isField h b hb)
  rwa [IsAscii, String.toList_ofList] at hname

theorem not_isWhitespace_of_isField {name : List Char}
    (h : IsField (utf8Bytes (String.ofList name))) : ∀ c ∈ name, ¬isWhitespace c = true := by
  have hascii := isAscii_of_isField h
  rw [utf8Bytes_of_isAscii hascii] at h
  have hfields : (fieldBytes.all fun b => decide (b ∉ blankBytes)) = true := by decide +kernel
  have hfield := fun b hb => of_decide_eq_true (List.all_eq_true.mp hfields b hb)
  intro c hc hwhite
  exact hfield _ (mem_fieldBytes_of_isField h _ (List.mem_map_of_mem hc))
    ((isWhitespace_of_lt (hascii c hc)).mp hwhite)

/-- Rust allows what stands in such white space, and C++ what is ASCII. -/
theorem inWideBlanks_iff (field : String) :
    InWideBlanks field ↔ verifyField field = true ∧ ¬IsAscii field := by
  rw [verifyField_iff]
  constructor
  · rintro ⟨before, name, after, hfield, hwhite, hname, c, hc, hge⟩
    have hne : name ≠ [] := by
      rintro rfl
      exact hname.ne_nil (utf8Bytes_eq_nil.mpr rfl)
    have htrim : trim field.toList = name := by
      rw [hfield]
      exact trim_eq (fun c hc => hwhite c (List.mem_append_left _ hc))
        (fun c hc => hwhite c (List.mem_append_right _ hc)) (not_isWhitespace_of_isField hname) hne
    refine ⟨.inr (htrim ▸ hname), fun hascii => ?_⟩
    have hmem : c ∈ field.toList := by
      rw [hfield, List.mem_append, List.mem_append]
      exact (List.mem_append.mp hc).imp_right .inr
    exact absurd (hascii c hmem) (Nat.not_lt.mpr hge)
  · rintro ⟨rfl | hname, hascii⟩
    · exact absurd (fun c hc => absurd hc (by simp)) hascii
    obtain ⟨before, after, hfield, hbefore, hafter⟩ := exists_trim field.toList
    refine ⟨before, _, after, hfield, fun c hc => (List.mem_append.mp hc).elim (hbefore c) (hafter c),
      hname, ?_⟩
    by_contra hnone
    refine hascii fun c hc => ?_
    by_contra hge
    rw [hfield, List.mem_append, List.mem_append] at hc
    rcases hc with hc | hc | hc
    · exact hnone ⟨c, List.mem_append_left _ hc, Nat.le_of_not_lt hge⟩
    · exact hge (isAscii_of_isField hname c hc)
    · exact hnone ⟨c, List.mem_append_right _ hc, Nat.le_of_not_lt hge⟩

/-- Both allow the fields of the patterns, but for a name in wider white space, which Rust allows
too. -/
theorem verifyField_agrees_iff (field : String) :
    (verifyField field = Cpp.verifyField (utf8Bytes field) ∧
      (verifyField field = true ↔ InPatterns (utf8Bytes field))) ↔ ¬InWideBlanks field := by
  have hcpp : InPatterns (utf8Bytes field) ↔ verifyField field = true ∧ IsAscii field :=
    (Cpp.verifyField_iff _).symm.trans (verifyField_utf8Bytes field)
  rw [inWideBlanks_iff, hcpp, Bool.eq_iff_iff, verifyField_utf8Bytes]
  tauto

/-- A no-break space in front of a column. -/
theorem verifyField_noBreakSpace :
    ¬(verifyField "\u00a0name" = Cpp.verifyField (utf8Bytes "\u00a0name") ∧
      (verifyField "\u00a0name" = true ↔ InPatterns (utf8Bytes "\u00a0name"))) := by
  rintro ⟨hsame, -⟩
  have hrust : verifyField "\u00a0name" = true := by decide +kernel
  rw [hrust] at hsame
  have hascii := ((verifyField_utf8Bytes _).mp hsame.symm).2
  exact absurd (hascii '\u00a0' (by decide)) (by decide)

end Rust

end DataShare
