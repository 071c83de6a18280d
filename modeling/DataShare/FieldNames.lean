import DataShare.PredicatesVerify

/-!
# The names that are allowed for fields

C++ matches a field against four patterns, each with a core that may stand in brackets and with
white space around it. The cores match the names (`IsName`), so an allowed field is a name, as
it is or in brackets, between blanks (`Cpp.verifyField_iff`).
-/

namespace DataShare

open RegularExpression

/-! ## The names -/

/-- The bytes of `[a-zA-Z0-9_]`. -/
def wordBytes : List UInt8 :=
  Cpp.charRange 97 26 ++ (Cpp.charRange 65 26 ++ (Cpp.charRange 48 10 ++ [95]))

def IsWord (bs : List UInt8) : Prop :=
  bs ≠ [] ∧ ∀ b ∈ bs, b ∈ wordBytes

/-- A column, of a table, of JSON, or of a table in a store. -/
inductive IsName : List UInt8 → Prop
  | column {c : List UInt8} (hc : IsWord c) : IsName c
  | table {t c : List UInt8} (ht : IsWord t) (hc : IsWord c) : IsName (t ++ 46 :: c)
  | json {c : List UInt8} (hc : IsWord c) : IsName (36 :: 46 :: c)
  | store {s t c : List UInt8} (hs : IsWord s) (ht : IsWord t) (hc : IsWord c) :
    IsName (s ++ 46 :: (t ++ 46 :: c))

/-- The brackets and quotes that a name may stand in. -/
def brackets : List (UInt8 × UInt8) :=
  [(40, 41), (91, 93), (34, 34)]

/-- A name, as it is or in brackets. -/
inductive IsField : List UInt8 → Prop
  | bare {name : List UInt8} (h : IsName name) : IsField name
  | bracketed {name : List UInt8} {pair : UInt8 × UInt8} (hpair : pair ∈ brackets)
    (h : IsName name) : IsField (pair.1 :: (name ++ [pair.2]))

/-- `\s`, in the C locale. -/
def blankBytes : List UInt8 :=
  [32, 9, 10, 11, 12, 13]

def IsBlank (bs : List UInt8) : Prop :=
  ∀ b ∈ bs, b ∈ blankBytes

/-- The bytes that a name is made of. -/
def nameBytes : List UInt8 :=
  wordBytes ++ [36, 46]

theorem mem_nameBytes_of_isWord {bs : List UInt8} (h : IsWord bs) : ∀ b ∈ bs, b ∈ nameBytes :=
  fun b hb => List.mem_append_left _ (h.2 b hb)

theorem mem_nameBytes_of_isName {bs : List UInt8} (h : IsName bs) :
    ∀ b ∈ bs, b ∈ nameBytes := by
  have hdot : (46 : UInt8) ∈ nameBytes := by decide
  have hdollar : (36 : UInt8) ∈ nameBytes := by decide
  cases h with
  | column hc => exact mem_nameBytes_of_isWord hc
  | table ht hc =>
    simp only [List.mem_append, List.mem_cons]
    rintro b (hb | rfl | hb)
    exacts [mem_nameBytes_of_isWord ht b hb, hdot, mem_nameBytes_of_isWord hc b hb]
  | json hc =>
    simp only [List.mem_cons]
    rintro b (rfl | rfl | hb)
    exacts [hdollar, hdot, mem_nameBytes_of_isWord hc b hb]
  | store hs ht hc =>
    simp only [List.mem_append, List.mem_cons]
    rintro b (hb | rfl | hb | rfl | hb)
    exacts [mem_nameBytes_of_isWord hs b hb, hdot, mem_nameBytes_of_isWord ht b hb, hdot,
      mem_nameBytes_of_isWord hc b hb]

/-- The bytes that a field is made of. -/
def fieldBytes : List UInt8 :=
  nameBytes ++ [40, 41, 91, 93, 34]

theorem mem_fieldBytes_of_isName {bs : List UInt8} (h : IsName bs) : ∀ b ∈ bs, b ∈ fieldBytes :=
  fun b hb => List.mem_append_left _ (mem_nameBytes_of_isName h b hb)

theorem mem_fieldBytes_of_isField {bs : List UInt8} (h : IsField bs) :
    ∀ b ∈ bs, b ∈ fieldBytes := by
  cases h with
  | bare h => exact mem_fieldBytes_of_isName h
  | bracketed hpair h =>
    have hall : (brackets.all fun pair =>
        decide (pair.1 ∈ fieldBytes ∧ pair.2 ∈ fieldBytes)) = true := by decide
    have hends := fun pair hpair => of_decide_eq_true (List.all_eq_true.mp hall pair hpair)
    simp only [List.mem_cons, List.mem_append, List.not_mem_nil, or_false]
    rintro b (rfl | hb | rfl)
    exacts [(hends _ hpair).1, mem_fieldBytes_of_isName h b hb, (hends _ hpair).2]

theorem IsName.ne_nil {bs : List UInt8} (h : IsName bs) : bs ≠ [] := by
  cases h with
  | column hc => exact hc.1
  | _ => simp

theorem IsField.ne_nil {bs : List UInt8} (h : IsField bs) : bs ≠ [] := by
  cases h with
  | bare h => exact h.ne_nil
  | bracketed => simp

/-! ## The patterns -/

namespace Cpp

theorem rmatch_oneOf (chars bs : List UInt8) :
    (oneOf chars).rmatch bs = true ↔ ∃ c ∈ chars, bs = [c] := by
  induction chars with
  | nil => simp [oneOf, zero_rmatch]
  | cons c chars ih =>
    rw [oneOf, List.foldr_cons, add_rmatch_iff, char_rmatch_iff, ← oneOf, ih]
    simp

theorem rmatch_star_oneOf (chars bs : List UInt8) :
    (star (oneOf chars)).rmatch bs = true ↔ ∀ b ∈ bs, b ∈ chars := by
  simp only [star_rmatch_iff, rmatch_oneOf]
  constructor
  · rintro ⟨parts, rfl, hparts⟩ b hb
    obtain ⟨part, hpart, hb⟩ := List.mem_flatten.mp hb
    obtain ⟨-, c, hc, rfl⟩ := hparts part hpart
    rwa [List.mem_singleton.mp hb]
  · intro h
    refine ⟨bs.map fun b => [b], by simp [← List.flatMap_def], ?_⟩
    simpa using h

theorem rmatch_wordPattern (bs : List UInt8) : wordPattern.rmatch bs = true ↔ IsWord bs := by
  have heq : wordPattern = oneOf wordBytes * star (oneOf wordBytes) := rfl
  simp only [heq, mul_rmatch_iff, rmatch_oneOf, rmatch_star_oneOf]
  constructor
  · rintro ⟨first, rest, rfl, ⟨c, hc, rfl⟩, hrest⟩
    exact ⟨by simp, by simpa using ⟨hc, hrest⟩⟩
  · rintro ⟨hne, hall⟩
    obtain ⟨b, rest, rfl⟩ := List.exists_cons_of_ne_nil hne
    rw [List.forall_mem_cons] at hall
    exact ⟨[b], rest, rfl, ⟨b, hall.1, rfl⟩, hall.2⟩

theorem rmatch_char_mul (c : UInt8) (p : Pattern) (bs : List UInt8) :
    (char c * p).rmatch bs = true ↔ ∃ rest, bs = c :: rest ∧ p.rmatch rest = true := by
  simp only [mul_rmatch_iff, char_rmatch_iff]
  constructor
  · rintro ⟨first, rest, rfl, rfl, hrest⟩
    exact ⟨rest, rfl, hrest⟩
  · rintro ⟨rest, rfl, hrest⟩
    exact ⟨[c], rest, rfl, rfl, hrest⟩

theorem rmatch_mul_char (c : UInt8) (p : Pattern) (bs : List UInt8) :
    (p * char c).rmatch bs = true ↔ ∃ init, bs = init ++ [c] ∧ p.rmatch init = true := by
  simp only [mul_rmatch_iff, char_rmatch_iff]
  constructor
  · rintro ⟨init, last, rfl, hinit, rfl⟩
    exact ⟨init, rfl, hinit⟩
  · rintro ⟨init, rfl, hinit⟩
    exact ⟨init, [c], rfl, hinit, rfl⟩

theorem rmatch_word_mul_dot (p : Pattern) (bs : List UInt8) :
    (wordPattern * (char 46 * p)).rmatch bs = true ↔
      ∃ w rest, bs = w ++ 46 :: rest ∧ IsWord w ∧ p.rmatch rest = true := by
  simp only [mul_rmatch_iff wordPattern, rmatch_wordPattern, rmatch_char_mul]
  constructor
  · rintro ⟨w, dotted, rfl, hw, rest, rfl, hrest⟩
    exact ⟨w, rest, rfl, hw, hrest⟩
  · rintro ⟨w, rest, rfl, hw, hrest⟩
    exact ⟨w, 46 :: rest, rfl, hw, rest, rfl, hrest⟩

/-- What is inside of `optionalBrackets`, without the white space. -/
def Inside (core : Pattern) (bs : List UInt8) : Prop :=
  core.rmatch bs = true ∨
    ∃ pair ∈ brackets, ∃ name, bs = pair.1 :: (name ++ [pair.2]) ∧ core.rmatch name = true

theorem rmatch_spaced (p : Pattern) (bs : List UInt8) :
    (star whitespace * (p * star whitespace)).rmatch bs = true ↔
      ∃ before field after, bs = before ++ (field ++ after) ∧ IsBlank before ∧ IsBlank after ∧
        p.rmatch field = true := by
  have heq : whitespace = oneOf blankBytes := rfl
  simp only [heq, mul_rmatch_iff, rmatch_star_oneOf]
  constructor
  · rintro ⟨before, rest, rfl, hbefore, field, after, rfl, hfield, hafter⟩
    exact ⟨before, field, after, rfl, hbefore, hafter, hfield⟩
  · rintro ⟨before, field, after, rfl, hbefore, hafter, hfield⟩
    exact ⟨before, field ++ after, rfl, hbefore, field, after, rfl, hfield, hafter⟩

theorem rmatch_optionalBrackets (core : Pattern) (bs : List UInt8) :
    (optionalBrackets core).rmatch bs = true ↔
      ∃ before field after, bs = before ++ (field ++ after) ∧ IsBlank before ∧ IsBlank after ∧
        Inside core field := by
  simp only [optionalBrackets, add_rmatch_iff, rmatch_spaced, rmatch_char_mul, rmatch_mul_char]
  constructor
  · rintro (⟨before, field, after, hbs, hb, ha, h⟩ |
      ⟨before, field, after, hbs, hb, ha, _, rfl, name, rfl, h⟩ |
      ⟨before, field, after, hbs, hb, ha, _, rfl, name, rfl, h⟩ |
      ⟨before, field, after, hbs, hb, ha, _, rfl, name, rfl, h⟩)
    · exact ⟨before, field, after, hbs, hb, ha, Or.inl h⟩
    · exact ⟨before, _, after, hbs, hb, ha, Or.inr ⟨(40, 41), by decide, name, rfl, h⟩⟩
    · exact ⟨before, _, after, hbs, hb, ha, Or.inr ⟨(91, 93), by decide, name, rfl, h⟩⟩
    · exact ⟨before, _, after, hbs, hb, ha, Or.inr ⟨(34, 34), by decide, name, rfl, h⟩⟩
  · rintro ⟨before, field, after, hbs, hb, ha, h | ⟨pair, hpair, name, rfl, h⟩⟩
    · exact Or.inl ⟨before, field, after, hbs, hb, ha, h⟩
    · simp only [brackets, List.mem_cons, List.not_mem_nil, or_false] at hpair
      rcases hpair with rfl | rfl | rfl
      · exact Or.inr (Or.inl ⟨before, _, after, hbs, hb, ha, _, rfl, name, rfl, h⟩)
      · exact Or.inr (Or.inr (Or.inl ⟨before, _, after, hbs, hb, ha, _, rfl, name, rfl, h⟩))
      · exact Or.inr (Or.inr (Or.inr ⟨before, _, after, hbs, hb, ha, _, rfl, name, rfl, h⟩))

/-- The cores of the four patterns. -/
def cores : List Pattern :=
  [wordPattern, wordPattern * (char 46 * wordPattern), char 36 * (char 46 * wordPattern),
    wordPattern * (char 46 * (wordPattern * (char 46 * wordPattern)))]

theorem exists_cores_rmatch_iff (bs : List UInt8) :
    (∃ core ∈ cores, core.rmatch bs = true) ↔ IsName bs := by
  simp only [cores, List.mem_cons, List.not_mem_nil, or_false, exists_eq_or_imp,
    exists_eq_left, rmatch_word_mul_dot, rmatch_char_mul, rmatch_wordPattern]
  constructor
  · rintro (h | ⟨t, c, rfl, ht, hc⟩ | ⟨_, rfl, c, rfl, hc⟩ | ⟨s, _, rfl, hs, t, c, rfl, ht, hc⟩)
    exacts [.column h, .table ht hc, .json hc, .store hs ht hc]
  · rintro (hc | ⟨ht, hc⟩ | hc | ⟨hs, ht, hc⟩)
    · exact Or.inl hc
    · exact Or.inr (Or.inl ⟨_, _, rfl, ht, hc⟩)
    · exact Or.inr (Or.inr (Or.inl ⟨_, rfl, _, rfl, hc⟩))
    · exact Or.inr (Or.inr (Or.inr ⟨_, _, rfl, hs, _, _, rfl, ht, hc⟩))

theorem exists_cores_inside_iff (bs : List UInt8) :
    (∃ core ∈ cores, Inside core bs) ↔ IsField bs := by
  constructor
  · rintro ⟨core, hcore, h | ⟨pair, hpair, name, rfl, h⟩⟩
    · exact .bare ((exists_cores_rmatch_iff _).mp ⟨core, hcore, h⟩)
    · exact .bracketed hpair ((exists_cores_rmatch_iff _).mp ⟨core, hcore, h⟩)
  · rintro (h | ⟨hpair, h⟩)
    · obtain ⟨core, hcore, h⟩ := (exists_cores_rmatch_iff _).mpr h
      exact ⟨core, hcore, Or.inl h⟩
    · obtain ⟨core, hcore, h⟩ := (exists_cores_rmatch_iff _).mpr h
      exact ⟨core, hcore, Or.inr ⟨_, hpair, _, rfl, h⟩⟩

/-- The fields that C++ allows. -/
theorem verifyField_iff (field : StdString) : verifyField field = true ↔
    field = [] ∨ ∃ before name after, field = before ++ (name ++ after) ∧ IsBlank before ∧
      IsBlank after ∧ IsField name := by
  have hpatterns : verifyField field = true ↔
      field = [] ∨ ∃ core ∈ cores, (optionalBrackets core).rmatch field = true := by
    rw [verifyField]
    split
    · simp [*]
    · simp [*, cores, colnameOptionalBrackets, tablenameDotColnameOptionalBrackets,
        ampersandDotColnameOptionalBrackets, storeTableColnameOptionalBrackets]
  simp only [hpatterns, rmatch_optionalBrackets, ← exists_cores_inside_iff]
  refine or_congr_right ⟨?_, ?_⟩
  · rintro ⟨core, hcore, before, name, after, hfield, hb, ha, h⟩
    exact ⟨before, name, after, hfield, hb, ha, core, hcore, h⟩
  · rintro ⟨before, name, after, hfield, hb, ha, core, hcore, h⟩
    exact ⟨core, hcore, before, name, after, hfield, hb, ha, h⟩

end Cpp

end DataShare
