import DataShare.JsonTotality

/-!
# Texts that start with a stray character

`to_json`, `is_json` and `Serializable::unmarshall` parse a text and, where that fails, what is
left of it without its first byte. The three make the same of a text
(`toJson_eq`, `isJson_eq`, `unmarshall_eq`).

`&json_str[1..]` panics inside a character, so on a text that is no document and starts with a
character of several bytes none of them returns. They return on the other texts, as far as the
parser does (`readsText_iff`).
-/

namespace DataShare

namespace Rust

namespace Json

/-! ## Slices of a text -/

/-- What `&s[i..]` leaves of the characters. A slice from inside a character, or from behind the
end, panics. -/
def dropBytes : List Char → ℕ → Outcome (List Char)
  | cs, 0 => .ok cs
  | [], _ + 1 => .panic
  | c :: cs, i + 1 => if c.utf8Size ≤ i + 1 then dropBytes cs (i + 1 - c.utf8Size) else .panic

/-- `&s[i..]`. -/
def sliceFrom (s : String) (i : ℕ) : Outcome String := do
  let cs ← dropBytes s.toList i
  pure (String.ofList cs)

theorem dropBytes_one (c : Char) (cs : List Char) :
    dropBytes (c :: cs) 1 = if c.utf8Size = 1 then .ok cs else .panic := by
  have hpos := c.utf8Size_pos
  rw [dropBytes]
  by_cases hc : c.utf8Size = 1
  · rw [if_pos (by omega), if_pos hc, hc]
    cases cs <;> rfl
  · rw [if_neg (by omega), if_neg hc]

/-! ## The functions -/

/-- The result of a function that returns an `Option`, as a value. -/
def attempt {α : Type} : Outcome α → Outcome (Option α)
  | .ok a => .ok (some a)
  | .fail => .ok none
  | .panic => .panic
  | .outOfFuel => .outOfFuel

section Texts

variable (conv : FloatText) (checks : Bool)

/-- What `JsonValue::parse` returns. -/
def parsed (input : String) : Outcome (Option JsonValue) :=
  attempt (JsonValue.parse conv checks input)

def toJson (jsonStr : String) : Outcome JsonValue := do
  match ← parsed conv checks jsonStr with
  | some v => pure v
  | none =>
    if jsonStr = "" then pure .null
    else do
      match ← parsed conv checks (← sliceFrom jsonStr 1) with
      | some v => pure v
      | none => pure .null

/-- `JsonValue::accept`. -/
def accept (input : String) : Outcome Bool := do
  pure (← parsed conv checks input).isSome

def isJson (jsonStr : String) : Outcome Bool := do
  if ← accept conv checks jsonStr then pure true
  else if (utf8Bytes jsonStr).length > 1 then do
    accept conv checks (← sliceFrom jsonStr 1)
  else pure false

/-- `Serializable::unmarshall`. `unmarshal` is the method of the type, on `self`. -/
def unmarshall {α : Type} (unmarshal : α → JsonValue → Bool × α) (self : α) (jsonStr : String) :
    Outcome (Bool × α) := do
  match ← parsed conv checks jsonStr with
  | some v => pure (unmarshal self v)
  | none =>
    if jsonStr = "" then pure (false, self)
    else do
      match ← parsed conv checks (← sliceFrom jsonStr 1) with
      | some v => pure (unmarshal self v)
      | none => pure (false, self)

/-! ## What the functions have in common -/

/-- The value of the text, or of what is left of it without its first byte. -/
def valueOf (jsonStr : String) : Outcome (Option JsonValue) := do
  match ← parsed conv checks jsonStr with
  | some v => pure (some v)
  | none =>
    if jsonStr = "" then pure none
    else parsed conv checks (← sliceFrom jsonStr 1)

theorem sliceFrom_one {s : String} {c : Char} {cs : List Char} (h : s.toList = c :: cs) :
    sliceFrom s 1 = if c.utf8Size = 1 then .ok (String.ofList cs) else .panic := by
  rw [sliceFrom, h, dropBytes_one]
  split <;> rfl

/-- A function that goes on with the value by `g`, and gives `d` if there is none. -/
theorem valueOf_bind {β : Type} (g : JsonValue → β) (d : β) (s : String) :
    (valueOf conv checks s >>= fun o => .ok ((o.map g).getD d)) = (do
      match ← parsed conv checks s with
      | some v => pure (g v)
      | none =>
        if s = "" then pure d
        else do
          match ← parsed conv checks (← sliceFrom s 1) with
          | some v => pure (g v)
          | none => pure d) := by
  unfold valueOf
  rcases parsed conv checks s with (- | v) | - | - | - <;> try rfl
  by_cases hs : s = ""
  · rw [hs]
    rfl
  · simp only [Outcome.ok_bind, if_neg hs]
    rcases sliceFrom s 1 with rest | - | - | - <;> try rfl
    simp only [Outcome.ok_bind]
    rcases parsed conv checks rest with (- | v) | - | - | - <;> rfl

theorem toJson_eq (s : String) :
    toJson conv checks s = valueOf conv checks s >>= fun o => .ok ((o.map id).getD .null) :=
  (valueOf_bind conv checks id .null s).symm

theorem unmarshall_eq {α : Type} (unmarshal : α → JsonValue → Bool × α) (self : α) (s : String) :
    unmarshall conv checks unmarshal self s = valueOf conv checks s >>= fun o =>
      .ok ((o.map (unmarshal self)).getD (false, self)) :=
  (valueOf_bind conv checks (unmarshal self) (false, self) s).symm

/-- A text of one byte is no document without it. -/
theorem isJson_eq (s : String) :
    isJson conv checks s = valueOf conv checks s >>= fun o => .ok o.isSome := by
  unfold isJson accept valueOf
  rcases parsed conv checks s with (- | v) | - | - | - <;> try rfl
  by_cases hs : s = ""
  · rw [hs]
    rfl
  simp only [Outcome.ok_bind, Outcome.pure_eq, Option.isSome_none, Bool.false_eq_true, if_false,
    if_neg hs]
  obtain ⟨c, cs, hcs⟩ : ∃ c cs, s.toList = c :: cs :=
    List.exists_cons_of_ne_nil fun h => hs (String.toList_eq_nil_iff.mp h)
  rw [sliceFrom_one hcs]
  by_cases hlen : (utf8Bytes s).length > 1
  · rw [if_pos hlen]
    split
    · simp only [Outcome.ok_bind]
    · rfl
  · have hbytes : utf8Bytes s = String.utf8EncodeChar c ++ encode cs := by
      have hchars : s = String.ofList (c :: cs) := by rw [← hcs, String.ofList_toList]
      rw [hchars, utf8Bytes_ofList, List.flatMap_cons]
      rfl
    have hsize := String.length_utf8EncodeChar c
    have hpos := c.utf8Size_pos
    rw [hbytes, List.length_append] at hlen
    obtain rfl : cs = [] := encode_eq_nil.mp (List.length_eq_zero_iff.mp (by omega))
    rw [if_neg (by rw [hbytes, List.length_append]; exact hlen), if_pos (by omega)]
    rfl

/-! ## Where the functions return -/

/-- The parser returns on a text, with a value exactly for a document. -/
theorem parsed_cases (s : String) :
    (∃ o, parsed conv checks s = .ok o ∧ ¬StuckDocument conv checks (trim s.toList) ∧
      (o.isSome ↔ ∃ v, Document conv (.code checks) (trim s.toList) v)) ∨
    parsed conv checks s = .panic ∧ StuckDocument conv checks (trim s.toList) := by
  unfold parsed
  rw [← parse_eq_panic_iff]
  simp only [← parse_eq_ok_iff]
  rcases hs : JsonValue.parse conv checks s with v | - | - | -
  · exact .inl ⟨some v, rfl, by simp, by simp⟩
  · exact .inl ⟨none, rfl, by simp, by simp⟩
  · exact .inr ⟨rfl, rfl⟩
  · exact absurd hs (parse_ne_outOfFuel s)

/-- The parser does not panic on what it is given, and a text that is no document, if there is
one, starts with a character of one byte. -/
def ReadsText (s : String) : Prop :=
  ¬StuckDocument conv checks (trim s.toList) ∧
    (s = "" ∨ (∃ v, Document conv (.code checks) (trim s.toList) v) ∨
      ∃ c cs, s.toList = c :: cs ∧ c.utf8Size = 1 ∧ ¬StuckDocument conv checks (trim cs))

theorem valueOf_returns_iff (s : String) :
    (∃ o, valueOf conv checks s = .ok o) ↔ ReadsText conv checks s := by
  unfold valueOf ReadsText
  rcases parsed_cases conv checks s with ⟨o, ho, hstuck, hdoc⟩ | ⟨hpanic, hstuck⟩
  · rw [ho, and_iff_right hstuck, ← hdoc, Outcome.ok_bind]
    rcases o with - | v
    · by_cases hs : s = ""
      · exact iff_of_true ⟨none, if_pos hs⟩ (.inl hs)
      obtain ⟨c, cs, hcs⟩ : ∃ c cs, s.toList = c :: cs :=
        List.exists_cons_of_ne_nil fun h => hs (String.toList_eq_nil_iff.mp h)
      simp only [hs, false_or, if_false, Option.isSome_none, Bool.false_eq_true]
      rw [sliceFrom_one hcs]
      have hsame : (∃ c' cs', s.toList = c' :: cs' ∧ c'.utf8Size = 1 ∧
          ¬StuckDocument conv checks (trim cs')) ↔
          c.utf8Size = 1 ∧ ¬StuckDocument conv checks (trim cs) := by
        simp [hcs]
      rw [hsame]
      by_cases hc : c.utf8Size = 1
      · rw [if_pos hc, Outcome.ok_bind, and_iff_right hc]
        have hrest := parsed_cases conv checks (String.ofList cs)
        rw [String.toList_ofList] at hrest
        rcases hrest with ⟨o, ho, hfree, -⟩ | ⟨hpanic, hstuck⟩
        · exact iff_of_true ⟨o, ho⟩ hfree
        · rw [hpanic]
          exact iff_of_false (by rintro ⟨o, ho⟩; cases ho) fun h => h hstuck
      · rw [if_neg hc]
        exact iff_of_false (by rintro ⟨o, ho⟩; cases ho) fun h => hc h.1
    · exact iff_of_true ⟨some v, rfl⟩ (.inr (.inl rfl))
  · rw [hpanic]
    exact iff_of_false (by rintro ⟨o, ho⟩; cases ho) fun h => h.1 hstuck

/-- The value of a text, or of what is left of it where the text has none. -/
theorem valueOf_eq_some_iff {s : String} {v : JsonValue} :
    valueOf conv checks s = .ok (some v) ↔
      JsonValue.parse conv checks s = .ok v ∨ JsonValue.parse conv checks s = .fail ∧
        ∃ rest, sliceFrom s 1 = .ok rest ∧ JsonValue.parse conv checks rest = .ok v := by
  have hparsed : ∀ {t : String}, parsed conv checks t = .ok (some v) ↔
      JsonValue.parse conv checks t = .ok v := by
    intro t
    unfold parsed
    rcases JsonValue.parse conv checks t with w | - | - | - <;> simp [attempt]
  have hstop : ∀ {α β : Type} {x : Outcome α} (f : α → Outcome β), (∀ a, x ≠ .ok a) →
      ∀ b, (x >>= f) ≠ .ok b := by
    intro α β x f hx b hb
    rcases x with a | - | - | -
    · exact hx a rfl
    all_goals cases hb
  unfold valueOf
  simp only [← hparsed]
  rcases hs : JsonValue.parse conv checks s with w | - | - | -
  · simp [parsed, attempt, hs]
  · have hnone : parsed conv checks s = .ok none := by rw [parsed, hs, attempt]
    rw [hnone]
    by_cases hempty : s = ""
    · subst hempty
      have hslice : ∀ rest, sliceFrom "" 1 ≠ .ok rest := fun rest h => by cases h
      simp [hslice]
    · simp only [Outcome.ok_bind, if_neg hempty]
      rcases hslice : sliceFrom s 1 with rest | - | - | -
      · simp
      all_goals simpa using hstop _ (by simp) _
  · simpa [parsed, attempt, hs] using hstop _ (by simp) _
  · simpa [parsed, attempt, hs] using hstop _ (by simp) _

/-- The three functions return, and `is_json` holds exactly where `to_json` gives a value that
was parsed. -/
structure TotalAt {α : Type} (unmarshal : α → JsonValue → Bool × α) (self : α) (s : String) :
    Prop where
  toJson : ∃ v, toJson conv checks s = .ok v
  isJson : ∃ b, isJson conv checks s = .ok b
  unmarshall : ∃ r, unmarshall conv checks unmarshal self s = .ok r
  agree : Json.isJson conv checks s = .ok true ↔ ∃ v, Json.toJson conv checks s = .ok v ∧
    (JsonValue.parse conv checks s = .ok v ∨ JsonValue.parse conv checks s = .fail ∧
      ∃ rest, sliceFrom s 1 = .ok rest ∧ JsonValue.parse conv checks rest = .ok v)

theorem totalAt_iff {α : Type} (unmarshal : α → JsonValue → Bool × α) (self : α) (s : String) :
    TotalAt conv checks unmarshal self s ↔ ReadsText conv checks s := by
  rw [← valueOf_returns_iff]
  constructor
  · rintro ⟨⟨v, hv⟩, -, -, -⟩
    rw [toJson_eq] at hv
    rcases ho : valueOf conv checks s with o | - | - | - <;> rw [ho] at hv
    · exact ⟨o, rfl⟩
    all_goals cases hv
  · rintro ⟨o, ho⟩
    have hjson := toJson_eq conv checks s
    have his := isJson_eq conv checks s
    have hun := unmarshall_eq conv checks unmarshal self s
    rw [ho, Outcome.ok_bind] at hjson his hun
    refine ⟨⟨_, hjson⟩, ⟨_, his⟩, ⟨_, hun⟩, ?_⟩
    simp only [← valueOf_eq_some_iff]
    rw [his, hjson, ho]
    rcases o with - | v <;> simp

end Texts

/-- A letter of two bytes in front of a document. -/
theorem not_totalAt_umlaut :
    ¬TotalAt ⟨fun _ => [], fun _ => none⟩ false (fun (u : Unit) _ => (true, u)) () "ä[]" := by
  rintro ⟨⟨v, hv⟩, -, -, -⟩
  have hpanic : toJson ⟨fun _ => [], fun _ => none⟩ false "ä[]" = .panic := by rfl
  rw [hpanic] at hv
  cases hv

end Json

end Rust

end DataShare
