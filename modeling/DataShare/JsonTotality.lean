import DataShare.JsonSoundness

/-!
# Where the JSON parser panics

The other direction : what `Dialect.code` derives the reader reads (`Reads.read`), and at the
place of a `Stuck` text it panics (`Stuck.panic`). So the parser's outcomes are exactly those
of the grammar (`parse_eq_ok_iff`, `parse_eq_panic_iff`), and it always comes to one.
-/

namespace DataShare

namespace Rust

namespace Json

variable {conv : FloatText} {checks : Bool}

/-! ## Strings -/

theorem afterUnicode_digits {ds rest : List Char} (h : ds.length = 4) :
    afterUnicode ('\\' :: 'u' :: (ds ++ rest)) = some (ds ++ rest) := by
  have hlen := length_encode_ge (ds ++ rest)
  rw [List.length_append, h] at hlen
  rw [afterUnicode_cons, if_pos ⟨rfl, rfl, by omega⟩]

theorem readUnicode_unit {ds rest : List Char} {n : ℕ} (h : (Dialect.code checks).hex ds n)
    (hhigh : ¬IsHigh n) : readUnicode checks (ds ++ rest) =
      .ofOption (charFromU32 n) >>= fun c => .ok (c, rest) := by
  unfold readUnicode
  rw [readHex_append h.1 h.2]
  exact if_neg hhigh

theorem readUnicode_lone {ds rest : List Char} {n : ℕ} (h : (Dialect.code checks).hex ds n)
    (hhigh : IsHigh n) (hrest : afterUnicode rest = none) :
    readUnicode checks (ds ++ rest) = .ok ('\uFFFD', rest) := by
  unfold readUnicode
  rw [readHex_append h.1 h.2, Outcome.ok_bind]
  dsimp only
  rw [hrest]
  exact if_pos hhigh

theorem readUnicode_pair {ds ds' rest : List Char} {n n' : ℕ} (h : (Dialect.code checks).hex ds n)
    (hhigh : IsHigh n) (h' : (Dialect.code checks).hex ds' n') :
    readUnicode checks (ds ++ '\\' :: 'u' :: (ds' ++ rest)) =
      surrogatePair checks n n' >>= fun code => .ofOption (charFromU32 code) >>= fun c =>
        .ok (c, rest) := by
  unfold readUnicode
  rw [readHex_append h.1 h.2, Outcome.ok_bind]
  dsimp only
  rw [afterUnicode_digits h'.1]
  refine (if_pos hhigh).trans ?_
  dsimp only
  rw [readHex_append h'.1 h'.2]
  rfl

theorem readStringLoop_cons {fuel : ℕ} {c : Char} {rest : List Char} {s : String} :
    readStringLoop checks (fuel + 1) (c :: rest) s =
      if c = '"' then .ok (s, rest)
      else if c = '\\' then
        readEscape checks rest >>= fun r => readStringLoop checks fuel r.2 (s.push r.1)
      else readStringLoop checks fuel rest (s.push c) :=
  rfl

theorem readStringLoop_unicode {fuel : ℕ} {rest : List Char} {s : String} :
    readStringLoop checks (fuel + 1) ('\\' :: 'u' :: rest) s =
      readUnicode checks rest >>= fun r => readStringLoop checks fuel r.2 (s.push r.1) := by
  rw [readStringLoop_cons, if_neg (by decide), if_pos rfl, readEscape, if_pos rfl]

theorem shortEscapes_ne_u {e c : Char} (h : shortEscapes.lookup e = some c) : e ≠ 'u' := by
  rintro rfl
  cases h

/-- The loop takes an item. -/
theorem Item.read {c : Char} {input mid : List Char} (h : Item (.code checks) c input mid)
    (fuel : ℕ) (s : String) : readStringLoop checks (fuel + 1) input s =
      readStringLoop checks fuel mid (s.push c) := by
  rcases h with ⟨hquote, hslash, -⟩ | h | ⟨h, hhigh, hc⟩ | ⟨h, hhigh, h', hcode, hc⟩ |
    ⟨h, hhigh, hrest⟩
  · rw [readStringLoop_cons, if_neg hquote, if_neg hslash]
  · rw [readStringLoop_cons, if_neg (by decide), if_pos rfl, readEscape,
      if_neg (shortEscapes_ne_u h), h]
    rfl
  · rw [readStringLoop_unicode, readUnicode_unit h hhigh, hc]
    rfl
  · have hcode : surrogatePair checks _ _ = _ := hcode
    rw [readStringLoop_unicode, readUnicode_pair h hhigh h', hcode, Outcome.ok_bind, hc]
    rfl
  · rw [readStringLoop_unicode, readUnicode_lone h hhigh hrest]
    rfl

theorem Body.read {cs input rest : List Char} (h : Body (.code checks) cs input rest) :
    ∀ (fuel : ℕ) (s : String), input.length < fuel → readStringLoop checks fuel input s =
      .ok (String.ofList (s.toList ++ cs), rest) := by
  induction h with
  | close =>
    rintro (- | fuel) s hlt
    · exact absurd hlt (Nat.not_lt_zero _)
    rw [readStringLoop_cons, if_pos rfl, List.append_nil, String.ofList_toList]
  | item hitem hrest ih =>
    rintro (- | fuel) s hlt
    · exact absurd hlt (Nat.not_lt_zero _)
    rw [hitem.read, ih fuel _ (hitem.length_lt.trans_le (Nat.le_of_lt_succ hlt)),
      String.toList_push, List.append_assoc]
    rfl

theorem Underflow.panic (hchecks : checks = true) {input : List Char}
    (h : Underflow checks input) : ∀ (fuel : ℕ) (s : String), input.length < fuel →
      readStringLoop checks fuel input s = .panic := by
  induction h with
  | here h hhigh h' hlow =>
    rintro (- | fuel) s hlt
    · exact absurd hlt (Nat.not_lt_zero _)
    rw [readStringLoop_unicode, readUnicode_pair h hhigh h', surrogatePair, if_pos ⟨hlow, hchecks⟩]
    rfl
  | item hitem _ ih =>
    rintro (- | fuel) s hlt
    · exact absurd hlt (Nat.not_lt_zero _)
    rw [hitem.read]
    exact ih fuel _ (hitem.length_lt.trans_le (Nat.le_of_lt_succ hlt))

theorem Body.readString {n : ℕ} {cs input rest : List Char}
    (h : Body (.code checks) cs input rest) (hlt : input.length < n) :
    readString checks n ('"' :: input) = .ok (String.ofList cs, rest) := by
  rw [Json.readString, if_pos rfl, h.read n "" hlt]
  rfl

/-! ## Numbers -/

/-- No character of a number is next. -/
def Ends (rest : List Char) : Prop :=
  ∀ c, rest.head? = some c → c.isDigit = false ∧ c ≠ '.' ∧ c ≠ 'e' ∧ c ≠ 'E'

theorem readDigits_append {ds rest : List Char} (h : Digits ds)
    (hrest : ∀ c, rest.head? = some c → c.isDigit = false) :
    readDigits (ds ++ rest) = some (ds, rest) := by
  obtain ⟨hne, hall⟩ := h
  have hstop : rest.takeWhile Char.isDigit = [] ∧ rest.dropWhile Char.isDigit = rest := by
    rcases rest with - | ⟨c, rest⟩
    · exact ⟨rfl, rfl⟩
    · have hc : ¬c.isDigit = true := Bool.not_eq_true _ ▸ hrest c rfl
      exact ⟨List.takeWhile_cons_of_neg hc, List.dropWhile_cons_of_neg hc⟩
  unfold readDigits
  rw [List.takeWhile_append_of_pos hall, List.dropWhile_append_of_pos hall, hstop.1, hstop.2,
    List.append_nil, if_pos]
  obtain ⟨d, ds, rfl⟩ := List.exists_cons_of_ne_nil hne
  exact hall d List.mem_cons_self

theorem readInteger_append {int rest : List Char}
    (h : int = ['0'] ∨ Digits int ∧ int.head? ≠ some '0')
    (hrest : ∀ c, rest.head? = some c → c.isDigit = false) :
    readInteger (int ++ rest) = some (int, rest) := by
  rcases h with rfl | ⟨hdigits, hhead⟩
  · rfl
  obtain ⟨d, ds, rfl⟩ := List.exists_cons_of_ne_nil hdigits.1
  rw [List.cons_append, readInteger, if_neg fun hd => hhead (congrArg some hd), ← List.cons_append]
  exact readDigits_append hdigits hrest

theorem readFraction_append {frac rest : List Char}
    (h : frac = [] ∨ ∃ ds, Digits ds ∧ frac = '.' :: ds)
    (hrest : ∀ c, rest.head? = some c → c.isDigit = false ∧ c ≠ '.') :
    readFraction (frac ++ rest) = some (frac, rest) := by
  rcases h with rfl | ⟨ds, hdigits, rfl⟩
  · rcases rest with - | ⟨c, rest⟩
    · rfl
    · rw [List.nil_append, readFraction_cons, if_neg (hrest c rfl).2]
  · rw [List.cons_append, readFraction_cons, if_pos rfl,
      readDigits_append hdigits fun c hc => (hrest c hc).1]
    rfl

theorem readSign_append_digits {sign ds rest : List Char} (hdigits : Digits ds)
    (h : sign = [] ∨ sign = ['+'] ∨ sign = ['-']) :
    readSign (sign ++ (ds ++ rest)) = (sign, ds ++ rest) := by
  rcases h with rfl | rfl | rfl
  · obtain ⟨d, ds, rfl⟩ := List.exists_cons_of_ne_nil hdigits.1
    have hd := hdigits.2 d List.mem_cons_self
    rw [List.nil_append, List.cons_append, readSign_cons, if_neg]
    rintro (rfl | rfl)
    · cases hd
    · cases hd
  · rfl
  · rfl

theorem readExponent_append {exp rest : List Char}
    (h : exp = [] ∨ ∃ e sign ds, (e = 'e' ∨ e = 'E') ∧ (sign = [] ∨ sign = ['+'] ∨ sign = ['-']) ∧
      Digits ds ∧ exp = e :: (sign ++ ds))
    (hrest : Ends rest) : readExponent (exp ++ rest) = some (exp, rest) := by
  rcases h with rfl | ⟨e, sign, ds, he, hsign, hdigits, rfl⟩
  · rcases rest with - | ⟨c, rest⟩
    · rfl
    · obtain ⟨-, -, hlower, hupper⟩ := hrest c rfl
      rw [List.nil_append, readExponent_cons, if_neg (not_or.mpr ⟨hlower, hupper⟩)]
  · rw [List.cons_append, readExponent_cons, if_pos he, List.append_assoc,
      readSign_append_digits hdigits hsign, readDigits_append hdigits fun c hc => (hrest c hc).1]
    rfl

theorem NumberText.WellFormed.exp_head {t : NumberText} (h : t.WellFormed) {rest : List Char}
    (hrest : Ends rest) (c : Char) (hc : (t.exp ++ rest).head? = some c) :
    c.isDigit = false ∧ c ≠ '.' := by
  rcases h.exp with hexp | ⟨e, sign, ds, he, -, -, hexp⟩
  · rw [hexp] at hc
    exact ⟨(hrest c hc).1, (hrest c hc).2.1⟩
  · rw [hexp] at hc
    obtain rfl := Option.some.inj hc
    rcases he with rfl | rfl <;> decide

theorem NumberText.WellFormed.frac_head {t : NumberText} (h : t.WellFormed) {rest : List Char}
    (hrest : Ends rest) (c : Char) (hc : (t.frac ++ (t.exp ++ rest)).head? = some c) :
    c.isDigit = false := by
  rcases h.frac with hfrac | ⟨ds, -, hfrac⟩
  · rw [hfrac] at hc
    exact (h.exp_head hrest c hc).1
  · rw [hfrac] at hc
    obtain rfl := Option.some.inj hc
    decide

/-- The first character of an integer. -/
theorem NumberText.WellFormed.int_head {t : NumberText} (h : t.WellFormed) :
    ∃ d ds, t.int = d :: ds ∧ d.isDigit = true := by
  rcases h.int with hint | ⟨hdigits, -⟩
  · exact ⟨'0', [], hint, rfl⟩
  · obtain ⟨d, ds, hint⟩ := List.exists_cons_of_ne_nil hdigits.1
    exact ⟨d, ds, hint, hdigits.2 d (hint ▸ List.mem_cons_self)⟩

theorem NumberText.WellFormed.readMinus {t : NumberText} (h : t.WellFormed) (rest : List Char) :
    readMinus (t.minus ++ (t.int ++ rest)) = (t.minus, t.int ++ rest) := by
  rcases h.minus with hminus | hminus
  · obtain ⟨d, ds, hint, hd⟩ := h.int_head
    rw [hminus, hint, List.nil_append, List.cons_append, readMinus_cons, if_neg]
    rintro rfl
    cases hd
  · rw [hminus]
    rfl

theorem NumberText.WellFormed.read {t : NumberText} (h : t.WellFormed) {rest : List Char}
    (hrest : Ends rest) : readNumberText (t.text ++ rest) = some (t, rest) := by
  unfold readNumberText NumberText.text
  rw [List.append_assoc, List.append_assoc, List.append_assoc, h.readMinus,
    readInteger_append h.int (h.frac_head hrest), Option.bind_eq_bind, Option.bind_some]
  dsimp only
  rw [readFraction_append h.frac (h.exp_head hrest), Option.bind_some]
  dsimp only
  rw [readExponent_append h.exp hrest]
  rfl

theorem readNumber_append {t : NumberText} {v : JsonValue} {rest : List Char} (h : t.WellFormed)
    (hv : t.value conv = some v) (hrest : Ends rest) :
    readNumber conv (t.text ++ rest) = .ok (v, rest) := by
  unfold readNumber
  rw [h.read hrest]
  simp only [Outcome.ofOption, Outcome.ok_bind]
  rw [hv]
  rfl

/-! ## Values -/

theorem Space.ends {sp : List Char} (h : Space sp) {rest : List Char} (hrest : Ends rest) :
    Ends (sp ++ rest) := by
  rcases sp with - | ⟨c, sp⟩
  · exact hrest
  · intro c' hc'
    obtain rfl := Option.some.inj hc'
    have hc : isSpace c = true := h c List.mem_cons_self
    simp only [isSpace, Bool.or_eq_true, beq_iff_eq] at hc
    rcases hc with ((rfl | rfl) | rfl) | rfl <;> decide

theorem skipSpace_append {sp : List Char} (h : Space sp) (rest : List Char) :
    skipSpace (sp ++ rest) = skipSpace rest :=
  List.dropWhile_append_of_pos h

theorem skipSpace_cons {c : Char} (h : isSpace c = false) (rest : List Char) :
    skipSpace (c :: rest) = c :: rest :=
  List.dropWhile_cons_of_neg (Bool.not_eq_true _ ▸ h)

/-- The first character of a value. -/
def Starts (c : Char) : Prop :=
  c = '"' ∨ c = '{' ∨ c = '[' ∨ c = 't' ∨ c = 'f' ∨ c = 'n' ∨ c = '-' ∨ c.isDigit = true

theorem NumberText.WellFormed.head {t : NumberText} (h : t.WellFormed) :
    ∃ c text, t.text = c :: text ∧ (c = '-' ∨ c.isDigit = true) := by
  unfold NumberText.text
  rcases h.minus with hminus | hminus
  · obtain ⟨d, ds, hint, hd⟩ := h.int_head
    rw [hminus, hint]
    exact ⟨d, _, rfl, .inr hd⟩
  · rw [hminus]
    exact ⟨'-', _, rfl, .inl rfl⟩

theorem Reads.head {D : Dialect} {v : JsonValue} {input rest : List Char}
    (h : Reads conv D (.value v) input rest) : ∃ c text, input = c :: text ∧ Starts c := by
  rcases h
  case number hform hv =>
    obtain ⟨c, text, htext, hc⟩ := hform.head
    rw [htext]
    exact ⟨c, _, rfl, by simp only [Starts, hc, or_true]⟩
  case null => exact ⟨'n', _, rfl, by simp only [Starts, true_or, or_true]⟩
  case true => exact ⟨'t', _, rfl, by simp only [Starts, true_or, or_true]⟩
  case false => exact ⟨'f', _, rfl, by simp only [Starts, true_or, or_true]⟩
  all_goals exact ⟨_, _, rfl, by simp only [Starts, true_or, or_true]⟩

theorem Starts.not_isSpace {c : Char} (h : Starts c) : isSpace c = false := by
  rcases h with rfl | rfl | rfl | rfl | rfl | rfl | rfl | hdigit
  all_goals first | rfl | skip
  have hrange := (isDigit_iff c).mp hdigit
  rw [Bool.eq_false_iff]
  intro hspace
  simp only [isSpace, Bool.or_eq_true, beq_iff_eq] at hspace
  rcases hspace with ((rfl | rfl) | rfl) | rfl <;> cases hdigit

theorem Stuck.head {input : List Char} (h : Stuck conv checks .value input) :
    ∃ c text, input = c :: text ∧ Starts c := by
  rcases h <;> exact ⟨_, _, rfl, by simp only [Starts, true_or, or_true]⟩

theorem ends_cons {c : Char} (hdigit : c.isDigit = false) (hpoint : c ≠ '.') (hlower : c ≠ 'e')
    (hupper : c ≠ 'E') (rest : List Char) : Ends (c :: rest) := fun c' hc' => by
  obtain rfl := Option.some.inj hc'
  exact ⟨hdigit, hpoint, hlower, hupper⟩

theorem readNext_close {close : Char} {done : JsonValue}
    {more : List Char → Outcome (JsonValue × List Char)} {rest : List Char} :
    readNext close done more (close :: rest) = .ok (done, rest) :=
  if_pos rfl

theorem readNext_comma {close : Char} {done : JsonValue}
    {more : List Char → Outcome (JsonValue × List Char)} {rest : List Char} (h : ',' ≠ close) :
    readNext close done more (',' :: rest) = more rest :=
  (if_neg h).trans (if_pos rfl)

theorem skipSpace_skipSpace (input : List Char) : skipSpace (skipSpace input) = skipSpace input :=
  List.dropWhile_idempotent isSpace input

theorem readValue_congr {n fuel : ℕ} {input input' : List Char}
    (h : skipSpace input = skipSpace input') :
    readValue conv checks n fuel input = readValue conv checks n fuel input' := by
  rcases fuel with - | fuel
  · rfl
  · rw [readValue, readValue, h]

theorem readArrayLoop_skipSpace {n fuel loops : ℕ} {input : List Char} {arr : List JsonValue} :
    readArrayLoop (readValue conv checks n fuel) loops (skipSpace input) arr =
      readArrayLoop (readValue conv checks n fuel) loops input arr := by
  rcases loops with - | loops
  · rfl
  · rw [readArrayLoop, readArrayLoop, readValue_congr (skipSpace_skipSpace input)]

theorem readObjectLoop_skipSpace {n loops : ℕ} {input : List Char}
    {read : List Char → Outcome (JsonValue × List Char)} {map : List (String × JsonValue)} :
    readObjectLoop checks read n loops (skipSpace input) map =
      readObjectLoop checks read n loops input map := by
  rcases loops with - | loops
  · rfl
  · rw [readObjectLoop, readObjectLoop, skipSpace_skipSpace]

/-- What the reader makes of a phrase, with fuel for every character. -/
def ReadAs (conv : FloatText) (checks : Bool) (p : Phrase) (input rest : List Char) : Prop :=
  ∀ n fuel, input.length ≤ n → input.length < fuel →
    match p with
    | .value v => Ends rest → ∀ sp, Space sp →
      readValue conv checks n fuel (sp ++ input) = .ok (v, rest)
    | .elements vs => ∀ loops arr, input.length < loops →
      readArrayLoop (readValue conv checks n fuel) loops input arr = .ok (.array (arr ++ vs), rest)
    | .members kvs => ∀ loops map, input.length < loops →
      readObjectLoop checks (readValue conv checks n fuel) n loops input map =
        .ok (.object (insertMembers map kvs), rest)

/-- The dispatch on the first character of a value. -/
theorem readValue_cons {n fuel : ℕ} {sp rest : List Char} {c : Char} (hsp : Space sp)
    (hc : isSpace c = false) : readValue conv checks n (fuel + 1) (sp ++ c :: rest) =
      if c = '"' then readStringLoop checks n rest "" >>= fun r => pure (.string r.1, r.2)
      else if c = '{' then readObject checks (readValue conv checks n fuel) n rest
      else if c = '[' then readArray (readValue conv checks n fuel) n rest
      else if c = 't' ∨ c = 'f' then readBool (c :: rest)
      else if c = 'n' then readNull (c :: rest)
      else if c = '-' ∨ c.isDigit then readNumber conv (c :: rest)
      else .fail :=
  readValue_of_skipSpace ((skipSpace_append hsp _).trans (skipSpace_cons hc _))

theorem readValue_string {n fuel : ℕ} {sp rest : List Char} (hsp : Space sp) :
    readValue conv checks n (fuel + 1) (sp ++ '"' :: rest) =
      readStringLoop checks n rest "" >>= fun r => pure (.string r.1, r.2) := by
  rw [readValue_cons hsp rfl, if_pos rfl]

theorem readValue_object {n fuel : ℕ} {sp rest : List Char} (hsp : Space sp) :
    readValue conv checks n (fuel + 1) (sp ++ '{' :: rest) =
      readObject checks (readValue conv checks n fuel) n rest := by
  rw [readValue_cons hsp rfl, if_neg (by decide), if_pos rfl]

theorem readValue_array {n fuel : ℕ} {sp rest : List Char} (hsp : Space sp) :
    readValue conv checks n (fuel + 1) (sp ++ '[' :: rest) =
      readArray (readValue conv checks n fuel) n rest := by
  rw [readValue_cons hsp rfl, if_neg (by decide), if_neg (by decide), if_pos rfl]

theorem readValue_number {n fuel : ℕ} {sp rest : List Char} {c : Char} (hsp : Space sp)
    (hc : c = '-' ∨ c.isDigit = true) :
    readValue conv checks n (fuel + 1) (sp ++ c :: rest) = readNumber conv (c :: rest) := by
  have hne : ∀ d : Char, d ≠ '-' → d.isDigit = false → c ≠ d := by
    rintro d hminus hdigit rfl
    rcases hc with rfl | hc
    · exact hminus rfl
    · rw [hdigit] at hc
      cases hc
  have hstarts : Starts c := by simp only [Starts, hc, or_true]
  rw [readValue_cons hsp hstarts.not_isSpace, if_neg (hne _ (by decide) (by decide)),
    if_neg (hne _ (by decide) (by decide)), if_neg (hne _ (by decide) (by decide)),
    if_neg (not_or.mpr ⟨hne _ (by decide) (by decide), hne _ (by decide) (by decide)⟩),
    if_neg (hne _ (by decide) (by decide)), if_pos hc]

/-- A collection with an item does not close at once. -/
theorem Starts.ne_close {c : Char} (h : Starts c) : c ≠ ']' ∧ c ≠ '}' := by
  refine ⟨?_, ?_⟩ <;> rintro rfl <;> revert h <;> unfold Starts <;> decide

theorem head_skipSpace_starts {sp input : List Char} (hsp : Space sp)
    (h : ∃ c text, input = c :: text ∧ Starts c) :
    (skipSpace (sp ++ input)).head? ≠ some ']' := by
  obtain ⟨c, text, rfl, hc⟩ := h
  rw [skipSpace_append hsp, skipSpace_cons hc.not_isSpace, List.head?_cons]
  exact fun heq => hc.ne_close.1 (Option.some.inj heq)

theorem Reads.elements_head {D : Dialect} {vs : List JsonValue} {input rest : List Char}
    (h : Reads conv D (.elements vs) input rest) : (skipSpace input).head? ≠ some ']' := by
  rcases h
  case lastElement hsp hsp' hv => exact head_skipSpace_starts hsp hv.head
  case moreElements hsp hsp' hv hmore => exact head_skipSpace_starts hsp hv.head

theorem readArray_of_ne {n fuel : ℕ} {input : List Char}
    (h : (skipSpace input).head? ≠ some ']') :
    readArray (readValue conv checks n fuel) n input =
      readArrayLoop (readValue conv checks n fuel) n input [] := by
  unfold readArray
  rw [if_neg h, readArrayLoop_skipSpace]

theorem readObject_of_ne {read : List Char → Outcome (JsonValue × List Char)} {n : ℕ}
    {input : List Char} (h : (skipSpace input).head? ≠ some '}') :
    readObject checks read n input = readObjectLoop checks read n n input [] := by
  unfold readObject
  rw [if_neg h, readObjectLoop_skipSpace]

theorem head_skipSpace_quote {sp text : List Char} (hsp : Space sp) :
    (skipSpace (sp ++ '"' :: text)).head? ≠ some '}' := by
  rw [skipSpace_append hsp, skipSpace_cons rfl, List.head?_cons]
  decide

theorem Reads.members_head {D : Dialect} {kvs : List (String × JsonValue)} {input rest : List Char}
    (h : Reads conv D (.members kvs) input rest) : (skipSpace input).head? ≠ some '}' := by
  rcases h
  case lastMember hsp hsp₁ hsp₂ hsp₃ hkey hv => exact head_skipSpace_quote hsp
  case moreMembers hsp hsp₁ hsp₂ hsp₃ hkey hv hmore => exact head_skipSpace_quote hsp

/-- One element of an array, read. -/
theorem readArrayLoop_value {read : List Char → Outcome (JsonValue × List Char)} {loops : ℕ}
    {input rest : List Char} {arr : List JsonValue} {v : JsonValue} (h : read input = .ok (v, rest)) :
    readArrayLoop read (loops + 1) input arr =
      readNext ']' (.array (arr ++ [v]))
        (fun rest => readArrayLoop read loops rest (arr ++ [v])) (skipSpace rest) := by
  rw [readArrayLoop, h, Outcome.ok_bind]

/-- The key of a member, read. -/
theorem readObjectLoop_key {read : List Char → Outcome (JsonValue × List Char)} {n loops : ℕ}
    {k sp sp₁ text input : List Char} {map : List (String × JsonValue)} (hsp : Space sp)
    (hsp₁ : Space sp₁) (hkey : Body (.code checks) k text (sp₁ ++ ':' :: input))
    (hlt : text.length < n) :
    readObjectLoop checks read n (loops + 1) (sp ++ '"' :: text) map =
      read input >>= fun r =>
        readNext '}' (.object (insertMember map (String.ofList k) r.1))
          (fun rest => readObjectLoop checks read n loops rest
            (insertMember map (String.ofList k) r.1)) (skipSpace r.2) := by
  rw [readObjectLoop, skipSpace_append hsp, skipSpace_cons rfl, hkey.readString hlt,
    Outcome.ok_bind]
  dsimp only
  rw [skipSpace_append hsp₁, skipSpace_cons rfl]
  exact if_neg (not_not_intro rfl)

theorem succ_of_lt {a b : ℕ} (h : a < b) : ∃ c, b = c + 1 :=
  Nat.exists_eq_succ_of_ne_zero (Nat.ne_zero_of_lt h)

/-- Every text of a phrase is read as that phrase. -/
theorem Reads.read {p : Phrase} {input rest : List Char}
    (h : Reads conv (.code checks) p input rest) : ReadAs conv checks p input rest := by
  induction h with
  | null | true | false =>
    rintro n fuel hn hlt - sp hsp
    obtain ⟨fuel, rfl⟩ := succ_of_lt hlt
    refine (readValue_cons hsp ?_).trans ?_
    · rfl
    · rfl
  | number hform hv =>
    rintro n fuel hn hlt hends sp hsp
    obtain ⟨fuel, rfl⟩ := succ_of_lt hlt
    obtain ⟨c, text, htext, hc⟩ := hform.head
    rw [← readNumber_append hform hv hends, htext]
    exact readValue_number hsp hc
  | string hbody =>
    rintro n fuel hn hlt - sp hsp
    obtain ⟨fuel, rfl⟩ := succ_of_lt hlt
    rw [readValue_string hsp, hbody.read n "" hn]
    rfl
  | @emptyArray sp' rest hsp' =>
    rintro n fuel hn hlt - sp hsp
    obtain ⟨fuel, rfl⟩ := succ_of_lt hlt
    rw [readValue_array hsp, readArray, skipSpace_append hsp', skipSpace_cons rfl]
    rfl
  | array helements ih =>
    rintro n fuel hn hlt - sp hsp
    obtain ⟨fuel, rfl⟩ := succ_of_lt hlt
    rw [readValue_array hsp, readArray_of_ne helements.elements_head,
      ih n fuel (Nat.le_of_succ_le hn) (Nat.lt_of_succ_lt_succ hlt) n [] hn]
    rfl
  | @emptyObject sp' rest hsp' =>
    rintro n fuel hn hlt - sp hsp
    obtain ⟨fuel, rfl⟩ := succ_of_lt hlt
    rw [readValue_object hsp, readObject, skipSpace_append hsp', skipSpace_cons rfl]
    rfl
  | object hmembers ih =>
    rintro n fuel hn hlt - sp hsp
    obtain ⟨fuel, rfl⟩ := succ_of_lt hlt
    rw [readValue_object hsp, readObject_of_ne hmembers.members_head,
      ih n fuel (Nat.le_of_succ_le hn) (Nat.lt_of_succ_lt_succ hlt) n [] hn]
  | @lastElement v sp sp' input rest hsp hsp' hv ih =>
    rintro n fuel hn hlt loops arr hloops
    rw [List.length_append] at hn hlt
    obtain ⟨loops, rfl⟩ := succ_of_lt hloops
    have hends : Ends (sp' ++ ']' :: rest) :=
      hsp'.ends (ends_cons rfl (by decide) (by decide) (by decide) rest)
    rw [readArrayLoop_value (ih n fuel (by omega) (by omega) hends sp hsp), skipSpace_append hsp',
      skipSpace_cons rfl, readNext_close]
  | @moreElements v vs sp sp' input mid rest hsp hsp' hv hmore ih ih' =>
    rintro n fuel hn hlt loops arr hloops
    have hlen := hv.length_lt
    simp only [List.length_append, List.length_cons] at hn hlt hloops hlen
    obtain ⟨loops, rfl⟩ := succ_of_lt hloops
    have hends : Ends (sp' ++ ',' :: mid) :=
      hsp'.ends (ends_cons rfl (by decide) (by decide) (by decide) mid)
    rw [readArrayLoop_value (ih n fuel (by omega) (by omega) hends sp hsp), skipSpace_append hsp',
      skipSpace_cons rfl, readNext_comma (by decide),
      ih' n fuel (by omega) (by omega) loops (arr ++ [v]) (by omega), List.append_assoc]
    rfl
  | @lastMember k v sp sp₁ sp₂ sp₃ text input rest hsp hsp₁ hsp₂ hsp₃ hkey hv ih =>
    rintro n fuel hn hlt loops map hloops
    have hlen := hkey.length_lt
    simp only [List.length_append, List.length_cons] at hn hlt hloops hlen
    obtain ⟨loops, rfl⟩ := succ_of_lt hloops
    have hends : Ends (sp₃ ++ '}' :: rest) :=
      hsp₃.ends (ends_cons rfl (by decide) (by decide) (by decide) rest)
    rw [readObjectLoop_key hsp hsp₁ hkey (by omega),
      ih n fuel (by omega) (by omega) hends sp₂ hsp₂, Outcome.ok_bind, skipSpace_append hsp₃,
      skipSpace_cons rfl, readNext_close]
    rfl
  | @moreMembers k v kvs sp sp₁ sp₂ sp₃ text input mid rest hsp hsp₁ hsp₂ hsp₃ hkey hv hmore ih
      ih' =>
    rintro n fuel hn hlt loops map hloops
    have hlen := hkey.length_lt
    have hlen' := hv.length_lt
    simp only [List.length_append, List.length_cons] at hn hlt hloops hlen hlen'
    obtain ⟨loops, rfl⟩ := succ_of_lt hloops
    have hends : Ends (sp₃ ++ ',' :: mid) :=
      hsp₃.ends (ends_cons rfl (by decide) (by decide) (by decide) mid)
    rw [readObjectLoop_key hsp hsp₁ hkey (by omega),
      ih n fuel (by omega) (by omega) hends sp₂ hsp₂, Outcome.ok_bind, skipSpace_append hsp₃,
      skipSpace_cons rfl, readNext_comma (by decide),
      ih' n fuel (by omega) (by omega) loops _ (by omega)]
    rfl

/-! ## Panics -/

/-- Where the reader panics, with fuel for every character. -/
def PanicsAt (conv : FloatText) (checks : Bool) (place : Place) (input : List Char) : Prop :=
  ∀ n fuel, input.length ≤ n → input.length < fuel →
    match place with
    | .value => ∀ sp, Space sp → readValue conv checks n fuel (sp ++ input) = .panic
    | .elements => ∀ loops arr, input.length < loops →
      readArrayLoop (readValue conv checks n fuel) loops input arr = .panic
    | .members => ∀ loops map, input.length < loops → input.length < n →
      readObjectLoop checks (readValue conv checks n fuel) n loops input map = .panic

theorem Stuck.elements_head {input : List Char} (h : Stuck conv checks .elements input) :
    (skipSpace input).head? ≠ some ']' := by
  rcases h
  case element hsp h => exact head_skipSpace_starts hsp h.head
  case laterElement hsp hsp' hv hmore => exact head_skipSpace_starts hsp hv.head

theorem skipSpace_space {sp : List Char} (h : Space sp) : skipSpace sp = [] :=
  List.dropWhile_eq_nil_iff.mpr h

theorem Stuck.members_head {input : List Char} (h : Stuck conv checks .members input) :
    (skipSpace input).head? ≠ some '}' := by
  rcases h
  case noKey hsp =>
    rw [skipSpace_space hsp]
    exact nofun
  case key hsp hchecks h => exact head_skipSpace_quote hsp
  case member hsp hsp₁ hsp₂ hkey h => exact head_skipSpace_quote hsp
  case laterMember hsp hsp₁ hsp₂ hsp₃ hkey hv hmore => exact head_skipSpace_quote hsp

theorem Stuck.panic {place : Place} {input : List Char} (h : Stuck conv checks place input) :
    PanicsAt conv checks place input := by
  induction h with
  | string hchecks hunder =>
    rintro n fuel hn hlt sp hsp
    obtain ⟨fuel, rfl⟩ := succ_of_lt hlt
    rw [readValue_string hsp, hunder.panic hchecks n "" hn]
    rfl
  | array helements ih =>
    rintro n fuel hn hlt sp hsp
    obtain ⟨fuel, rfl⟩ := succ_of_lt hlt
    rw [readValue_array hsp, readArray_of_ne helements.elements_head]
    exact ih n fuel (Nat.le_of_succ_le hn) (Nat.lt_of_succ_lt_succ hlt) n [] hn
  | object hmembers ih =>
    rintro n fuel hn hlt sp hsp
    obtain ⟨fuel, rfl⟩ := succ_of_lt hlt
    rw [readValue_object hsp, readObject_of_ne hmembers.members_head]
    exact ih n fuel (Nat.le_of_succ_le hn) (Nat.lt_of_succ_lt_succ hlt) n [] hn hn
  | @element sp input hsp h ih =>
    rintro n fuel hn hlt loops arr hloops
    rw [List.length_append] at hn hlt
    obtain ⟨loops, rfl⟩ := succ_of_lt hloops
    rw [readArrayLoop, ih n fuel (by omega) (by omega) sp hsp]
    rfl
  | @laterElement v sp sp' input mid hsp hsp' hv hmore ih =>
    rintro n fuel hn hlt loops arr hloops
    have hlen := hv.length_lt
    simp only [List.length_append, List.length_cons] at hn hlt hloops hlen
    obtain ⟨loops, rfl⟩ := succ_of_lt hloops
    have hends : Ends (sp' ++ ',' :: mid) :=
      hsp'.ends (ends_cons rfl (by decide) (by decide) (by decide) mid)
    rw [readArrayLoop_value (hv.read n fuel (by omega) (by omega) hends sp hsp),
      skipSpace_append hsp', skipSpace_cons rfl, readNext_comma (by decide)]
    exact ih n fuel (by omega) (by omega) loops _ (by omega)
  | noKey hsp =>
    rintro n fuel hn hlt loops map hloops -
    obtain ⟨loops, rfl⟩ := succ_of_lt hloops
    rw [readObjectLoop, skipSpace_space hsp]
    rfl
  | @key sp text hsp hchecks hunder =>
    rintro n fuel hn hlt loops map hloops hn'
    obtain ⟨loops, rfl⟩ := succ_of_lt hloops
    simp only [List.length_append, List.length_cons] at hn'
    rw [readObjectLoop, skipSpace_append hsp, skipSpace_cons rfl, readString, if_pos rfl,
      hunder.panic hchecks n "" (by omega)]
    rfl
  | @member k sp sp₁ sp₂ text input hsp hsp₁ hsp₂ hkey h ih =>
    rintro n fuel hn hlt loops map hloops hn'
    have hlen := hkey.length_lt
    simp only [List.length_append, List.length_cons] at hn hlt hloops hlen
    obtain ⟨loops, rfl⟩ := succ_of_lt hloops
    rw [readObjectLoop_key hsp hsp₁ hkey (by omega),
      ih n fuel (by omega) (by omega) sp₂ hsp₂]
    rfl
  | @laterMember k v sp sp₁ sp₂ sp₃ text input mid hsp hsp₁ hsp₂ hsp₃ hkey hv hmore ih =>
    rintro n fuel hn hlt loops map hloops hn'
    have hlen := hkey.length_lt
    have hlen' := hv.length_lt
    simp only [List.length_append, List.length_cons] at hn hlt hloops hlen hlen'
    obtain ⟨loops, rfl⟩ := succ_of_lt hloops
    have hends : Ends (sp₃ ++ ',' :: mid) :=
      hsp₃.ends (ends_cons rfl (by decide) (by decide) (by decide) mid)
    rw [readObjectLoop_key hsp hsp₁ hkey (by omega),
      hv.read n fuel (by omega) (by omega) hends sp₂ hsp₂, Outcome.ok_bind, skipSpace_append hsp₃,
      skipSpace_cons rfl, readNext_comma (by decide)]
    exact ih n fuel (by omega) (by omega) loops _ (by omega) (by omega)

/-! ## Documents -/

/-- The texts on which the parser panics. -/
def StuckDocument (conv : FloatText) (checks : Bool) (text : List Char) : Prop :=
  ∃ sp input, Space sp ∧ text = sp ++ input ∧ Stuck conv checks .value input

theorem meets_document (conv : FloatText) (checks : Bool) (text : List Char) :
    Meets (fun v => Document conv (.code checks) text v) (StuckDocument conv checks text)
      (readDocument conv checks text) := by
  unfold readDocument
  split
  · exact .fail
  have hlen := length_encode_ge text
  refine (meets_value _ text (Nat.lt_succ_of_le hlen) hlen).bind ?_ id
  rintro ⟨v, rest⟩ ⟨sp, input, hsp, htext, hv⟩
  dsimp only
  split
  · rename_i hrest
    obtain ⟨sp', hsp', hsplit⟩ := skipSpace_split rest
    rw [hrest, List.append_nil] at hsplit
    rw [hsplit] at hv
    exact .ok ⟨sp, input, sp', hsp, hsp', htext, hv⟩
  · exact .fail

theorem space_ends {sp : List Char} (h : Space sp) : Ends sp := by
  rw [← List.append_nil sp]
  exact h.ends nofun

theorem readDocument_eq_ok_iff {text : List Char} {v : JsonValue} :
    readDocument conv checks text = .ok v ↔ Document conv (.code checks) text v := by
  refine ⟨fun h => ?_, ?_⟩
  · rcases meets_document conv checks text with ⟨v', hv', hdoc⟩ | hfail |
      ⟨hpanic, -⟩
    · obtain rfl := Outcome.ok.inj (hv'.symm.trans h)
      exact hdoc
    · rw [hfail] at h
      cases h
    · rw [hpanic] at h
      cases h
  · rintro ⟨sp, input, sp', hsp, hsp', rfl, hv⟩
    have hlen := length_encode_ge (sp ++ input)
    have hpos := hv.length_lt
    rw [List.length_append] at hlen
    have hne : sp ++ input ≠ [] := List.append_ne_nil_of_right_ne_nil _ (by
      rintro rfl
      cases hpos)
    unfold readDocument
    rw [if_neg hne]
    dsimp only
    rw [hv.read _ _ (by omega) (by omega) (space_ends hsp') sp hsp, Outcome.ok_bind]
    exact if_pos (skipSpace_space hsp')

theorem readDocument_eq_panic_iff {text : List Char} :
    readDocument conv checks text = .panic ↔ StuckDocument conv checks text := by
  refine ⟨fun h => ?_, ?_⟩
  · rcases meets_document conv checks text with ⟨v', hv', -⟩ | hfail |
      ⟨-, hstuck⟩
    · rw [hv'] at h
      cases h
    · rw [hfail] at h
      cases h
    · exact hstuck
  · rintro ⟨sp, input, hsp, rfl, hstuck⟩
    have hlen := length_encode_ge (sp ++ input)
    obtain ⟨c, rest, hinput, -⟩ := hstuck.head
    rw [List.length_append] at hlen
    have hne : sp ++ input ≠ [] := List.append_ne_nil_of_right_ne_nil _ (by
      rw [hinput]
      exact List.cons_ne_nil _ _)
    unfold readDocument
    rw [if_neg hne]
    dsimp only
    rw [hstuck.panic _ _ (by omega) (by omega) sp hsp]
    rfl

/-- The parser accepts the documents of its grammar, with their values. -/
theorem parse_eq_ok_iff {s : String} {v : JsonValue} :
    JsonValue.parse conv checks s = .ok v ↔ Document conv (.code checks) (trim s.toList) v := by
  rw [parse_eq_readDocument, readDocument_eq_ok_iff]

theorem parse_eq_panic_iff {s : String} :
    JsonValue.parse conv checks s = .panic ↔ StuckDocument conv checks (trim s.toList) := by
  rw [parse_eq_readDocument, readDocument_eq_panic_iff]

theorem parse_ne_outOfFuel (s : String) : JsonValue.parse conv checks s ≠ .outOfFuel := by
  rw [parse_eq_readDocument]
  rcases meets_document conv checks (trim s.toList) with ⟨v, hv, -⟩ | hfail |
    ⟨hpanic, -⟩
  · rw [hv]
    exact nofun
  · rw [hfail]
    exact nofun
  · rw [hpanic]
    exact nofun

/-- The parser returns on exactly the texts that are not stuck. -/
theorem parse_returns_iff (conv : FloatText) (checks : Bool) (s : String) :
    ((∃ v, JsonValue.parse conv checks s = .ok v) ∨ JsonValue.parse conv checks s = .fail) ↔
      ¬StuckDocument conv checks (trim s.toList) := by
  rw [← parse_eq_panic_iff]
  refine ⟨?_, fun h => ?_⟩
  · rintro (⟨v, hv⟩ | hfail) hpanic
    · rw [hv] at hpanic
      cases hpanic
    · rw [hfail] at hpanic
      cases hpanic
  · rcases hs : JsonValue.parse conv checks s with v | - | - | -
    · exact .inl ⟨v, rfl⟩
    · exact .inr rfl
    · exact absurd hs h
    · exact absurd hs (parse_ne_outOfFuel s)

/-- An object that ends before its first key, and a pair with a second unit below DC00. -/
theorem parse_panics :
    JsonValue.parse ⟨fun _ => [], fun _ => none⟩ false "\x7b" = .panic ∧
      JsonValue.parse ⟨fun _ => [], fun _ => none⟩ true "\"\\ud800\\u0041\"" = .panic := by
  have hbrace : Stuck ⟨fun _ => [], fun _ => none⟩ false .value ['{'] :=
    .object (.noKey fun _ hc => absurd hc List.not_mem_nil)
  have hfirst : (Dialect.code true).hex ['d', '8', '0', '0'] 0xD800 := ⟨rfl, by decide⟩
  have hsecond : (Dialect.code true).hex ['0', '0', '4', '1'] 0x41 := ⟨rfl, by decide⟩
  have hpair : Underflow true "\\ud800\\u0041\"".toList :=
    .here hfirst (by decide) hsecond (by decide)
  refine ⟨parse_eq_panic_iff.mpr ⟨[], _, fun _ hc => absurd hc List.not_mem_nil, ?_, hbrace⟩,
    parse_eq_panic_iff.mpr ⟨[], _, fun _ hc => absurd hc List.not_mem_nil, ?_, .string rfl hpair⟩⟩
  · decide
  · decide

end Json

end Rust

end DataShare
