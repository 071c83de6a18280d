import DataShare.JsonGrammar

/-!
# What the reader takes

The reader's value is one the grammar `Dialect.code` gives for the text before its rest, and where
the reader panics the text is `Stuck` (`meets_value`). With fuel beyond the length of the text
it does not run out of it.
-/

namespace DataShare

namespace Rust

namespace Json

variable {conv : FloatText} {checks : Bool} {input : List Char}

/-! ## Strings -/

theorem meets_hex (checks : Bool) (input : List Char) {Q : Prop} :
    Meets (fun r => ∃ ds, (Dialect.code checks).hex ds r.1 ∧ input = ds ++ r.2) Q
      (readHex input) := by
  rcases readHex_cases input with hread | ⟨ds, n, rest, hfour, hinput, hn, hread⟩
  · rw [hread]
    exact .fail
  · rw [hread]
    exact .ok ⟨ds, ⟨hfour, hn⟩, hinput⟩

theorem afterUnicode_cons (c u : Char) (rest : List Char) : afterUnicode (c :: u :: rest) =
    if c = '\\' ∧ u = 'u' ∧ 4 ≤ (encode rest).length then some rest else none :=
  rfl

theorem afterUnicode_eq_some {input rest : List Char} (h : afterUnicode input = some rest) :
    input = '\\' :: 'u' :: rest := by
  rcases input with - | ⟨c, - | ⟨u, rest'⟩⟩
  · cases h
  · cases h
  · rw [afterUnicode_cons] at h
    split at h
    · rename_i hin
      obtain ⟨rfl, rfl, -⟩ := hin
      rw [Option.some.inj h]
    · cases h

theorem meets_unicode (input : List Char) :
    Meets (fun r => Item (.code checks) r.1 ('\\' :: 'u' :: input) r.2)
      (checks = true ∧ Underflow checks ('\\' :: 'u' :: input)) (readUnicode checks input) := by
  unfold readUnicode
  refine (meets_hex checks input (Q := False)).bind ?_ False.elim
  rintro ⟨n, rest⟩ ⟨ds, hn, rfl⟩
  dsimp only
  split
  · rename_i hhigh
    rcases hrest : afterUnicode rest with - | rest'
    · exact .ok (.lone hn hhigh hrest)
    obtain rfl := afterUnicode_eq_some hrest
    refine (meets_hex checks rest' (Q := False)).bind ?_ False.elim
    rintro ⟨n', rest⟩ ⟨ds', hn', rfl⟩
    dsimp only
    rcases hcode : surrogatePair checks n n' with code | - | - | -
    · simp only [Outcome.ok_bind]
      exact (meets_ofOption (Q := False)).bind (fun c hc => .ok (.pair hn hhigh hn' hcode hc))
        False.elim
    · exact .fail
    · unfold surrogatePair at hcode
      split at hcode
      · rename_i hlow
        exact .panic ⟨hlow.2, .here hn hhigh hn' hlow.1⟩
      · cases hcode
    · unfold surrogatePair at hcode
      split at hcode <;> cases hcode
  · rename_i hhigh
    exact (meets_ofOption (Q := False)).bind (fun c hc => .ok (.unicode hn hhigh hc)) False.elim

theorem meets_escape (input : List Char) :
    Meets (fun r => Item (.code checks) r.1 ('\\' :: input) r.2)
      (checks = true ∧ Underflow checks ('\\' :: input)) (readEscape checks input) := by
  rcases input with - | ⟨e, rest⟩
  · exact .fail
  rw [readEscape]
  split
  · rename_i he
    rw [he]
    exact meets_unicode rest
  · exact (meets_ofOption (Q := False)).bind (fun c hc => .ok (.short hc)) False.elim

theorem Item.length_lt {D : Dialect} {c : Char} {input rest : List Char} (h : Item D c input rest) :
    rest.length < input.length := by
  cases h <;> simp only [List.length_cons, List.length_append] <;> omega

theorem meets_stringLoop : ∀ (fuel : ℕ) (input : List Char) (s : String), input.length < fuel →
    Meets (fun r => ∃ cs, r.1 = String.ofList (s.toList ++ cs) ∧ Body (.code checks) cs input r.2)
      (checks = true ∧ Underflow checks input) (readStringLoop checks fuel input s)
  | 0, _, _, hlt => absurd hlt (Nat.not_lt_zero _)
  | fuel + 1, [], s, _ => .fail
  | fuel + 1, c :: rest, s, hlt => by
    -- One character, by its item, and then the rest of the literal.
    have hstep : ∀ {c' : Char} {mid : List Char}, Item (.code checks) c' (c :: rest) mid →
        Meets (fun r => ∃ cs, r.1 = String.ofList (s.toList ++ cs) ∧
          Body (.code checks) cs (c :: rest) r.2) (checks = true ∧ Underflow checks (c :: rest))
          (readStringLoop checks fuel mid (s.push c')) := fun {c' mid} hitem => by
      have hmid : mid.length < fuel := hitem.length_lt.trans_le (Nat.le_of_lt_succ hlt)
      refine (meets_stringLoop fuel mid (s.push c') hmid).mono ?_ fun h => ⟨h.1, .item hitem h.2⟩
      rintro r ⟨cs, hr, hbody⟩
      rw [String.toList_push, List.append_assoc] at hr
      exact ⟨c' :: cs, hr, .item hitem hbody⟩
    unfold readStringLoop
    split
    · rename_i hc
      rw [hc]
      exact .ok ⟨[], by rw [List.append_nil, String.ofList_toList], .close⟩
    rename_i hquote
    split
    · rename_i hslash
      subst hslash
      refine (meets_escape rest).bind ?_ id
      exact fun r hitem => hstep hitem
    · rename_i hslash
      exact hstep (.raw hquote hslash trivial)

/-- A string literal, or a panic at the end of the text or in the literal. -/
theorem meets_string {n : ℕ} (input : List Char) (hlt : input.length < n) :
    Meets (fun r => ∃ cs text, r.1 = String.ofList cs ∧ input = '"' :: text ∧
        Body (.code checks) cs text r.2)
      (input = [] ∨ checks = true ∧ ∃ text, input = '"' :: text ∧ Underflow checks text)
      (readString checks n input) := by
  rcases input with - | ⟨c, rest⟩
  · exact .panic (.inl rfl)
  rw [readString]
  split
  · rename_i hc
    subst hc
    have hrest : rest.length < n := (Nat.lt_succ_self _).trans hlt
    refine (meets_stringLoop n rest "" hrest).mono ?_ fun h => .inr ⟨h.1, rest, rfl, h.2⟩
    rintro r ⟨cs, hr, hbody⟩
    exact ⟨cs, rest, hr, rfl, hbody⟩
  · exact .fail

/-! ## Numbers -/

theorem readDigits_eq_some {input text rest : List Char} (h : readDigits input = some (text, rest)) :
    Digits text ∧ input = text ++ rest := by
  rcases input with - | ⟨c, tail⟩
  · cases h
  by_cases hc : c.isDigit = true
  · rw [readDigits, List.head?_cons, Option.any_some, if_pos hc] at h
    obtain ⟨rfl, rfl⟩ := Prod.mk.inj (Option.some.inj h)
    refine ⟨⟨?_, fun d hd => List.mem_takeWhile_imp hd⟩, (List.takeWhile_append_dropWhile ..).symm⟩
    rw [List.takeWhile_cons_of_pos hc]
    exact List.cons_ne_nil _ _
  · rw [readDigits, List.head?_cons, Option.any_some, if_neg hc] at h
    cases h

theorem readInteger_eq_some {input text rest : List Char}
    (h : readInteger input = some (text, rest)) :
    (text = ['0'] ∨ Digits text ∧ text.head? ≠ some '0') ∧ input = text ++ rest := by
  rcases input with - | ⟨c, tail⟩
  · cases h
  rw [readInteger] at h
  split at h
  · rename_i hc
    obtain ⟨rfl, rfl⟩ := Prod.mk.inj (Option.some.inj h)
    rw [hc]
    exact ⟨.inl rfl, rfl⟩
  · rename_i hc
    obtain ⟨hdigits, hinput⟩ := readDigits_eq_some h
    refine ⟨.inr ⟨hdigits, fun hhead => hc ?_⟩, hinput⟩
    obtain ⟨tail', rfl⟩ := List.head?_eq_some_iff.mp hhead
    exact (List.cons.inj hinput).1

theorem readFraction_eq_some {input text rest : List Char}
    (h : readFraction input = some (text, rest)) :
    (text = [] ∨ ∃ ds, Digits ds ∧ text = '.' :: ds) ∧ input = text ++ rest := by
  rcases input with - | ⟨c, tail⟩
  · obtain ⟨rfl, rfl⟩ := Prod.mk.inj (Option.some.inj h)
    exact ⟨.inl rfl, rfl⟩
  rw [readFraction_cons] at h
  split at h
  · rename_i hc
    obtain ⟨⟨ds, rest'⟩, hr, heq⟩ := Option.map_eq_some_iff.mp h
    obtain ⟨rfl, rfl⟩ := Prod.mk.inj heq
    obtain ⟨hdigits, rfl⟩ := readDigits_eq_some hr
    rw [hc]
    exact ⟨.inr ⟨ds, hdigits, rfl⟩, rfl⟩
  · obtain ⟨rfl, rfl⟩ := Prod.mk.inj (Option.some.inj h)
    exact ⟨.inl rfl, rfl⟩

theorem readSign_cases (input : List Char) : (readSign input).1 = [] ∨
    (readSign input).1 = ['+'] ∨ (readSign input).1 = ['-'] := by
  rcases input with - | ⟨c, rest⟩
  · exact .inl rfl
  rw [readSign_cons]
  split
  · rename_i hc
    rcases hc with rfl | rfl
    · exact .inr (.inl rfl)
    · exact .inr (.inr rfl)
  · exact .inl rfl

theorem readExponent_eq_some {input text rest : List Char}
    (h : readExponent input = some (text, rest)) :
    (text = [] ∨ ∃ e sign ds, (e = 'e' ∨ e = 'E') ∧
      (sign = [] ∨ sign = ['+'] ∨ sign = ['-']) ∧ Digits ds ∧ text = e :: (sign ++ ds)) ∧
      input = text ++ rest := by
  rcases input with - | ⟨c, tail⟩
  · obtain ⟨rfl, rfl⟩ := Prod.mk.inj (Option.some.inj h)
    exact ⟨.inl rfl, rfl⟩
  rw [readExponent_cons] at h
  split at h
  · rename_i hc
    obtain ⟨⟨ds, rest'⟩, hr, heq⟩ := Option.map_eq_some_iff.mp h
    obtain ⟨rfl, rfl⟩ := Prod.mk.inj heq
    obtain ⟨hdigits, hinput⟩ := readDigits_eq_some hr
    refine ⟨.inr ⟨c, _, ds, hc, readSign_cases tail, hdigits, rfl⟩, ?_⟩
    rw [List.cons_append, List.append_assoc, ← hinput, ← readSign_append]
  · obtain ⟨rfl, rfl⟩ := Prod.mk.inj (Option.some.inj h)
    exact ⟨.inl rfl, rfl⟩

theorem readMinus_cases (input : List Char) :
    (readMinus input).1 = [] ∨ (readMinus input).1 = ['-'] := by
  rcases input with - | ⟨c, rest⟩
  · exact .inl rfl
  rw [readMinus_cons]
  split
  · rename_i hc
    rw [hc]
    exact .inr rfl
  · exact .inl rfl

theorem readNumberText_eq_some {t : NumberText} {input rest : List Char}
    (h : readNumberText input = some (t, rest)) : t.WellFormed ∧ input = t.text ++ rest := by
  obtain ⟨⟨int, rest₁⟩, hint, h⟩ := Option.bind_eq_some_iff.mp h
  obtain ⟨⟨frac, rest₂⟩, hfrac, h⟩ := Option.bind_eq_some_iff.mp h
  obtain ⟨⟨exp, rest₃⟩, hexp, h⟩ := Option.bind_eq_some_iff.mp h
  obtain ⟨rfl, rfl⟩ := Prod.mk.inj (Option.some.inj h)
  obtain ⟨hint', hinput⟩ := readInteger_eq_some hint
  obtain ⟨hfrac', rfl⟩ := readFraction_eq_some hfrac
  obtain ⟨hexp', rfl⟩ := readExponent_eq_some hexp
  refine ⟨⟨readMinus_cases input, hint', hfrac', hexp'⟩, ?_⟩
  simp only [NumberText.text, List.append_assoc]
  rw [← hinput, ← readMinus_append]

theorem meets_number (input : List Char) {D : Dialect} {Q : Prop} :
    Meets (fun r => Reads conv D (.value r.1) input r.2) Q (readNumber conv input) := by
  refine (meets_ofOption (Q := False)).bind ?_ False.elim
  rintro ⟨t, rest⟩ ht
  obtain ⟨hform, rfl⟩ := readNumberText_eq_some ht
  exact (meets_ofOption (Q := False)).bind (fun v hv => .ok (.number hform hv)) False.elim

/-! ## Values -/

theorem readWord_eq_some {word : String} {v v' : JsonValue} {input rest : List Char}
    (h : readWord word v input = some (v', rest)) : v' = v ∧ input = word.toList ++ rest := by
  unfold readWord at h
  split at h
  · rename_i hin
    obtain ⟨rest', rfl⟩ := List.isPrefixOf_iff_prefix.mp hin
    rw [← String.length_toList, List.drop_left] at h
    obtain ⟨rfl, rfl⟩ := Prod.mk.inj (Option.some.inj h)
    exact ⟨rfl, rfl⟩
  · cases h

theorem meets_null (input : List Char) {D : Dialect} {Q : Prop} :
    Meets (fun r => Reads conv D (.value r.1) input r.2) Q (readNull input) := by
  refine meets_ofOption.mono ?_ id
  rintro ⟨v, rest⟩ h
  obtain ⟨rfl, rfl⟩ := readWord_eq_some h
  exact .null

theorem meets_bool (input : List Char) {D : Dialect} {Q : Prop} :
    Meets (fun r => Reads conv D (.value r.1) input r.2) Q (readBool input) := by
  refine meets_ofOption.mono ?_ id
  rintro ⟨v, rest⟩ h
  rcases Option.or_eq_some_iff.mp h with h | ⟨-, h⟩
  · obtain ⟨rfl, rfl⟩ := readWord_eq_some h
    exact .true
  · obtain ⟨rfl, rfl⟩ := readWord_eq_some h
    exact .false

theorem skipSpace_split (input : List Char) : ∃ sp, Space sp ∧ input = sp ++ skipSpace input :=
  ⟨input.takeWhile isSpace, fun _ hc => List.mem_takeWhile_imp hc,
    (List.takeWhile_append_dropWhile ..).symm⟩

theorem Body.length_lt {D : Dialect} {cs input rest : List Char} (h : Body D cs input rest) :
    rest.length < input.length := by
  induction h with
  | close => exact Nat.lt_succ_self _
  | item hitem _ ih => exact ih.trans hitem.length_lt

theorem NumberText.WellFormed.text_ne_nil {t : NumberText} (h : t.WellFormed) : t.text ≠ [] := by
  intro htext
  obtain ⟨-, hrest⟩ := List.append_eq_nil_iff.mp htext
  obtain ⟨hint, -⟩ := List.append_eq_nil_iff.mp hrest
  rcases h.int with hzero | ⟨hdigits, -⟩
  · rw [hint] at hzero
    cases hzero
  · exact hdigits.1 hint

/-- A phrase takes some text. -/
theorem Reads.length_lt {D : Dialect} {p : Phrase} {input rest : List Char}
    (h : Reads conv D p input rest) : rest.length < input.length := by
  induction h with
  | number hform =>
    have hpos := List.length_pos_iff.mpr hform.text_ne_nil
    rw [List.length_append]
    omega
  | string hbody =>
    have hlen := hbody.length_lt
    rw [List.length_cons]
    omega
  | lastMember _ _ _ _ hkey _ ih =>
    have hlen := hkey.length_lt
    simp only [List.length_append, List.length_cons] at hlen ih ⊢
    omega
  | moreMembers _ _ _ _ hkey _ _ ih ih' =>
    have hlen := hkey.length_lt
    simp only [List.length_append, List.length_cons] at hlen ih ih' ⊢
    omega
  | null | true | false =>
    rw [List.length_append, String.length_toList]
    exact Nat.lt_add_of_pos_left (by decide)
  | _ =>
    simp only [List.length_append, List.length_cons] at *
    omega

theorem Space.append {sp sp' : List Char} (h : Space sp) (h' : Space sp') : Space (sp ++ sp') :=
  fun c hc => (List.mem_append.mp hc).elim (h c) (h' c)

/-- White space before the items of a collection. -/
theorem Reads.spaced {D : Dialect} {p : Phrase} {sp input rest : List Char}
    (h : Reads conv D p input rest) (hp : ∀ v, p ≠ .value v) (hsp : Space sp) :
    Reads conv D p (sp ++ input) rest := by
  rcases h
  case lastElement hsp' hsp₁ h =>
    rw [← List.append_assoc]
    exact .lastElement (hsp.append hsp') hsp₁ h
  case moreElements hsp' hsp₁ h hmore =>
    rw [← List.append_assoc]
    exact .moreElements (hsp.append hsp') hsp₁ h hmore
  case lastMember hsp' hsp₁ hsp₂ hsp₃ hkey h =>
    rw [← List.append_assoc]
    exact .lastMember (hsp.append hsp') hsp₁ hsp₂ hsp₃ hkey h
  case moreMembers hsp' hsp₁ hsp₂ hsp₃ hkey h hmore =>
    rw [← List.append_assoc]
    exact .moreMembers (hsp.append hsp') hsp₁ hsp₂ hsp₃ hkey h hmore
  all_goals exact absurd rfl (hp _)

theorem Stuck.spaced {place : Place} {sp input : List Char} (h : Stuck conv checks place input)
    (hplace : place ≠ .value) (hsp : Space sp) : Stuck conv checks place (sp ++ input) := by
  rcases h
  case element hsp' h =>
    rw [← List.append_assoc]
    exact .element (hsp.append hsp') h
  case laterElement hsp' hsp₁ h hmore =>
    rw [← List.append_assoc]
    exact .laterElement (hsp.append hsp') hsp₁ h hmore
  case noKey hsp' =>
    exact .noKey (hsp.append hsp')
  case key hsp' hchecks h =>
    rw [← List.append_assoc]
    exact .key (hsp.append hsp') hchecks h
  case member hsp' hsp₁ hsp₂ hkey h =>
    rw [← List.append_assoc]
    exact .member (hsp.append hsp') hsp₁ hsp₂ hkey h
  case laterMember hsp' hsp₁ hsp₂ hsp₃ hkey h hmore =>
    rw [← List.append_assoc]
    exact .laterMember (hsp.append hsp') hsp₁ hsp₂ hsp₃ hkey h hmore
  all_goals exact absurd rfl hplace

/-- White space, and then a value or a place of a panic in it. -/
def MeetsValue (conv : FloatText) (checks : Bool) (input : List Char)
    (x : Outcome (JsonValue × List Char)) : Prop :=
  Meets (fun r => ∃ sp text, Space sp ∧ input = sp ++ text ∧
      Reads conv (.code checks) (.value r.1) text r.2)
    (∃ sp text, Space sp ∧ input = sp ++ text ∧ Stuck conv checks .value text) x

theorem Meets.next {P : JsonValue × List Char → Prop} {Q : Prop} {close : Char} {done : JsonValue}
    {more : List Char → Outcome (JsonValue × List Char)} {input : List Char}
    (hclose : ∀ rest, input = close :: rest → P (done, rest))
    (hmore : ∀ rest, input = ',' :: rest → Meets P Q (more rest)) :
    Meets P Q (readNext close done more input) := by
  rcases input with - | ⟨c, rest⟩
  · exact .fail
  rw [readNext]
  split
  · rename_i hc
    exact .ok (hclose rest (by rw [hc]))
  split
  · rename_i hc
    exact hmore rest (by rw [hc])
  · exact .fail

section Loops

variable {read : List Char → Outcome (JsonValue × List Char)} {m n : ℕ}

theorem meets_arrayLoop
    (hread : ∀ input : List Char, input.length < m → MeetsValue conv checks input (read input)) :
    ∀ (fuel : ℕ) (input : List Char) (arr : List JsonValue), input.length < fuel →
      input.length < m →
      Meets (fun r => ∃ vs, r.1 = .array (arr ++ vs) ∧
          Reads conv (.code checks) (.elements vs) input r.2)
        (Stuck conv checks .elements input) (readArrayLoop read fuel input arr)
  | 0, _, _, hlt, _ => absurd hlt (Nat.not_lt_zero _)
  | fuel + 1, input, arr, hlt, hm => by
    unfold readArrayLoop
    refine (hread input hm).bind ?_ ?_
    swap
    · rintro ⟨sp, text, hsp, rfl, hstuck⟩
      exact .element hsp hstuck
    rintro ⟨v, rest⟩ ⟨sp, text, hsp, rfl, hv⟩
    obtain ⟨sp', hsp', hsplit⟩ := skipSpace_split rest
    have hlen := hv.length_lt
    rw [List.length_append] at hlt hm
    refine Meets.next (fun rest' hclose => ?_) fun mid hcomma => ?_
    · rw [hsplit, hclose] at hv
      exact ⟨[v], rfl, .lastElement hsp hsp' hv⟩
    · rw [hsplit, hcomma] at hv
      rw [hsplit, hcomma, List.length_append, List.length_cons] at hlen
      refine (meets_arrayLoop hread fuel mid (arr ++ [v]) (by omega) (by omega)).mono ?_
        fun hstuck => .laterElement hsp hsp' hv hstuck
      rintro r ⟨vs, hr, hvs⟩
      rw [List.append_assoc] at hr
      exact ⟨v :: vs, hr, .moreElements hsp hsp' hv hvs⟩

theorem meets_objectLoop
    (hread : ∀ input : List Char, input.length < m → MeetsValue conv checks input (read input)) :
    ∀ (fuel : ℕ) (input : List Char) (map : List (String × JsonValue)), input.length < fuel →
      input.length < m → input.length < n →
      Meets (fun r => ∃ kvs, r.1 = .object (insertMembers map kvs) ∧
          Reads conv (.code checks) (.members kvs) input r.2)
        (Stuck conv checks .members input) (readObjectLoop checks read n fuel input map)
  | 0, _, _, hlt, _, _ => absurd hlt (Nat.not_lt_zero _)
  | fuel + 1, input, map, hlt, hm, hn => by
    obtain ⟨sp, hsp, hinput⟩ := skipSpace_split input
    have hskip : (skipSpace input).length < n := by
      have hlen := congrArg List.length hinput
      rw [List.length_append] at hlen
      omega
    unfold readObjectLoop
    refine (meets_string (skipSpace input) hskip).bind ?_ ?_
    swap
    · rintro (hnil | ⟨hchecks, text, htext, hunder⟩)
      · rw [hinput, hnil, List.append_nil]
        exact .noKey hsp
      · rw [hinput, htext]
        exact .key hsp hchecks hunder
    rintro ⟨key, rest⟩ ⟨k, text, rfl, htext, hkey⟩
    rw [htext] at hinput
    dsimp only
    split
    · exact .fail
    rename_i hcolon
    obtain ⟨after, hafter⟩ := List.head?_eq_some_iff.mp (not_not.mp hcolon)
    obtain ⟨sp₁, hsp₁, hsplit⟩ := skipSpace_split rest
    rw [hafter] at hsplit ⊢
    rw [hsplit] at hkey
    have hkeylen := hkey.length_lt
    rw [hinput] at hlt hm hn
    simp only [List.length_append, List.length_cons] at hkeylen hlt hm hn
    refine (hread after (by omega)).bind ?_ ?_
    swap
    · rintro ⟨sp₂, input', hsp₂, rfl, hstuck⟩
      rw [hinput]
      exact .member hsp hsp₁ hsp₂ hkey hstuck
    rintro ⟨v, rest⟩ ⟨sp₂, input', hsp₂, hafter', hv⟩
    dsimp only at hafter' hv ⊢
    rw [hafter'] at hkey hkeylen
    obtain ⟨sp₃, hsp₃, hsplit⟩ := skipSpace_split rest
    have hlen := hv.length_lt
    refine Meets.next (fun rest' hclose => ?_) fun mid hcomma => ?_
    · rw [hsplit, hclose] at hv
      rw [hinput]
      exact ⟨[_], rfl, .lastMember hsp hsp₁ hsp₂ hsp₃ hkey hv⟩
    · rw [hsplit, hcomma] at hv
      rw [hsplit, hcomma, List.length_append, List.length_cons] at hlen
      rw [List.length_append] at hkeylen
      rw [hinput]
      refine (meets_objectLoop hread fuel mid (insertMember map (String.ofList k) v) (by omega)
        (by omega) (by omega)).mono ?_ fun hstuck => .laterMember hsp hsp₁ hsp₂ hsp₃ hkey hv hstuck
      rintro r ⟨kvs, hr, hkvs⟩
      exact ⟨(String.ofList k, v) :: kvs, hr, .moreMembers hsp hsp₁ hsp₂ hsp₃ hkey hv hkvs⟩

theorem meets_array
    (hread : ∀ input : List Char, input.length < m → MeetsValue conv checks input (read input))
    (input : List Char) (hm : input.length < m) (hn : input.length < n) :
    Meets (fun r => Reads conv (.code checks) (.value r.1) ('[' :: input) r.2)
      (Stuck conv checks .value ('[' :: input)) (readArray read n input) := by
  obtain ⟨sp, hsp, hinput⟩ := skipSpace_split input
  have hlen := congrArg List.length hinput
  rw [List.length_append] at hlen
  unfold readArray
  split
  · rename_i hclose
    obtain ⟨rest, hrest⟩ := List.head?_eq_some_iff.mp hclose
    rw [hrest] at hinput ⊢
    rw [hinput]
    exact .ok (.emptyArray hsp)
  · refine (meets_arrayLoop hread n (skipSpace input) [] (by omega) (by omega)).mono ?_ ?_
    · rintro ⟨v, rest⟩ ⟨vs, rfl, hvs⟩
      rw [hinput]
      exact .array (hvs.spaced nofun hsp)
    · intro hstuck
      rw [hinput]
      exact .array (hstuck.spaced nofun hsp)

theorem meets_object
    (hread : ∀ input : List Char, input.length < m → MeetsValue conv checks input (read input))
    (input : List Char) (hm : input.length < m) (hn : input.length < n) :
    Meets (fun r => Reads conv (.code checks) (.value r.1) ('{' :: input) r.2)
      (Stuck conv checks .value ('{' :: input)) (readObject checks read n input) := by
  obtain ⟨sp, hsp, hinput⟩ := skipSpace_split input
  have hlen := congrArg List.length hinput
  rw [List.length_append] at hlen
  unfold readObject
  split
  · rename_i hclose
    obtain ⟨rest, hrest⟩ := List.head?_eq_some_iff.mp hclose
    rw [hrest] at hinput ⊢
    rw [hinput]
    exact .ok (.emptyObject hsp)
  · refine (meets_objectLoop hread n (skipSpace input) [] (by omega) (by omega)
      (by omega)).mono ?_ ?_
    · rintro ⟨v, rest⟩ ⟨kvs, rfl, hkvs⟩
      rw [hinput]
      exact .object (hkvs.spaced nofun hsp)
    · intro hstuck
      rw [hinput]
      exact .object (hstuck.spaced nofun hsp)

end Loops

/-- The reader, at the first character that is no white space. -/
theorem readValue_of_skipSpace {n fuel : ℕ} {input rest : List Char} {c : Char}
    (h : skipSpace input = c :: rest) : readValue conv checks n (fuel + 1) input =
      if c = '"' then readStringLoop checks n rest "" >>= fun r => pure (.string r.1, r.2)
      else if c = '{' then readObject checks (readValue conv checks n fuel) n rest
      else if c = '[' then readArray (readValue conv checks n fuel) n rest
      else if c = 't' ∨ c = 'f' then readBool (c :: rest)
      else if c = 'n' then readNull (c :: rest)
      else if c = '-' ∨ c.isDigit then readNumber conv (c :: rest)
      else .fail := by
  rw [readValue, h]

/-- With fuel for every character the reader comes to an outcome, and to the right one. -/
theorem meets_value {n : ℕ} : ∀ (fuel : ℕ) (input : List Char), input.length < fuel →
    input.length ≤ n → MeetsValue conv checks input (readValue conv checks n fuel input)
  | 0, _, hlt, _ => absurd hlt (Nat.not_lt_zero _)
  | fuel + 1, input, hlt, hn => by
    obtain ⟨sp, hsp, hinput⟩ := skipSpace_split input
    rcases hskip : skipSpace input with - | ⟨c, rest⟩
    · rw [readValue, hskip]
      exact .fail
    rw [hskip] at hinput
    -- It is enough that the dispatch reads a value from the first character on.
    suffices hvalue : Meets (fun r => Reads conv (.code checks) (.value r.1) (c :: rest) r.2)
        (Stuck conv checks .value (c :: rest)) (readValue conv checks n (fuel + 1) input) from
      hvalue.mono (fun r hr => ⟨sp, c :: rest, hsp, hinput, hr⟩)
        fun hstuck => ⟨sp, c :: rest, hsp, hinput, hstuck⟩
    have hlen := congrArg List.length hinput
    rw [List.length_append, List.length_cons] at hlen
    have hread : ∀ text : List Char, text.length < rest.length + 1 →
        MeetsValue conv checks text (readValue conv checks n fuel text) := fun text htext =>
      meets_value fuel text (by omega) (by omega)
    rw [readValue_of_skipSpace hskip]
    split
    · rename_i hc
      subst hc
      refine (meets_stringLoop n rest "" (by omega)).bind ?_ fun h => .string h.1 h.2
      rintro ⟨s, rest'⟩ ⟨cs, rfl, hbody⟩
      exact .ok (.string hbody)
    split
    · rename_i hc
      subst hc
      exact meets_object hread rest (by omega) (by omega)
    split
    · rename_i hc
      subst hc
      exact meets_array hread rest (by omega) (by omega)
    split
    · exact meets_bool _
    split
    · exact meets_null _
    split
    · exact meets_number _
    · exact .fail

end Json

end Rust

end DataShare
