import DataShare.JsonRoundTrip

/-!
# What the JSON parser accepts

`parse_string` lets raw control characters stand for themselves, and a high surrogate with no escape
after it for U+FFFD : that is `Dialect.intended`. A text whose unicode escapes are four hexadecimal
digits, a high surrogate before an escape having a low one in it (`Plain`), is accepted only
as a document of this grammar (`parse_sound`).
-/

namespace DataShare

namespace Rust

namespace Json

/-- RFC 8259, with raw control characters and with U+FFFD for a high surrogate that no `\u`
follows. -/
def Dialect.intended : Dialect where
  raw _ := True
  hex := fourDigits
  pair := surrogates
  lone rest := ¬['\\', 'u'] <+: rest

/-! ## Plain texts -/

/-- Four digits, and after a high surrogate a low one in the next escape, if one follows. -/
def PlainUnit (input : List Char) : Prop :=
  ∃ ds n rest, input = ds ++ rest ∧ Dialect.fourDigits ds n ∧
    (IsHigh n → ∀ rest', rest = '\\' :: 'u' :: rest' →
      ∃ ds' n' rest'', rest' = ds' ++ rest'' ∧ Dialect.fourDigits ds' n' ∧ IsLow n')

/-- Where a scan of a text is. -/
inductive Scan
  | outside
  | literal
  | escape

/-- The unicode escapes of the string literals are plain. -/
def Plain : Scan → List Char → Prop
  | _, [] => True
  | .outside, c :: rest => Plain (if c = '"' then .literal else .outside) rest
  | .literal, c :: rest =>
    Plain (if c = '"' then .outside else if c = '\\' then .escape else .literal) rest
  | .escape, c :: rest => (c = 'u' → PlainUnit rest) ∧ Plain .literal rest

theorem plain_literal_append {text rest : List Char} (h : ∀ c ∈ text, c ≠ '"' ∧ c ≠ '\\')
    (hplain : Plain .literal (text ++ rest)) : Plain .literal rest := by
  induction text with
  | nil => exact hplain
  | cons c text ih =>
    obtain ⟨hquote, hslash⟩ := h c List.mem_cons_self
    rw [List.cons_append, Plain, if_neg hquote, if_neg hslash] at hplain
    exact ih (fun c' hc' => h c' (List.mem_cons_of_mem _ hc')) hplain

theorem plain_outside_append {text rest : List Char} (h : '"' ∉ text) :
    Plain .outside (text ++ rest) ↔ Plain .outside rest := by
  induction text with
  | nil => rfl
  | cons c text ih =>
    rw [List.mem_cons, not_or] at h
    rw [List.cons_append, Plain, if_neg (Ne.symm h.1)]
    exact ih h.2

theorem plain_quote {rest : List Char} : Plain .outside ('"' :: rest) ↔ Plain .literal rest := by
  rw [Plain, if_pos rfl]

theorem plain_unicode {rest : List Char} :
    Plain .literal ('\\' :: 'u' :: rest) ↔ PlainUnit rest ∧ Plain .literal rest := by
  rw [Plain, if_neg (by decide), if_pos rfl, Plain]
  exact and_congr_left' ⟨fun h => h rfl, fun h _ => h⟩

/-! ## Digits -/

theorem hexDigit_not_special {c : Char} (h : (hexDigit c).isSome) :
    c ≠ '+' ∧ c ≠ '"' ∧ c ≠ '\\' := by
  refine ⟨?_, ?_, ?_⟩ <;> rintro rfl <;> cases h

theorem fourDigits_isSome {ds : List Char} {n : ℕ} (h : Dialect.fourDigits ds n) :
    ∀ c ∈ ds, (hexDigit c).isSome :=
  isSome_of_foldlM h.2

theorem fourDigits_not_special {ds : List Char} {n : ℕ} (h : Dialect.fourDigits ds n) :
    ∀ c ∈ ds, c ≠ '"' ∧ c ≠ '\\' := fun c hc =>
  (hexDigit_not_special (fourDigits_isSome h c hc)).2

/-- The plain digits at the front of a unit are the digits that are read. -/
theorem fourDigits_of_plain {checks : Bool} {ds ds' rest rest' : List Char} {n n' : ℕ}
    (h : (Dialect.code checks).hex ds n) (h' : Dialect.fourDigits ds' n')
    (heq : ds ++ rest = ds' ++ rest') : Dialect.fourDigits ds n ∧ n' = n ∧ rest' = rest := by
  obtain ⟨rfl, rfl⟩ := List.append_inj heq (h.1.trans h'.1.symm)
  obtain ⟨digits, hds, hn⟩ := radix_eq_some h.2
  rcases hds with rfl | rfl
  · obtain rfl := Option.some.inj (hn.symm.trans h'.2)
    exact ⟨h', rfl, rfl⟩
  · have hplus := (hexDigit_not_special (fourDigits_isSome h' '+' List.mem_cons_self)).1
    exact absurd rfl hplus

theorem surrogatePair_of_low {checks : Bool} {n n' code : ℕ} (hhigh : IsHigh n) (hlow : IsLow n')
    (h : surrogatePair checks n n' = .ok code) : Dialect.surrogates n n' code := by
  obtain ⟨hn, hn'⟩ := hhigh
  obtain ⟨hl, hl'⟩ := hlow
  unfold surrogatePair at h
  rw [if_neg (by omega)] at h
  refine ⟨⟨hl, hl'⟩, ?_⟩
  rw [← Outcome.ok.inj h, Nat.shiftLeft_eq]
  omega

/-! ## What is read of a plain text -/

section Plain

variable {conv : FloatText} {checks : Bool}

theorem Item.intended {c : Char} {input mid : List Char} (h : Item (.code checks) c input mid)
    (hplain : Plain .literal input) : Item .intended c input mid ∧ Plain .literal mid := by
  rcases h with ⟨hquote, hslash, -⟩ | h | ⟨h, hhigh, hc⟩ | ⟨h, hhigh, h', hcode, hc⟩ |
    ⟨h, hhigh, hrest⟩
  · rw [Plain, if_neg hquote, if_neg hslash] at hplain
    exact ⟨.raw hquote hslash trivial, hplain⟩
  · rw [Plain, if_neg (by decide), if_pos rfl, Plain] at hplain
    exact ⟨.short h, hplain.2⟩
  · obtain ⟨⟨ds', n', rest', heq, hdigits, -⟩, hrest⟩ := plain_unicode.mp hplain
    obtain ⟨hfour, -, -⟩ := fourDigits_of_plain h hdigits heq
    exact ⟨.unicode hfour hhigh hc, plain_literal_append (fourDigits_not_special hfour) hrest⟩
  · obtain ⟨⟨ds₁, n₁, rest₁, heq, hdigits, hpair⟩, hrest⟩ := plain_unicode.mp hplain
    obtain ⟨hfour, rfl, rfl⟩ := fourDigits_of_plain h hdigits heq
    obtain ⟨ds₂, n₂, rest₂, heq₂, hdigits₂, hlow⟩ := hpair hhigh _ rfl
    obtain ⟨hfour', rfl, rfl⟩ := fourDigits_of_plain h' hdigits₂ heq₂
    have hmid := plain_literal_append (fourDigits_not_special hfour) hrest
    refine ⟨.pair hfour hhigh hfour' (surrogatePair_of_low hhigh hlow hcode) hc, ?_⟩
    exact plain_literal_append (fourDigits_not_special hfour') (plain_unicode.mp hmid).2
  · obtain ⟨⟨ds₁, n₁, rest₁, heq, hdigits, hpair⟩, hrest'⟩ := plain_unicode.mp hplain
    obtain ⟨hfour, rfl, rfl⟩ := fourDigits_of_plain h hdigits heq
    refine ⟨.lone hfour hhigh fun hprefix => ?_,
      plain_literal_append (fourDigits_not_special hfour) hrest'⟩
    -- Four plain digits would have been read as a second unit.
    obtain ⟨rest₂, rfl⟩ := hprefix
    obtain ⟨ds₂, n₂, rest₃, rfl, hdigits₂, -⟩ := hpair hhigh _ rfl
    have hsome : afterUnicode ('\\' :: 'u' :: (ds₂ ++ rest₃)) = _ := afterUnicode_digits hdigits₂.1
    exact absurd (hsome.symm.trans hrest) (Option.some_ne_none _)

theorem Body.intended {cs input rest : List Char} (h : Body (.code checks) cs input rest)
    (hplain : Plain .literal input) : Body .intended cs input rest ∧ Plain .outside rest := by
  induction h with
  | close =>
    rw [Plain, if_pos rfl] at hplain
    exact ⟨.close, hplain⟩
  | item hitem _ ih =>
    obtain ⟨hitem', hmid⟩ := hitem.intended hplain
    obtain ⟨hbody, hrest⟩ := ih hmid
    exact ⟨.item hitem' hbody, hrest⟩

theorem Space.no_quote {sp : List Char} (h : Space sp) : '"' ∉ sp := fun hmem => by
  have hspace := h '"' hmem
  cases hspace

theorem Digits.no_quote {ds : List Char} (h : Digits ds) : '"' ∉ ds := fun hmem => by
  have hdigit := h.2 '"' hmem
  cases hdigit

theorem NumberText.WellFormed.no_quote {t : NumberText} (h : t.WellFormed) : '"' ∉ t.text := by
  have hminus : '"' ∉ t.minus := by
    rcases h.minus with hminus | hminus <;> rw [hminus] <;> decide
  have hint : '"' ∉ t.int := by
    rcases h.int with hint | ⟨hdigits, -⟩
    · rw [hint]
      decide
    · exact hdigits.no_quote
  have hfrac : '"' ∉ t.frac := by
    rcases h.frac with hfrac | ⟨ds, hdigits, hfrac⟩
    · rw [hfrac]
      decide
    · rw [hfrac, List.mem_cons, not_or]
      exact ⟨by decide, hdigits.no_quote⟩
  have hexp : '"' ∉ t.exp := by
    rcases h.exp with hexp | ⟨e, sign, ds, he, hsign, hdigits, hexp⟩
    · rw [hexp]
      decide
    · rw [hexp, List.mem_cons, List.mem_append, not_or, not_or]
      refine ⟨?_, ?_, hdigits.no_quote⟩
      · rcases he with rfl | rfl <;> decide
      · rcases hsign with rfl | rfl | rfl <;> decide
  simp only [NumberText.text, List.mem_append, not_or]
  exact ⟨hminus, hint, hfrac, hexp⟩

/-- A character that is no quote. -/
theorem plain_cons {c : Char} {rest : List Char} (h : c ≠ '"') :
    Plain .outside (c :: rest) ↔ Plain .outside rest := by
  rw [Plain, if_neg h]

theorem plain_spaced {sp rest : List Char} (h : Space sp) :
    Plain .outside (sp ++ rest) ↔ Plain .outside rest :=
  plain_outside_append h.no_quote

/-- The key of a member, and what comes before its value. -/
theorem Body.intended_key {k sp sp₁ sp₂ text input : List Char} (hsp : Space sp)
    (hsp₁ : Space sp₁) (hsp₂ : Space sp₂)
    (hkey : Body (.code checks) k text (sp₁ ++ ':' :: (sp₂ ++ input)))
    (hplain : Plain .outside (sp ++ '"' :: text)) :
    Body .intended k text (sp₁ ++ ':' :: (sp₂ ++ input)) ∧ Plain .outside input := by
  rw [plain_spaced hsp, plain_quote] at hplain
  obtain ⟨hkey', hrest⟩ := hkey.intended hplain
  rw [plain_spaced hsp₁, plain_cons (by decide), plain_spaced hsp₂] at hrest
  exact ⟨hkey', hrest⟩

/-- What the parser reads of a plain text is a phrase of the intended grammar. -/
theorem Reads.intended {p : Phrase} {input rest : List Char}
    (h : Reads conv (.code checks) p input rest) (hplain : Plain .outside input) :
    Reads conv .intended p input rest ∧ Plain .outside rest := by
  induction h with
  | null => exact ⟨.null, (plain_outside_append (by simp)).mp hplain⟩
  | true => exact ⟨.true, (plain_outside_append (by simp)).mp hplain⟩
  | false => exact ⟨.false, (plain_outside_append (by simp)).mp hplain⟩
  | number hform hv =>
    exact ⟨.number hform hv, (plain_outside_append hform.no_quote).mp hplain⟩
  | string hbody =>
    obtain ⟨hbody', hrest⟩ := hbody.intended (plain_quote.mp hplain)
    exact ⟨.string hbody', hrest⟩
  | emptyArray hsp =>
    rw [plain_cons (by decide), plain_spaced hsp, plain_cons (by decide)] at hplain
    exact ⟨.emptyArray hsp, hplain⟩
  | array _ ih =>
    obtain ⟨hvs, hrest⟩ := ih ((plain_cons (by decide)).mp hplain)
    exact ⟨.array hvs, hrest⟩
  | emptyObject hsp =>
    rw [plain_cons (by decide), plain_spaced hsp, plain_cons (by decide)] at hplain
    exact ⟨.emptyObject hsp, hplain⟩
  | object _ ih =>
    obtain ⟨hkvs, hrest⟩ := ih ((plain_cons (by decide)).mp hplain)
    exact ⟨.object hkvs, hrest⟩
  | lastElement hsp hsp' _ ih =>
    obtain ⟨hv, hrest⟩ := ih ((plain_spaced hsp).mp hplain)
    rw [plain_spaced hsp', plain_cons (by decide)] at hrest
    exact ⟨.lastElement hsp hsp' hv, hrest⟩
  | moreElements hsp hsp' _ _ ih ih' =>
    obtain ⟨hv, hmid⟩ := ih ((plain_spaced hsp).mp hplain)
    rw [plain_spaced hsp', plain_cons (by decide)] at hmid
    obtain ⟨hvs, hrest⟩ := ih' hmid
    exact ⟨.moreElements hsp hsp' hv hvs, hrest⟩
  | lastMember hsp hsp₁ hsp₂ hsp₃ hkey _ ih =>
    obtain ⟨hkey', hinput⟩ := hkey.intended_key hsp hsp₁ hsp₂ hplain
    obtain ⟨hv, hrest⟩ := ih hinput
    rw [plain_spaced hsp₃, plain_cons (by decide)] at hrest
    exact ⟨.lastMember hsp hsp₁ hsp₂ hsp₃ hkey' hv, hrest⟩
  | moreMembers hsp hsp₁ hsp₂ hsp₃ hkey _ _ ih ih' =>
    obtain ⟨hkey', hinput⟩ := hkey.intended_key hsp hsp₁ hsp₂ hplain
    obtain ⟨hv, hmid⟩ := ih hinput
    rw [plain_spaced hsp₃, plain_cons (by decide)] at hmid
    obtain ⟨hkvs, hrest⟩ := ih' hmid
    exact ⟨.moreMembers hsp hsp₁ hsp₂ hsp₃ hkey' hv hkvs, hrest⟩

end Plain

/-- What is accepted of plain texts are the documents of the intended grammar. -/
theorem parse_sound (conv : FloatText) (checks : Bool) {s : String} {v : JsonValue}
    (h : JsonValue.parse conv checks s = .ok v) (hplain : Plain .outside (trim s.toList)) :
    Document conv .intended (trim s.toList) v := by
  obtain ⟨sp, input, sp', hsp, hsp', htext, hv⟩ := parse_eq_ok_iff.mp h
  rw [htext, plain_spaced hsp] at hplain
  exact ⟨sp, input, sp', hsp, hsp', htext, (hv.intended hplain).1⟩

theorem parse_sound_unicode :
    Document ⟨fun _ => [], fun _ => none⟩ .intended (trim "\"\\u0041\"".toList) (.string "A") := by
  refine parse_sound _ true (by rfl) ?_
  have htrim : trim "\"\\u0041\"".toList = "\"\\u0041\"".toList := by decide
  have hunit : PlainUnit "0041\"".toList :=
    ⟨['0', '0', '4', '1'], 0x41, ['"'], rfl, ⟨rfl, rfl⟩, fun hhigh => absurd hhigh.1 (by decide)⟩
  rw [htrim]
  exact ⟨fun _ => hunit, trivial⟩

/-- A value that begins with a quote is a string. -/
theorem Reads.of_quote {conv : FloatText} {D : Dialect} {v : JsonValue} {text rest : List Char}
    (h : Reads conv D (.value v) ('"' :: text) rest) :
    ∃ cs, v = .string (String.ofList cs) ∧ Body D cs text rest := by
  generalize hinput : '"' :: text = input at h
  rcases h
  case string cs text' hbody =>
    obtain rfl := (List.cons.inj hinput).2
    exact ⟨cs, rfl, hbody⟩
  case number t hv hform =>
    obtain ⟨c, text', htext, hc⟩ := hv.head
    rw [htext] at hinput
    obtain rfl := (List.cons.inj hinput).1
    rcases hc with hc | hc <;> cases hc
  all_goals exact absurd (congrArg List.head? hinput) (by simp)

/-- RFC 8259 has no item for a high surrogate alone. -/
theorem not_body_lone {cs rest : List Char} :
    ¬Body .rfc cs ['\\', 'u', 'd', '8', '0', '0', '"'] rest := by
  intro h
  generalize hinput : ['\\', 'u', 'd', '8', '0', '0', '"'] = input at h
  rcases h with - | ⟨h, -⟩
  · cases hinput
  have hds : ∀ {ds rest : List Char}, '\\' :: 'u' :: (ds ++ rest) = input →
      ['d', '8', '0', '0'] ++ ['"'] = ds ++ rest := fun heq =>
    (List.cons.inj (List.cons.inj (hinput.trans heq.symm)).2).2
  rcases h with ⟨-, hslash, -⟩ | h | ⟨h, hhigh, hc⟩ | ⟨h, hhigh, h', hcode, hc⟩ | ⟨-, -, hrest⟩
  · exact hslash (List.cons.inj hinput).1.symm
  · obtain rfl := (List.cons.inj (List.cons.inj hinput).2).1
    cases h
  · obtain ⟨rfl, -⟩ := List.append_inj (hds rfl) h.1.symm
    obtain rfl := Option.some.inj (h.2.symm.trans (show hexValue _ = some 0xD800 from rfl))
    exact hhigh (by decide)
  · obtain ⟨-, hrest⟩ := List.append_inj (hds rfl) h.1.symm
    cases hrest
  · exact hrest

/-- A high surrogate alone is accepted, for U+FFFD. -/
theorem parse_lone_surrogate :
    JsonValue.parse ⟨fun _ => [], fun _ => none⟩ true "\"\\ud800\"" = .ok (.string "\uFFFD") ∧
      ¬Document ⟨fun _ => [], fun _ => none⟩ .rfc "\"\\ud800\"".toList (.string "\uFFFD") := by
  refine ⟨rfl, ?_⟩
  rintro ⟨sp, input, sp', hsp, -, htext, hv⟩
  have hchars : '"' :: ['\\', 'u', 'd', '8', '0', '0', '"'] = sp ++ input := htext
  rcases sp with - | ⟨c, sp⟩
  · rw [List.nil_append] at hchars
    rw [← hchars] at hv
    obtain ⟨cs, -, hbody⟩ := hv.of_quote
    exact not_body_lone hbody
  · have hspace := hsp c List.mem_cons_self
    rw [← (List.cons.inj hchars).1] at hspace
    cases hspace

end Json

end Rust

end DataShare
