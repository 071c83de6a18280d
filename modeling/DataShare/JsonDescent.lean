import DataShare.JsonReader

/-!
# The JSON parser on characters

At an index where the characters left are `input` (`At`) the parser comes to the outcome the reader
comes to on `input`, and stops at an index where the reader's rest is left (`Sim`), production by
production (`sim_value`). So `JsonValue::parse` reads the document of the trimmed text
(`parse_eq_readDocument`).
-/

namespace DataShare

namespace Rust

namespace Json

/-! ## The parser and the reader -/

/-- The same outcome, and after a value the same place in the text. -/
inductive Sim {α : Type} (bytes : List UInt8) : Outcome (α × ℕ) → Outcome (α × List Char) → Prop
  | ok {a : α} {p : ℕ} {rest : List Char} (h : At bytes p rest) : Sim bytes (.ok (a, p)) (.ok (a, rest))
  | fail : Sim bytes .fail .fail
  | panic : Sim bytes .panic .panic
  | outOfFuel : Sim bytes .outOfFuel .outOfFuel

section Sim

variable {α β : Type} {conv : FloatText} {checks : Bool} {bytes : List UInt8} {pos : ℕ}
  {input : List Char}

theorem Sim.bind {x : Outcome (α × ℕ)} {y : Outcome (α × List Char)}
    {f : α × ℕ → Outcome (β × ℕ)} {g : α × List Char → Outcome (β × List Char)}
    (h : Sim bytes x y)
    (hfg : ∀ a p rest, At bytes p rest → Sim bytes (f (a, p)) (g (a, rest))) :
    Sim bytes (x >>= f) (y >>= g) := by
  rcases h with hat | - | - | -
  · exact hfg _ _ _ hat
  · exact .fail
  · exact .panic
  · exact .outOfFuel

theorem Sim.bind_eq {x : Outcome (α × ℕ)} {y : Outcome (α × List Char)}
    {f : α × ℕ → Outcome β} {g : α × List Char → Outcome β} (h : Sim bytes x y)
    (hfg : ∀ a p rest, At bytes p rest → f (a, p) = g (a, rest)) : (x >>= f) = (y >>= g) := by
  rcases h with hat | - | - | -
  · exact hfg _ _ _ hat
  · rfl
  · rfl
  · rfl

/-- A step that does not move. -/
theorem Sim.bind_same {x : Outcome α} {f : α → Outcome (β × ℕ)}
    {g : α → Outcome (β × List Char)} (hfg : ∀ a, Sim bytes (f a) (g a)) :
    Sim bytes (x >>= f) (x >>= g) := by
  rcases x with a | - | - | -
  · exact hfg a
  · exact .fail
  · exact .panic
  · exact .outOfFuel

theorem At.skipSpace (h : At bytes pos input) :
    At bytes (skipWhitespace bytes pos) (skipSpace input) :=
  h.dropWhile (fun _ _ hlead => hlead.isSpaceByte) fun _ hc => lt_of_isSpace hc

/-! ### Escapes -/

theorem lt_of_hexDigit {c : Char} (h : (hexDigit c).isSome) : c.toNat < 128 := by
  unfold hexDigit at h
  split at h
  · exact lt_of_isDigit ‹_›
  split at h
  · rename_i hc
    have hle : c.toNat ≤ 'f'.toNat := hc.2
    exact hle.trans_lt (by decide)
  split at h
  · rename_i hc
    have hle : c.toNat ≤ 'F'.toNat := hc.2
    exact hle.trans_lt (by decide)
  · cases h

theorem isSome_of_foldlM : ∀ {digits : List Char} {n m : ℕ},
    digits.foldlM (fun n c => (hexDigit c).map fun d => 16 * n + d) n = some m →
      ∀ c ∈ digits, (hexDigit c).isSome
  | [], _, _, _ => fun c hc => absurd hc List.not_mem_nil
  | c :: digits, n, m, h => by
    rw [List.foldlM_cons] at h
    obtain ⟨n', hn', hrest⟩ := Option.bind_eq_some_iff.mp h
    obtain ⟨d, hd, -⟩ := Option.map_eq_some_iff.mp hn'
    intro c' hc'
    rcases List.mem_cons.mp hc' with rfl | hc'
    · rw [hd]
      rfl
    · exact isSome_of_foldlM hrest c' hc'

/-- The digits may be read after a plus sign. -/
theorem radix_eq_some {cs : List Char} {n : ℕ} (h : u16FromStrRadix16 cs = some n) :
    ∃ digits, (cs = digits ∨ cs = '+' :: digits) ∧ hexValue digits = some n := by
  unfold u16FromStrRadix16 at h
  dsimp only at h
  by_cases hplus : cs.head? = some '+'
  · rw [if_pos hplus] at h
    split at h
    · cases h
    obtain ⟨digits, rfl⟩ := List.head?_eq_some_iff.mp hplus
    exact ⟨digits, .inr rfl, (Option.filter_eq_some_iff.mp h).1⟩
  · rw [if_neg hplus] at h
    split at h
    · cases h
    exact ⟨cs, .inl rfl, (Option.filter_eq_some_iff.mp h).1⟩

theorem lt_of_radix {cs : List Char} {n : ℕ} (h : u16FromStrRadix16 cs = some n) :
    ∀ c ∈ cs, c.toNat < 128 := by
  obtain ⟨digits, hcs, hvalue⟩ := radix_eq_some h
  have hdigits : ∀ c ∈ digits, c.toNat < 128 := fun c hc =>
    lt_of_hexDigit (isSome_of_foldlM hvalue c hc)
  rcases hcs with rfl | rfl
  · exact hdigits
  · intro c hc
    rcases List.mem_cons.mp hc with rfl | hc
    · decide
    · exact hdigits c hc

/-- ASCII bytes at the front are characters at the front. -/
theorem prefix_of_encode : ∀ {cs input : List Char} {bs : List UInt8},
    (∀ c ∈ cs, c.toNat < 128) → encode input = encode cs ++ bs →
      ∃ rest, input = cs ++ rest ∧ encode rest = bs
  | [], input, _, _, h => ⟨input, rfl, h⟩
  | c :: cs, input, bs, hcs, h => by
    have hc := hcs c List.mem_cons_self
    rw [encode_cons, utf8EncodeChar_of_lt hc] at h
    rcases input with - | ⟨c', rest⟩
    · cases h
    obtain ⟨b, bs', hb, hlead⟩ := exists_utf8EncodeChar c'
    rw [encode_cons, hb] at h
    obtain rfl : c' = c := (hlead.eq_ascii_iff hc).mp (List.cons.inj h).1
    rw [utf8EncodeChar_of_lt hc] at hb
    obtain rfl := (List.cons.inj hb).2
    obtain ⟨rest', rfl, hrest⟩ :=
      prefix_of_encode (fun c'' h'' => hcs c'' (List.mem_cons_of_mem _ h'')) (List.cons.inj h).2
    exact ⟨rest', rfl, hrest⟩

theorem readHex_cons {a b c d : Char} {rest : List Char} : readHex (a :: b :: c :: d :: rest) =
    (u16FromStrRadix16 [a, b, c, d]).elim .fail fun n => .ok (n, rest) := by
  rcases h : u16FromStrRadix16 [a, b, c, d] with - | n <;>
    simp only [readHex, h] <;> rfl

theorem readHex_cases (input : List Char) : readHex input = .fail ∨ ∃ cs n rest,
    cs.length = 4 ∧ input = cs ++ rest ∧ u16FromStrRadix16 cs = some n ∧
      readHex input = .ok (n, rest) := by
  rcases input with - | ⟨a, - | ⟨b, - | ⟨c, - | ⟨d, rest⟩⟩⟩⟩
  · exact .inl rfl
  · exact .inl rfl
  · exact .inl rfl
  · exact .inl rfl
  · rw [readHex_cons]
    rcases h : u16FromStrRadix16 [a, b, c, d] with - | n
    · exact .inl rfl
    · exact .inr ⟨_, n, rest, rfl, rfl, h, rfl⟩

theorem readHex_append {cs rest : List Char} {n : ℕ} (hfour : cs.length = 4)
    (hn : u16FromStrRadix16 cs = some n) : readHex (cs ++ rest) = .ok (n, rest) := by
  obtain ⟨a, b, c, d, rfl⟩ := List.length_eq_four.mp hfour
  exact readHex_cons.trans (by rw [hn]; rfl)

/-- `parse_hex` of four bytes that are there. -/
theorem parseHex_eq (h : At bytes pos input) (hlen : pos + 4 ≤ bytes.length) :
    parseHex bytes pos = ((fromUtf8 ((encode input).take 4)).bind fun s =>
      u16FromStrRadix16 s.toList).elim .fail .ok := by
  unfold parseHex slice
  rw [if_pos ⟨Nat.le_add_right .., hlen⟩, h.drop, Nat.add_sub_cancel_left]
  simp only [Outcome.ok_bind]
  rcases fromUtf8 ((encode input).take 4) with - | s
  · rfl
  · simp only [Outcome.ofOption, Outcome.ok_bind, Option.bind_some]
    rcases u16FromStrRadix16 s.toList with - | n <;> rfl

/-- With four bytes left, the digits are read alike. -/
theorem hex_cases (h : At bytes pos input) (hlen : pos + 4 ≤ bytes.length) :
    (parseHex bytes pos = .fail ∧ readHex input = .fail) ∨ ∃ n rest,
      parseHex bytes pos = .ok n ∧ readHex input = .ok (n, rest) ∧ At bytes (pos + 4) rest := by
  rw [parseHex_eq h hlen]
  rcases readHex_cases input with hfail | ⟨cs, n, rest, hfour, rfl, hn, hok⟩
  · refine .inl ⟨?_, hfail⟩
    rcases hbytes : (fromUtf8 ((encode input).take 4)).bind fun s => u16FromStrRadix16 s.toList
      with - | n
    · rfl
    -- Four bytes that are digits are four characters.
    obtain ⟨s, hs, hn⟩ := Option.bind_eq_some_iff.mp hbytes
    have hascii := lt_of_radix hn
    have htake : encode s.toList = (encode input).take 4 := by
      rw [← utf8Bytes_of_fromUtf8 hs]
      unfold encode
      rw [← utf8Bytes_ofList, String.ofList_toList]
    have hfour : s.toList.length = 4 := by
      have hle := h.length
      rw [← List.length_map ascii, ← encode_ascii hascii, htake, List.length_take]
      omega
    have hbytes : encode input = encode s.toList ++ (encode input).drop 4 :=
      htake ▸ (List.take_append_drop 4 (encode input)).symm
    obtain ⟨rest, hinput, -⟩ := prefix_of_encode hascii hbytes
    rw [hinput, readHex_append hfour hn] at hfail
    cases hfail
  · have hascii := lt_of_radix hn
    have hbytes : (encode cs).length = 4 := by rw [encode_ascii hascii, List.length_map, hfour]
    have htake : (encode (cs ++ rest)).take 4 = encode cs := by
      rw [encode_append, ← hbytes, List.take_left]
    have hrest := h.append cs
    rw [hbytes] at hrest
    refine .inr ⟨n, rest, ?_, hok, hrest⟩
    rw [htake, fromUtf8_encode, Option.bind_some, String.toList_ofList, hn]
    rfl

/-- With fewer bytes there are fewer digits. -/
theorem readHex_of_lt (h : At bytes pos input) (hlen : bytes.length < pos + 4) :
    readHex input = .fail := by
  rcases readHex_cases input with hfail | ⟨cs, n, rest, hfour, rfl, -, -⟩
  · exact hfail
  · have hle := length_encode_ge (cs ++ rest)
    rw [List.length_append, hfour] at hle
    have hbytes := h.length
    omega

theorem At.afterUnicode_eq (h : At bytes pos input) : afterUnicode input =
    if pos + 5 < bytes.length ∧ bytes[pos]? = some (ascii '\\') ∧
      bytes[pos + 1]? = some (ascii 'u') then some input.tail.tail else none := by
  have hlen := h.length
  rcases input with - | ⟨c, rest⟩
  · rw [if_neg fun hin => ?_]
    · rfl
    · rw [h.getElem_nil] at hin
      cases hin.2.1
  have hfirst := h.getElem_eq_iff (a := '\\') (by decide)
  rw [List.head?_cons, Option.some_inj] at hfirst
  by_cases hc : c = '\\'
  swap
  · rw [if_neg fun hin => hc (hfirst.mp hin.2.1)]
    rcases rest with - | ⟨u, rest⟩
    · rfl
    · exact if_neg fun hin => hc hin.1
  subst hc
  have hrest := h.tail_ascii (by decide)
  have hsecond := hrest.getElem_eq_iff (a := 'u') (by decide)
  rcases rest with - | ⟨u, rest⟩
  · rw [if_neg fun hin => ?_]
    · rfl
    · rw [hrest.getElem_nil] at hin
      cases hin.2.2
  rw [List.head?_cons, Option.some_inj] at hsecond
  by_cases hu : u = 'u'
  swap
  · rw [if_neg fun hin => hu (hsecond.mp hin.2.2)]
    exact if_neg fun hin => hu hin.2.1
  subst hu
  have hbytes := (hrest.tail_ascii (by decide)).length
  unfold afterUnicode
  refine if_congr ?_ rfl rfl
  rw [hfirst, hsecond]
  simp only [true_and, and_true]
  omega

theorem sim_unicode (h : At bytes (pos + 1) input) :
    Sim bytes (parseUnicode checks bytes pos) (readUnicode checks input) := by
  unfold parseUnicode
  split
  · rename_i hlen
    unfold readUnicode
    rw [readHex_of_lt h (by omega)]
    exact .fail
  rename_i hlen
  unfold readUnicode
  rcases hex_cases h (by omega) with ⟨hparse, hread⟩ | ⟨cp, rest, hparse, hread, hrest⟩
  · rw [hparse, hread]
    exact .fail
  rw [hparse, hread]
  simp only [Outcome.ok_bind]
  have hrest : At bytes (pos + 5) rest := hrest
  split
  · rw [hrest.afterUnicode_eq]
    by_cases hpair : pos + 5 + 5 < bytes.length ∧ bytes[pos + 5]? = some (ascii '\\') ∧
        bytes[pos + 5 + 1]? = some (ascii 'u')
    · rw [if_pos hpair, if_pos hpair]
      obtain ⟨hlen', hslash, hu⟩ := hpair
      obtain ⟨rest', rfl⟩ := List.head?_eq_some_iff.mp
        ((hrest.getElem_eq_iff (by decide)).mp hslash)
      have hrest' := hrest.tail_ascii (by decide)
      obtain ⟨rest'', rfl⟩ := List.head?_eq_some_iff.mp
        ((hrest'.getElem_eq_iff (by decide)).mp hu)
      have hsecond : At bytes (pos + 7) rest'' := hrest'.tail_ascii (by decide)
      simp only [List.tail_cons]
      rcases hex_cases hsecond (by omega) with ⟨hparse, hread⟩ | ⟨cp2, rest, hparse, hread, hrest⟩
      · rw [hparse, hread]
        exact .fail
      rw [hparse, hread]
      simp only [Outcome.ok_bind]
      exact Sim.bind_same fun codepoint => Sim.bind_same fun c => .ok hrest
    · rw [if_neg hpair, if_neg hpair]
      exact .ok hrest
  · exact Sim.bind_same fun c => .ok hrest

theorem find_eq_lookup {e : Char} {b : UInt8} (h : Leads e b) : ∀ {table : List (Char × Char)},
    (∀ x ∈ table, x.1.toNat < 128) →
      (table.find? fun x => ascii x.1 == b).map Prod.snd = table.lookup e
  | [], _ => rfl
  | x :: table, htable => by
    have hx := h.eq_ascii_iff (htable x List.mem_cons_self)
    by_cases he : e = x.1
    · have hbyte : (ascii x.1 == b) = true := beq_iff_eq.mpr (hx.mpr he).symm
      rw [List.find?_cons, hbyte, List.lookup_cons, beq_iff_eq.mpr he]
      rfl
    · have hbyte : (ascii x.1 == b) = false := beq_false_of_ne fun heq => he (hx.mp heq.symm)
      rw [List.find?_cons, hbyte, List.lookup_cons, beq_false_of_ne he]
      exact find_eq_lookup h fun y hy => htable y (List.mem_cons_of_mem _ hy)

theorem shortEscapes_ascii : ∀ x ∈ shortEscapes, x.1.toNat < 128 := by
  decide

theorem lt_of_shortEscapes {e c : Char} (h : shortEscapes.lookup e = some c) :
    e.toNat < 128 := by
  obtain ⟨before, after, htable, -⟩ := List.lookup_eq_some_iff.mp h
  refine shortEscapes_ascii (e, c) ?_
  rw [htable]
  exact List.mem_append_right _ List.mem_cons_self

theorem sim_escape (h : At bytes pos input) :
    Sim bytes (parseEscape checks bytes pos) (readEscape checks input) := by
  unfold parseEscape
  rcases input with - | ⟨e, rest⟩
  · rw [if_pos (h.ge_iff.mpr rfl)]
    exact .fail
  rw [if_neg fun hge => absurd (h.ge_iff.mp hge) (List.cons_ne_nil _ _)]
  obtain ⟨b, hb, hlead⟩ := h.getElem
  have hu := hlead.eq_ascii_iff (a := 'u') (by decide)
  unfold index readEscape
  rw [hb]
  simp only [Outcome.ok_bind]
  by_cases he : e = 'u'
  · rw [if_pos he, if_pos (hu.mpr he)]
    exact sim_unicode (h.tail_ascii (he ▸ by decide))
  · rw [if_neg he, if_neg (hu.not.mpr he), shortEscape,
      find_eq_lookup hlead shortEscapes_ascii]
    rcases hc : shortEscapes.lookup e with - | c
    · exact .fail
    · exact .ok (h.tail_ascii (lt_of_shortEscapes hc))

/-! ### Strings -/

theorem sim_stringLoop : ∀ (fuel : ℕ) {pos : ℕ} {input : List Char} (s : String),
    At bytes pos input → Sim bytes (parseStringLoop checks bytes fuel pos s)
      (readStringLoop checks fuel input s)
  | 0, _, _, _, _ => .outOfFuel
  | fuel + 1, pos, [], s, h => by
    unfold parseStringLoop
    rw [if_pos (h.ge_iff.mpr rfl)]
    exact .fail
  | fuel + 1, pos, c :: rest, s, h => by
    obtain ⟨b, hb, hlead⟩ := h.getElem
    have hquote := hlead.eq_ascii_iff (a := '"') (by decide)
    have hslash := hlead.eq_ascii_iff (a := '\\') (by decide)
    unfold parseStringLoop readStringLoop index
    rw [if_neg fun hge => absurd (h.ge_iff.mp hge) (List.cons_ne_nil _ _), hb]
    simp only [Outcome.ok_bind]
    by_cases hc : c = '"'
    · rw [if_pos hc, if_pos (hquote.mpr hc)]
      exact .ok (h.tail_ascii (hc ▸ by decide))
    rw [if_neg hc, if_neg (hquote.not.mpr hc)]
    by_cases hc' : c = '\\'
    · rw [if_pos hc', if_pos (hslash.mpr hc')]
      refine (sim_escape (h.tail_ascii (hc' ▸ by decide))).bind fun c' p rest hrest => ?_
      exact sim_stringLoop fuel (s.push c') hrest
    · rw [if_neg hc', if_neg (hslash.not.mpr hc')]
      unfold slice
      rw [if_pos ⟨h.le, le_rfl⟩, List.take_of_length_le (List.length_drop ..).le, h.drop]
      simp only [Outcome.ok_bind]
      rw [fromUtf8_encode, Option.bind_some, String.toList_ofList, List.head?_cons]
      exact sim_stringLoop fuel (s.push c) h.tail

theorem sim_string (h : At bytes pos input) :
    Sim bytes (parseString checks bytes pos) (readString checks bytes.length input) := by
  unfold parseString index
  rcases input with - | ⟨c, rest⟩
  · rw [h.getElem_nil]
    exact .panic
  obtain ⟨b, hb, hlead⟩ := h.getElem
  have hquote := hlead.eq_ascii_iff (a := '"') (by decide)
  rw [hb]
  simp only [Outcome.ok_bind, readString]
  by_cases hc : c = '"'
  · rw [if_pos hc, if_neg (not_not_intro (hquote.mpr hc))]
    exact sim_stringLoop _ "" (h.tail_ascii (hc ▸ by decide))
  · rw [if_neg hc, if_pos (hquote.not.mpr hc)]
    exact .fail

/-! ### Numbers -/

/-- The reader takes a text off the front, and the parser moves over it. -/
def Takes {α : Type} (pos : ℕ) (input : List Char) (f : List Char → ℕ → α) (x : Outcome α)
    (y : Option (List Char × List Char)) : Prop :=
  (x = .fail ∧ y = none) ∨ ∃ text rest, input = text ++ rest ∧
    x = .ok (f text (pos + (encode text).length)) ∧ y = some (text, rest)

theorem Takes.fail {α : Type} {f : List Char → ℕ → α} : Takes pos input f .fail none :=
  .inl ⟨rfl, rfl⟩

theorem Takes.ok {α : Type} {f : List Char → ℕ → α} (text : List Char) {rest : List Char}
    (h : input = text ++ rest) :
    Takes pos input f (.ok (f text (pos + (encode text).length))) (some (text, rest)) :=
  .inr ⟨text, rest, h, rfl, rfl⟩

/-- After a first ASCII character. -/
theorem length_encode_cons {c : Char} (hc : c.toNat < 128) (text : List Char) (pos : ℕ) :
    pos + 1 + (encode text).length = pos + (encode (c :: text)).length := by
  rw [encode_cons, utf8EncodeChar_of_lt hc, List.length_append, List.length_singleton, Nat.add_assoc]

theorem takes_digits (h : At bytes pos input) :
    Takes pos input (fun _ i => i) (parseDigits bytes pos) (readDigits input) := by
  have hrun : skipDigits bytes pos = pos + (encode (input.takeWhile Char.isDigit)).length := by
    unfold skipDigits
    rw [h.drop, takeWhile_encode (fun _ _ hlead => hlead.isAsciiDigit) fun _ hc => lt_of_isDigit hc]
  unfold parseDigits readDigits
  rcases input with - | ⟨c, rest⟩
  · rw [h.getElem_nil]
    exact .fail
  obtain ⟨b, hb, hlead⟩ := h.getElem
  rw [hb, Option.any_some, hlead.isAsciiDigit, List.head?_cons, Option.any_some, hrun]
  by_cases hc : c.isDigit = true
  · rw [if_pos hc, if_pos hc]
    exact .ok _ (List.takeWhile_append_dropWhile ..).symm
  · rw [if_neg hc, if_neg hc]
    exact .fail

theorem takes_integer (h : At bytes pos input) :
    Takes pos input (fun _ i => i) (parseInteger bytes pos) (readInteger input) := by
  unfold parseInteger
  rcases input with - | ⟨c, rest⟩
  · rw [if_pos (h.ge_iff.mpr rfl)]
    exact .fail
  obtain ⟨b, hb, hlead⟩ := h.getElem
  have hzero := hlead.eq_ascii_iff (a := '0') (by decide)
  have hdigits := takes_digits h
  unfold parseDigits at hdigits
  rw [hb, Option.any_some] at hdigits
  unfold readInteger index
  rw [if_neg fun hge => absurd (h.ge_iff.mp hge) (List.cons_ne_nil _ _), hb]
  simp only [Outcome.ok_bind]
  by_cases hc : c = '0'
  · rw [if_pos hc, if_pos (hzero.mpr hc)]
    subst hc
    exact Takes.ok ['0'] rfl
  · rw [if_neg hc, if_neg (hzero.not.mpr hc)]
    exact hdigits

theorem readFraction_cons (c : Char) (rest : List Char) : readFraction (c :: rest) =
    if c = '.' then (readDigits rest).map fun r => (c :: r.1, r.2) else some ([], c :: rest) :=
  rfl

theorem readSign_cons (c : Char) (rest : List Char) : readSign (c :: rest) =
    if c = '+' ∨ c = '-' then ([c], rest) else ([], c :: rest) :=
  rfl

theorem readExponent_cons (c : Char) (rest : List Char) : readExponent (c :: rest) =
    if c = 'e' ∨ c = 'E' then
      (readDigits (readSign rest).2).map fun r => (c :: ((readSign rest).1 ++ r.1), r.2)
    else some ([], c :: rest) :=
  rfl

theorem takes_fraction (h : At bytes pos input) :
    Takes pos input (fun text i => (text != [], i)) (parseFraction bytes pos)
      (readFraction input) := by
  have hpoint := h.getElem_eq_iff (a := '.') (by decide)
  unfold parseFraction
  rcases input with - | ⟨c, rest⟩
  · rw [if_neg (hpoint.not.mpr nofun)]
    exact Takes.ok [] rfl
  rw [List.head?_cons, Option.some_inj] at hpoint
  rw [readFraction_cons]
  by_cases hc : c = '.'
  · rw [if_pos (hpoint.mpr hc), if_pos hc]
    have hascii : c.toNat < 128 := hc ▸ by decide
    rcases takes_digits (h.tail_ascii hascii) with ⟨hparse, hread⟩ | ⟨text, rest, rfl, hparse, hread⟩
    · rw [hparse, hread]
      exact .fail
    · rw [hparse, hread, length_encode_cons hascii]
      exact Takes.ok (c :: text) rfl
  · rw [if_neg (hpoint.not.mpr hc), if_neg hc]
    exact Takes.ok [] rfl

theorem readSign_append (input : List Char) : input = (readSign input).1 ++ (readSign input).2 := by
  rcases input with - | ⟨c, rest⟩
  · rfl
  rw [readSign_cons]
  split <;> rfl

/-- The index after the sign of an exponent. -/
theorem At.readSign (h : At bytes pos input) {p : ℕ}
    (hp : p = if bytes[pos]? = some (ascii '+') ∨ bytes[pos]? = some (ascii '-') then pos + 1
      else pos) :
    At bytes p (readSign input).2 ∧ p = pos + (encode (readSign input).1).length := by
  have hplus := h.getElem_eq_iff (a := '+') (by decide)
  have hminus := h.getElem_eq_iff (a := '-') (by decide)
  rcases input with - | ⟨c, rest⟩
  · rw [if_neg (not_or.mpr ⟨hplus.not.mpr nofun, hminus.not.mpr nofun⟩)] at hp
    rw [hp]
    exact ⟨h, rfl⟩
  rw [List.head?_cons, Option.some_inj] at hplus hminus
  rw [readSign_cons]
  by_cases hc : c = '+' ∨ c = '-'
  · have hascii : c.toNat < 128 := by rcases hc with rfl | rfl <;> decide
    rw [if_pos ((or_congr hplus hminus).mpr hc)] at hp
    rw [if_pos hc, hp]
    exact ⟨h.tail_ascii hascii, length_encode_cons hascii [] pos⟩
  · rw [if_neg ((or_congr hplus hminus).not.mpr hc)] at hp
    rw [if_neg hc, hp]
    exact ⟨h, rfl⟩

theorem takes_exponent (h : At bytes pos input) :
    Takes pos input (fun text i => (text != [], i)) (parseExponent bytes pos)
      (readExponent input) := by
  have hlower := h.getElem_eq_iff (a := 'e') (by decide)
  have hupper := h.getElem_eq_iff (a := 'E') (by decide)
  unfold parseExponent
  rcases input with - | ⟨c, rest⟩
  · rw [if_neg (not_or.mpr ⟨hlower.not.mpr nofun, hupper.not.mpr nofun⟩)]
    exact Takes.ok [] rfl
  rw [List.head?_cons, Option.some_inj] at hlower hupper
  rw [readExponent_cons]
  by_cases hc : c = 'e' ∨ c = 'E'
  · rw [if_pos hc, if_pos ((or_congr hlower hupper).mpr hc)]
    have hascii : c.toNat < 128 := by rcases hc with rfl | rfl <;> decide
    dsimp only
    obtain ⟨hsign, hlen⟩ := (h.tail_ascii hascii).readSign rfl
    rcases takes_digits hsign with ⟨hparse, hread⟩ | ⟨text, rest', hinput, hparse, hread⟩
    · rw [hparse, hread]
      exact .fail
    · rw [hparse, hread, hlen, Nat.add_assoc, ← List.length_append, ← encode_append,
        length_encode_cons hascii]
      refine Takes.ok (c :: ((readSign rest).1 ++ text)) ?_
      rw [List.cons_append, List.append_assoc, ← hinput, ← readSign_append]
  · rw [if_neg hc, if_neg ((or_congr hlower hupper).not.mpr hc)]
    exact Takes.ok [] rfl

theorem slice_encode {text rest : List Char} (h : At bytes pos (text ++ rest)) :
    slice bytes pos (pos + (encode text).length) = .ok (encode text) := by
  unfold slice
  rw [if_pos ⟨Nat.le_add_right .., (h.append text).le⟩, h.drop, encode_append, Nat.add_sub_cancel_left,
    List.take_left]

theorem readMinus_cons (c : Char) (rest : List Char) : readMinus (c :: rest) =
    if c = '-' then ([c], rest) else ([], c :: rest) :=
  rfl

theorem readMinus_append (input : List Char) :
    input = (readMinus input).1 ++ (readMinus input).2 := by
  rcases input with - | ⟨c, rest⟩
  · rfl
  rw [readMinus_cons]
  split <;> rfl

/-- The index after the minus sign of a number. -/
theorem At.readMinus (h : At bytes pos input) :
    (bytes[pos]? == some (ascii '-')) = ((readMinus input).1 != []) ∧
      ∀ p, p = (if bytes[pos]? == some (ascii '-') then pos + 1 else pos) →
        At bytes p (readMinus input).2 ∧ p = pos + (encode (readMinus input).1).length := by
  have hminus := h.getElem_eq_iff (a := '-') (by decide)
  rw [← beq_iff_eq] at hminus
  rcases input with - | ⟨c, rest⟩
  · have hneg := hminus.not.mpr nofun
    rw [Bool.not_eq_true] at hneg
    rw [hneg]
    exact ⟨rfl, fun p hp => hp ▸ ⟨h, rfl⟩⟩
  rw [List.head?_cons, Option.some_inj] at hminus
  rw [readMinus_cons]
  by_cases hc : c = '-'
  · rw [if_pos hc, hminus.mpr hc]
    have hascii : c.toNat < 128 := hc ▸ by decide
    exact ⟨rfl, fun p hp => hp ▸ ⟨h.tail_ascii hascii, length_encode_cons hascii [] pos⟩⟩
  · have hneg := hminus.not.mpr hc
    rw [Bool.not_eq_true] at hneg
    rw [if_neg hc, hneg]
    exact ⟨rfl, fun p hp => hp ▸ ⟨h, rfl⟩⟩

theorem sim_number (h : At bytes pos input) :
    Sim bytes (parseNumber conv bytes pos) (readNumber conv input) := by
  obtain ⟨hnegative, hminus⟩ := h.readMinus
  obtain ⟨hint, hpint⟩ := hminus _ rfl
  unfold parseNumber readNumber readNumberText
  dsimp only
  rcases takes_integer hint with ⟨hparse, hread⟩ | ⟨int, rest, hinput, hparse, hread⟩
  · rw [hparse, hread]
    exact .fail
  rw [hinput] at hint
  rw [hparse, hread]
  simp only [Outcome.ok_bind, Option.bind_eq_bind, Option.bind_some]
  have hfrac := hint.append int
  rcases takes_fraction hfrac with ⟨hparse, hread⟩ | ⟨frac, rest', rfl, hparse, hread⟩
  · rw [hparse, hread]
    exact .fail
  rw [hparse, hread]
  simp only [Outcome.ok_bind, Option.bind_some]
  have hexp := hfrac.append frac
  rcases takes_exponent hexp with ⟨hparse, hread⟩ | ⟨exp, rest'', rfl, hparse, hread⟩
  · rw [hparse, hread]
    exact .fail
  rw [hparse, hread]
  simp only [Outcome.ok_bind, Option.bind_some]
  -- The text of the number is all that was taken.
  have hend : pos + (encode (readMinus input).1).length + (encode int).length +
      (encode frac).length + (encode exp).length =
        pos + (encode (NumberText.text ⟨(readMinus input).1, int, frac, exp⟩)).length := by
    simp only [NumberText.text, encode_append, List.length_append]
    omega
  have htext : input = NumberText.text ⟨(readMinus input).1, int, frac, exp⟩ ++ rest'' := by
    simp only [NumberText.text, List.append_assoc]
    rw [← hinput, ← readMinus_append]
  rw [hpint, hend, slice_encode (htext ▸ h), hnegative]
  simp only [Outcome.ok_bind]
  rw [fromUtf8_encode]
  exact Sim.bind_same fun v => .ok (At.append _ (htext ▸ h))

/-! ### Words -/

theorem readWord_append (word : String) (v : JsonValue) (rest : List Char) :
    readWord word v (word.toList ++ rest) = some (v, rest) := by
  unfold readWord
  rw [if_pos (List.isPrefixOf_iff_prefix.mpr (List.prefix_append ..)), ← String.length_toList,
    List.drop_left]

theorem word_cases {word : String} (hword : ∀ c ∈ word.toList, c.toNat < 128)
    (h : At bytes pos input) (v : JsonValue) :
    (¬ (word.toList.map ascii).isPrefixOf (bytes.drop pos) ∧ readWord word v input = none) ∨
      ∃ rest, (word.toList.map ascii).isPrefixOf (bytes.drop pos) ∧
        readWord word v input = some (v, rest) ∧ At bytes (pos + word.length) rest := by
  rw [h.drop, ← encode_ascii hword]
  by_cases hin : word.toList.isPrefixOf input
  · obtain ⟨rest, rfl⟩ := List.isPrefixOf_iff_prefix.mp hin
    refine .inr ⟨rest, ?_, readWord_append word v rest, ?_⟩
    · rw [encode_append]
      exact List.isPrefixOf_iff_prefix.mpr (List.prefix_append ..)
    · have hrest := h.append word.toList
      rwa [encode_ascii hword, List.length_map, String.length_toList] at hrest
  · refine .inl ⟨fun hbytes => hin ?_, if_neg hin⟩
    obtain ⟨bs, hbs⟩ := List.isPrefixOf_iff_prefix.mp hbytes
    obtain ⟨rest, rfl, -⟩ := prefix_of_encode hword hbs.symm
    exact List.isPrefixOf_iff_prefix.mpr (List.prefix_append ..)

theorem slice_rest (h : At bytes pos input) :
    slice bytes pos bytes.length = .ok (bytes.drop pos) := by
  unfold slice
  rw [if_pos ⟨h.le, le_rfl⟩, List.take_of_length_le (List.length_drop ..).le]

theorem sim_null (h : At bytes pos input) :
    Sim bytes (parseNull bytes pos) (readNull input) := by
  unfold parseNull readNull
  rw [slice_rest h]
  simp only [Outcome.ok_bind]
  have hascii : ∀ c ∈ "null".toList, c.toNat < 128 := by simp
  rcases word_cases hascii h .null with ⟨hneg, hread⟩ | ⟨rest, hpos, hread, hat⟩
  · rw [if_neg hneg, hread]
    exact .fail
  · rw [if_pos hpos, hread]
    exact .ok hat

theorem sim_bool (h : At bytes pos input) :
    Sim bytes (parseBool bytes pos) (readBool input) := by
  unfold parseBool readBool
  rw [slice_rest h]
  simp only [Outcome.ok_bind]
  rcases word_cases (show ∀ c ∈ "true".toList, c.toNat < 128 by simp) h (.bool true) with
    ⟨hneg, hread⟩ | ⟨rest, hpos, hread, hat⟩
  swap
  · rw [if_pos hpos, hread]
    exact .ok hat
  rw [if_neg hneg, hread, Option.none_or]
  rcases word_cases (show ∀ c ∈ "false".toList, c.toNat < 128 by simp) h (.bool false) with
    ⟨hneg, hread⟩ | ⟨rest, hpos, hread, hat⟩
  · rw [if_neg hneg, hread]
    exact .fail
  · rw [if_pos hpos, hread]
    exact .ok hat

/-! ### Values -/

section Values

variable {parse : ℕ → Outcome (JsonValue × ℕ)} {read : List Char → Outcome (JsonValue × List Char)}

theorem sim_next (h : At bytes pos input) {close : Char} (hclose : close.toNat < 128)
    (done : JsonValue) {f : ℕ → Outcome (JsonValue × ℕ)}
    {g : List Char → Outcome (JsonValue × List Char)}
    (hfg : ∀ {p rest}, At bytes p rest → Sim bytes (f p) (g rest)) :
    Sim bytes
      (if pos ≥ bytes.length then .fail
      else do
        let b ← index bytes pos
        if b = ascii close then pure (done, pos + 1)
        else if b = ascii ',' then f (pos + 1)
        else .fail)
      (readNext close done g input) := by
  rcases input with - | ⟨c, rest⟩
  · rw [if_pos (h.ge_iff.mpr rfl)]
    exact .fail
  obtain ⟨b, hb, hlead⟩ := h.getElem
  have hend := hlead.eq_ascii_iff hclose
  have hcomma := hlead.eq_ascii_iff (a := ',') (by decide)
  rw [if_neg fun hge => absurd (h.ge_iff.mp hge) (List.cons_ne_nil _ _)]
  unfold index readNext
  rw [hb]
  simp only [Outcome.ok_bind]
  by_cases hc : c = close
  · rw [if_pos hc, if_pos (hend.mpr hc)]
    exact .ok (h.tail_ascii (hc ▸ hclose))
  rw [if_neg hc, if_neg (hend.not.mpr hc)]
  by_cases hc' : c = ','
  · rw [if_pos hc', if_pos (hcomma.mpr hc')]
    exact hfg (h.tail_ascii (hc' ▸ by decide))
  · rw [if_neg hc', if_neg (hcomma.not.mpr hc')]
    exact .fail

theorem sim_arrayLoop (hvalue : ∀ {p input}, At bytes p input → Sim bytes (parse p) (read input)) :
    ∀ (fuel : ℕ) {pos : ℕ} {input : List Char} (arr : List JsonValue), At bytes pos input →
      Sim bytes (parseArrayLoop bytes parse fuel pos arr) (readArrayLoop read fuel input arr)
  | 0, _, _, _, _ => .outOfFuel
  | fuel + 1, pos, input, arr, h => by
    unfold parseArrayLoop readArrayLoop
    refine (hvalue h).bind fun val next rest hnext => ?_
    exact sim_next hnext.skipSpace (by decide) _ fun hrest => sim_arrayLoop hvalue fuel _ hrest

theorem sim_array (hvalue : ∀ {p input}, At bytes p input → Sim bytes (parse p) (read input))
    (h : At bytes (pos + 1) input) :
    Sim bytes (parseArray bytes parse pos) (readArray read bytes.length input) := by
  have hspace := h.skipSpace
  have hclose := hspace.getElem_eq_iff (a := ']') (by decide)
  unfold parseArray readArray
  dsimp only
  by_cases hc : (skipSpace input).head? = some ']'
  · rw [if_pos hc, if_pos (hclose.mpr hc)]
    obtain ⟨rest, hrest⟩ := List.head?_eq_some_iff.mp hc
    rw [hrest] at hspace ⊢
    exact .ok (hspace.tail_ascii (by decide))
  · rw [if_neg hc, if_neg (hclose.not.mpr hc)]
    exact sim_arrayLoop hvalue _ [] hspace

theorem sim_objectLoop (hvalue : ∀ {p input}, At bytes p input → Sim bytes (parse p) (read input)) :
    ∀ (fuel : ℕ) {pos : ℕ} {input : List Char} (map : List (String × JsonValue)),
      At bytes pos input → Sim bytes (parseObjectLoop checks bytes parse fuel pos map)
        (readObjectLoop checks read bytes.length fuel input map)
  | 0, _, _, _, _ => .outOfFuel
  | fuel + 1, pos, input, map, h => by
    unfold parseObjectLoop readObjectLoop
    refine (sim_string h.skipSpace).bind fun key next rest hnext => ?_
    have hspace := hnext.skipSpace
    have hcolon := hspace.getElem_eq_iff (a := ':') (by decide)
    dsimp only
    by_cases hc : (skipSpace rest).head? = some ':'
    swap
    · rw [if_pos hc, if_pos (hcolon.not.mpr hc)]
      exact .fail
    rw [if_neg (not_not_intro hc), if_neg (not_not_intro (hcolon.mpr hc))]
    obtain ⟨rest', hrest'⟩ := List.head?_eq_some_iff.mp hc
    rw [hrest'] at hspace ⊢
    refine (hvalue (hspace.tail_ascii (by decide))).bind fun val next rest hnext => ?_
    exact sim_next hnext.skipSpace (by decide) _ fun hrest => sim_objectLoop hvalue fuel _ hrest

theorem sim_object (hvalue : ∀ {p input}, At bytes p input → Sim bytes (parse p) (read input))
    (h : At bytes (pos + 1) input) :
    Sim bytes (parseObject checks bytes parse pos) (readObject checks read bytes.length input) := by
  have hspace := h.skipSpace
  have hclose := hspace.getElem_eq_iff (a := '}') (by decide)
  unfold parseObject readObject
  dsimp only
  by_cases hc : (skipSpace input).head? = some '}'
  · rw [if_pos hc, if_pos (hclose.mpr hc)]
    obtain ⟨rest, hrest⟩ := List.head?_eq_some_iff.mp hc
    rw [hrest] at hspace ⊢
    exact .ok (hspace.tail_ascii (by decide))
  · rw [if_neg hc, if_neg (hclose.not.mpr hc)]
    exact sim_objectLoop hvalue _ [] hspace

end Values

/-- One descent in two forms. -/
theorem sim_value : ∀ (fuel : ℕ) {pos : ℕ} {input : List Char}, At bytes pos input →
    Sim bytes (parseValue conv checks bytes fuel pos)
      (readValue conv checks bytes.length fuel input)
  | 0, _, _, _ => .outOfFuel
  | fuel + 1, pos, input, h => by
    have hspace := h.skipSpace
    unfold parseValue readValue
    dsimp only
    rcases hrest : skipSpace input with - | ⟨c, rest⟩
    · rw [hrest] at hspace
      rw [if_pos (hspace.ge_iff.mpr rfl)]
      exact .fail
    rw [hrest] at hspace
    obtain ⟨b, hb, hlead⟩ := hspace.getElem
    have heq : ∀ a : Char, a.toNat < 128 → (b = ascii a ↔ c = a) := fun a => hlead.eq_ascii_iff
    rw [if_neg fun hge => absurd (hspace.ge_iff.mp hge) (List.cons_ne_nil _ _)]
    have hvalue : ∀ {p input}, At bytes p input → Sim bytes (parseValue conv checks bytes fuel p)
        (readValue conv checks bytes.length fuel input) := fun hat => sim_value fuel hat
    have hstring : Sim bytes (parseString checks bytes _) _ := sim_string hspace
    unfold index
    rw [hb]
    simp only [Outcome.ok_bind, heq '"' (by decide), heq '{' (by decide), heq '[' (by decide),
      heq 't' (by decide), heq 'f' (by decide), heq 'n' (by decide), heq '-' (by decide),
      hlead.isAsciiDigit]
    split
    · rename_i hc
      rw [readString, if_pos hc] at hstring
      exact hstring.bind fun s p rest hrest => .ok hrest
    split
    · rename_i hc
      exact sim_object hvalue (hspace.tail_ascii (hc ▸ by decide))
    split
    · rename_i hc
      exact sim_array hvalue (hspace.tail_ascii (hc ▸ by decide))
    split
    · exact sim_bool hspace
    split
    · exact sim_null hspace
    split
    · exact sim_number hspace
    · exact .fail

end Sim

/-! ## Documents -/

/-- The parser reads the trimmed text. -/
theorem parse_eq_readDocument (conv : FloatText) (checks : Bool) (s : String) :
    JsonValue.parse conv checks s = readDocument conv checks (trim s.toList) := by
  unfold JsonValue.parse readDocument
  dsimp only
  split
  · rfl
  have hbytes : utf8Bytes (String.ofList (trim s.toList)) = encode (trim s.toList) :=
    utf8Bytes_ofList _
  rw [hbytes]
  have hstart : At (encode (trim s.toList)) 0 (trim s.toList) := ⟨Nat.zero_le _, rfl⟩
  refine (sim_value _ hstart).bind_eq fun val p rest hrest => ?_
  have hspace := hrest.skipSpace
  exact if_congr ⟨fun h => hspace.ge_iff.mp h.ge, fun h => (h ▸ hspace).eq_length⟩ rfl rfl

end Json

end Rust

end DataShare
