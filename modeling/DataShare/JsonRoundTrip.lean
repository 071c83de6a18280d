import DataShare.JsonTotality

/-!
# The JSON round trip

What `dump` writes of a value without floats, `parse` reads as that value with its non-negative
`Int`s as `Uint`s (`JsonValue.uints`). The writer's text derives the value in the grammar of the
parser (`Exact.reads`), whatever follows it.
-/

namespace DataShare

namespace Rust

/-! ## Values without floats -/

/-- A value without floats, its objects `BTreeMap`s. -/
inductive JsonValue.Exact : JsonValue → Prop
  | null : Exact .null
  | bool (b : Bool) : Exact (.bool b)
  | int (n : Int64) : Exact (.int n)
  | uint (n : UInt64) : Exact (.uint n)
  | string (s : String) : Exact (.string s)
  | array {vs : List JsonValue} (h : ∀ v ∈ vs, Exact v) : Exact (.array vs)
  | object {entries : List (String × JsonValue)} (hsorted : SortedKeys entries)
    (h : ∀ e ∈ entries, Exact e.2) : Exact (.object entries)

namespace JsonValue

mutual

/-- Every non-negative `Int` as the `Uint` it equals. -/
def uints : JsonValue → JsonValue
  | .int n => if 0 ≤ n.toInt then .uint (.ofNat n.toInt.toNat) else .int n
  | .array vs => .array (uintsElements vs)
  | .object entries => .object (uintsMembers entries)
  | v => v

def uintsElements : List JsonValue → List JsonValue
  | [] => []
  | v :: vs => uints v :: uintsElements vs

def uintsMembers : List (String × JsonValue) → List (String × JsonValue)
  | [] => []
  | (k, v) :: kvs => (k, uints v) :: uintsMembers kvs

end

end JsonValue

namespace Json

variable {conv : FloatText} {checks : Bool}

/-! ## Strings -/

theorem charFromU32_toNat (c : Char) : charFromU32 c.toNat = some c := by
  unfold charFromU32
  exact (if_pos c.valid).trans (congrArg some (Char.ofNat_toNat c))

/-- The four digits of a control character. -/
theorem hex4_of_lt : ∀ n < 0x20, (Dialect.code checks).hex (hex4 n) n := by
  have hall : ∀ n < 0x20, (hex4 n).length = 4 ∧ u16FromStrRadix16 (hex4 n) = some n := by
    decide
  exact hall

theorem item_writeJsonChar (c : Char) (rest : List Char) :
    Item (.code checks) c (writeJsonChar c ++ rest) rest := by
  unfold writeJsonChar
  split
  · rename_i hc
    subst hc
    exact .short rfl
  rename_i hquote
  split
  · rename_i hc
    subst hc
    exact .short rfl
  rename_i hslash
  split
  · rename_i hc
    subst hc
    exact .short rfl
  split
  · rename_i hc
    subst hc
    exact .short rfl
  split
  · rename_i hc
    subst hc
    exact .short rfl
  split
  · rename_i hc
    exact .unicode (hex4_of_lt _ hc) (fun hhigh => absurd hhigh.1 (by omega)) (charFromU32_toNat c)
  · exact .raw hquote hslash trivial

theorem body_writeJsonChar (checks : Bool) (rest : List Char) : ∀ cs : List Char,
    Body (.code checks) cs (cs.flatMap writeJsonChar ++ '"' :: rest) rest
  | [] => .close
  | c :: cs => by
    rw [List.flatMap_cons, List.append_assoc]
    exact .item (item_writeJsonChar c _) (body_writeJsonChar checks rest cs)

/-! ## Numbers -/

theorem digits_toDigits (n : ℕ) : Digits (Nat.toDigits 10 n) :=
  ⟨Nat.toDigits_ne_nil, fun _ hd => Nat.isDigit_of_mem_toDigits (by decide) (by decide) hd⟩

/-- No leading zero. -/
theorem head_toDigits (n : ℕ) : 0 < n → (Nat.toDigits 10 n).head? ≠ some '0' := by
  induction n using Nat.strong_induction_on with
  | _ n ih =>
    intro hpos
    rcases Nat.lt_or_ge n 10 with hlt | hge
    · rw [Nat.toDigits_of_lt_base hlt]
      have hall : ∀ n < 10, 0 < n → [n.digitChar].head? ≠ some '0' := by decide
      exact hall n hlt hpos
    · have hdiv : 0 < n / 10 := Nat.div_pos hge (by decide)
      rw [Nat.toDigits_of_base_le (by decide) hge,
        List.head?_append_of_ne_nil _ Nat.toDigits_ne_nil]
      exact ih (n / 10) (Nat.div_lt_self hpos (by decide)) hdiv

theorem wellFormed_toDigits {minus : List Char} (h : minus = [] ∨ minus = ['-']) (n : ℕ) :
    NumberText.WellFormed ⟨minus, Nat.toDigits 10 n, [], []⟩ where
  minus := h
  int := by
    rcases Nat.eq_zero_or_pos n with rfl | hpos
    · exact .inl rfl
    · exact .inr ⟨digits_toDigits n, head_toDigits n hpos⟩
  frac := .inl rfl
  exp := .inl rfl

theorem foldl_toDigits (n : ℕ) :
    (Nat.toDigits 10 n).foldl (fun n c => 10 * n + (c.toNat - '0'.toNat)) 0 = n :=
  Nat.ofDigitChars_ten_toDigits

theorem parseU64_toDigits {n : ℕ} (h : n < 2 ^ 64) :
    parseU64 (String.ofList (Nat.toDigits 10 n)) = some (.ofNat n) := by
  have hdigits := digits_toDigits n
  have hplus : (Nat.toDigits 10 n).head? ≠ some '+' := fun hhead => by
    obtain ⟨ds, hds⟩ := List.head?_eq_some_iff.mp hhead
    have := hdigits.2 '+' (hds ▸ List.mem_cons_self)
    cases this
  unfold parseU64
  dsimp only
  rw [String.toList_ofList, if_neg hplus, if_pos ⟨hdigits.1, List.all_eq_true.mpr hdigits.2⟩,
    foldl_toDigits, if_pos h]

theorem parseI64_of_minus {s : String} {ds : List Char} (h : s.toList = '-' :: ds) :
    parseI64 s =
      if ds ≠ [] ∧ ds.all Char.isDigit then
        let n : ℕ := ds.foldl (fun n c => 10 * n + (c.toNat - '0'.toNat)) 0
        if -2 ^ 63 ≤ (-n : ℤ) ∧ (-n : ℤ) < 2 ^ 63 then some (.ofInt (-n)) else none
      else none := by
  unfold parseI64
  rw [h]
  rfl

theorem parseI64_minus {n : ℕ} (h : n ≤ 2 ^ 63) :
    parseI64 (String.ofList ('-' :: Nat.toDigits 10 n)) = some (.ofInt (-n)) := by
  have hdigits := digits_toDigits n
  rw [parseI64_of_minus (String.toList_ofList ..),
    if_pos ⟨hdigits.1, List.all_eq_true.mpr hdigits.2⟩]
  dsimp only
  rw [foldl_toDigits, if_pos (by omega)]

theorem reads_uint (conv : FloatText) (n : UInt64) (D : Dialect) (rest : List Char) :
    Reads conv D (.value (.uint n)) ((toString n.toNat).toList ++ rest) rest := by
  have htext : (toString n.toNat).toList =
      NumberText.text ⟨[], Nat.toDigits 10 n.toNat, [], []⟩ := by
    simp only [NumberText.text, List.nil_append, List.append_nil]
    exact Nat.toList_repr
  rw [htext]
  refine .number (wellFormed_toDigits (.inl rfl) _) ?_
  have hvalue : parseU64 (String.ofList (Nat.toDigits 10 n.toNat)) = some n := by
    rw [parseU64_toDigits n.toNat_lt, UInt64.ofNat_toNat]
  simp only [NumberText.value, NumberText.text, List.nil_append, List.append_nil]
  unfold numberValue
  exact congrArg (Option.map JsonValue.uint) hvalue

theorem reads_int (conv : FloatText) (n : Int64) (D : Dialect) (rest : List Char) :
    Reads conv D (.value (JsonValue.uints (.int n))) ((toString n.toInt).toList ++ rest) rest := by
  have hlow := Int64.le_toInt n
  have hhigh := Int64.toInt_lt n
  rw [JsonValue.uints]
  rcases hn : n.toInt with m | m
  · have hnonneg : (0 : ℤ) ≤ Int.ofNat m := Int.natCast_nonneg m
    rw [if_pos hnonneg]
    have hm : m < 2 ^ 64 := by
      rw [hn] at hhigh
      simp only [Int.ofNat_eq_natCast] at hhigh
      omega
    have hround : m = (UInt64.ofNat m).toNat := by
      rw [UInt64.toNat_ofNat', Nat.mod_eq_of_lt hm]
    have hreads := reads_uint conv (UInt64.ofNat m) D rest
    rw [← hround] at hreads
    exact hreads
  · rw [if_neg (Int.not_le.mpr (Int.negSucc_lt_zero m))]
    have htext : (toString (Int.negSucc m)).toList =
        NumberText.text ⟨['-'], Nat.toDigits 10 (m + 1), [], []⟩ := by
      simp only [NumberText.text, List.append_nil]
      rw [Int.toString_eq_repr, ← Nat.toList_repr]
      exact String.toList_append
    rw [htext]
    refine .number (wellFormed_toDigits (.inr rfl) _) ?_
    have hvalue : parseI64 (String.ofList ('-' :: Nat.toDigits 10 (m + 1))) = some n := by
      have hm : m + 1 ≤ 2 ^ 63 := by omega
      have heq : -((m + 1 : ℕ) : ℤ) = n.toInt := by rw [hn]; rfl
      rw [parseI64_minus hm, heq, Int64.ofInt_toInt]
    simp only [NumberText.value, NumberText.text, List.append_nil]
    unfold numberValue
    exact congrArg (Option.map JsonValue.int) hvalue

/-! ## Values -/

theorem space_nil : Space [] :=
  fun _ hc => absurd hc List.not_mem_nil

/-- What is written of `v`, whatever follows, is read as `v` with its non-negative `Int`s changed. -/
def ReadsBack (conv : FloatText) (checks : Bool) (v : JsonValue) : Prop :=
  ∀ rest, Reads conv (.code checks) (.value v.uints) (v.writeTo conv ++ rest) rest

theorem reads_writeElements (rest : List Char) : ∀ {v : JsonValue} {vs : List JsonValue},
    ReadsBack conv checks v → (∀ v ∈ vs, ReadsBack conv checks v) →
      Reads conv (.code checks) (.elements (v.uints :: JsonValue.uintsElements vs))
        (v.writeTo conv ++ (JsonValue.writeElements conv vs ++ ']' :: rest)) rest
  | v, [], hv, _ =>
    (Reads.lastElement space_nil space_nil (hv _) : Reads _ _ _ ([] ++ _) rest)
  | v, v' :: vs, hv, hvs => by
    have hmore := reads_writeElements rest (hvs v' List.mem_cons_self) fun w hw =>
      hvs w (List.mem_cons_of_mem _ hw)
    rw [JsonValue.writeElements, List.cons_append, List.append_assoc]
    exact (Reads.moreElements space_nil space_nil (hv _) hmore : Reads _ _ _ ([] ++ _) rest)

theorem writeJsonString_append (k : String) (rest : List Char) : writeJsonString k ++ rest =
    '"' :: (k.toList.flatMap writeJsonChar ++ '"' :: rest) := by
  rw [writeJsonString, List.cons_append, List.append_assoc]
  rfl

theorem reads_writeMembers (rest : List Char) : ∀ (k : String) {v : JsonValue}
    {kvs : List (String × JsonValue)}, ReadsBack conv checks v →
      (∀ e ∈ kvs, ReadsBack conv checks e.2) →
      Reads conv (.code checks) (.members ((k, v.uints) :: JsonValue.uintsMembers kvs))
        (writeJsonString k ++ ':' :: (v.writeTo conv ++
          (JsonValue.writeMembers conv kvs ++ '}' :: rest))) rest
  | k, v, [], hv, _ => by
    have hkey := body_writeJsonChar checks (':' :: (v.writeTo conv ++ '}' :: rest)) k.toList
    have hmember : Reads conv (.code checks) _ ([] ++ _) rest :=
      .lastMember space_nil space_nil space_nil space_nil hkey (hv _)
    rw [String.ofList_toList] at hmember
    rw [writeJsonString_append]
    exact hmember
  | k, v, (k', v') :: kvs, hv, hkvs => by
    have hmore := reads_writeMembers rest k' (hkvs _ List.mem_cons_self) fun e he =>
      hkvs e (List.mem_cons_of_mem _ he)
    rw [JsonValue.writeMembers, List.cons_append, List.append_assoc, List.cons_append,
      List.append_assoc, writeJsonString_append]
    have hkey := body_writeJsonChar checks (':' :: (v.writeTo conv ++ ',' ::
      (writeJsonString k' ++ ':' :: (v'.writeTo conv ++
        (JsonValue.writeMembers conv kvs ++ '}' :: rest))))) k.toList
    have hmember : Reads conv (.code checks) _ ([] ++ _) rest :=
      .moreMembers space_nil space_nil space_nil space_nil hkey (hv _) hmore
    rw [String.ofList_toList] at hmember
    exact hmember

/-- The keys as they are. -/
theorem map_fst_uintsMembers : ∀ kvs : List (String × JsonValue),
    (JsonValue.uintsMembers kvs).map Prod.fst = kvs.map Prod.fst
  | [] => rfl
  | (k, _) :: kvs => congrArg (k :: ·) (map_fst_uintsMembers kvs)

theorem sortedKeys_iff {kvs : List (String × JsonValue)} :
    SortedKeys kvs ↔ (kvs.map Prod.fst).Pairwise fun k k' => compare k k' = .lt := by
  rw [List.pairwise_map]
  rfl

/-- Members in the order of their keys stay as they are. -/
theorem insertMembers_of_sorted : ∀ {map kvs : List (String × JsonValue)},
    SortedKeys (map ++ kvs) → insertMembers map kvs = map ++ kvs
  | map, [], _ => (List.append_nil map).symm
  | map, (k, v) :: kvs, h => by
    have hlt : ∀ e ∈ map, compare e.1 k = .lt := fun e he =>
      (List.pairwise_append.mp h).2.2 e he (k, v) List.mem_cons_self
    have hstep : insertMember map k v = map ++ [(k, v)] := upsertEntries_of_lt _ hlt
    rw [List.append_cons] at h ⊢
    rw [← hstep] at h ⊢
    exact insertMembers_of_sorted h

theorem reads_writeTo {v : JsonValue} (h : v.Exact) : ReadsBack conv checks v := by
  induction h with
  | null => exact fun rest => .null
  | bool b =>
    rcases b with - | -
    · exact fun rest => .false
    · exact fun rest => .true
  | int n => exact fun rest => reads_int conv n _ rest
  | uint n => exact fun rest => reads_uint conv n _ rest
  | string s =>
    intro rest
    have hbody : Body (.code checks) s.toList _ rest := body_writeJsonChar checks rest s.toList
    rw [JsonValue.writeTo, writeJsonString, List.cons_append, List.append_assoc]
    have hstring : Reads conv _ _ _ rest := .string hbody
    rwa [String.ofList_toList] at hstring
  | @array vs h ih =>
    intro rest
    rcases vs with - | ⟨v, vs⟩
    · exact .emptyArray space_nil
    rw [JsonValue.writeTo, List.cons_append, List.append_assoc, List.append_assoc]
    exact .array (reads_writeElements rest (ih v List.mem_cons_self) fun w hw =>
      ih w (List.mem_cons_of_mem _ hw))
  | @object entries hsorted h ih =>
    intro rest
    rcases entries with - | ⟨⟨k, v⟩, kvs⟩
    · exact .emptyObject space_nil
    have hkeys : SortedKeys (JsonValue.uintsMembers ((k, v) :: kvs)) := by
      rwa [sortedKeys_iff, map_fst_uintsMembers, ← sortedKeys_iff]
    have hmembers := reads_writeMembers rest k (ih _ List.mem_cons_self) fun e he =>
      ih e (List.mem_cons_of_mem _ he)
    have hobject := Reads.object hmembers
    rw [insertMembers_of_sorted (show SortedKeys ([] ++ _) from hkeys)] at hobject
    rw [JsonValue.writeTo, List.cons_append, List.append_assoc, List.cons_append, List.append_assoc,
      List.append_assoc]
    exact hobject

/-! ## The ends of a value -/

theorem Item.append {D : Dialect} {c : Char} {input mid : List Char} (h : Item D c input mid) :
    ∃ text, input = text ++ mid := by
  rcases h
  case raw => exact ⟨[c], rfl⟩
  case short e h => exact ⟨['\\', e], rfl⟩
  case unicode ds n hhigh h hc => exact ⟨'\\' :: 'u' :: ds, rfl⟩
  case pair ds ds' n n' code hhigh h h' hcode hc =>
    exact ⟨'\\' :: 'u' :: (ds ++ '\\' :: 'u' :: ds'), by simp⟩
  case lone ds n hhigh h hrest => exact ⟨'\\' :: 'u' :: ds, rfl⟩

theorem Body.append {D : Dialect} {cs input rest : List Char} (h : Body D cs input rest) :
    ∃ text, input = text ++ '"' :: rest := by
  induction h with
  | close => exact ⟨[], rfl⟩
  | item hitem _ ih =>
    obtain ⟨text, rfl⟩ := ih
    obtain ⟨text', rfl⟩ := hitem.append
    exact ⟨text' ++ text, (List.append_assoc ..).symm⟩

theorem not_isWhitespace {c : Char} (h : 33 ≤ c.toNat) (h' : c.toNat < 0x80) :
    ¬isWhitespace c := by
  rw [Bool.not_eq_true]
  simp only [isWhitespace, Bool.or_eq_false_iff, Bool.and_eq_false_iff, decide_eq_false_iff_not,
    beq_eq_false_iff_ne]
  omega

theorem not_isWhitespace_of_isDigit {c : Char} (h : c.isDigit = true) : ¬isWhitespace c := by
  have hrange := (isDigit_iff c).mp h
  exact not_isWhitespace (by omega) (by omega)

theorem Starts.not_isWhitespace {c : Char} (h : Starts c) : ¬isWhitespace c := by
  rcases h with rfl | rfl | rfl | rfl | rfl | rfl | rfl | hdigit
  all_goals first | exact not_isWhitespace_of_isDigit hdigit | decide

theorem Digits.last {ds : List Char} (h : Digits ds) :
    ∃ text c, ds = text ++ [c] ∧ ¬isWhitespace c := by
  rcases List.eq_nil_or_concat ds with rfl | ⟨text, c, rfl⟩
  · exact absurd rfl h.1
  · rw [List.concat_eq_append] at h ⊢
    exact ⟨text, c, rfl, not_isWhitespace_of_isDigit (h.2 c (by simp))⟩

/-- A number ends with a digit. -/
theorem NumberText.WellFormed.last {t : NumberText} (h : t.WellFormed) :
    ∃ text c, t.text = text ++ [c] ∧ ¬isWhitespace c := by
  unfold NumberText.text
  rcases h.exp with hexp | ⟨e, sign, ds, -, -, hdigits, hexp⟩
  swap
  · obtain ⟨text, c, rfl, hc⟩ := hdigits.last
    rw [hexp]
    exact ⟨t.minus ++ (t.int ++ (t.frac ++ e :: (sign ++ text))), c, by simp, hc⟩
  rcases h.frac with hfrac | ⟨ds, hdigits, hfrac⟩
  swap
  · obtain ⟨text, c, rfl, hc⟩ := hdigits.last
    rw [hexp, hfrac]
    exact ⟨t.minus ++ (t.int ++ '.' :: text), c, by simp, hc⟩
  rcases h.int with hint | ⟨hdigits, -⟩
  · rw [hexp, hfrac, hint]
    exact ⟨t.minus, '0', by simp, by decide⟩
  · obtain ⟨text, c, hint, hc⟩ := hdigits.last
    rw [hexp, hfrac, hint]
    exact ⟨t.minus ++ text, c, by simp, hc⟩

/-- A phrase does not end with white space. -/
theorem Reads.last {D : Dialect} {p : Phrase} {input rest : List Char}
    (h : Reads conv D p input rest) : ∃ text c, input = text ++ c :: rest ∧ ¬isWhitespace c := by
  have hclose : ¬isWhitespace ']' ∧ ¬isWhitespace '}' ∧ ¬isWhitespace '"' := by decide
  induction h with
  | null => exact ⟨['n', 'u', 'l'], 'l', rfl, by decide⟩
  | true => exact ⟨['t', 'r', 'u'], 'e', rfl, by decide⟩
  | false => exact ⟨['f', 'a', 'l', 's'], 'e', rfl, by decide⟩
  | number hform hv =>
    obtain ⟨text, c, htext, hc⟩ := hform.last
    rw [htext, List.append_assoc]
    exact ⟨text, c, rfl, hc⟩
  | string hbody =>
    obtain ⟨text, rfl⟩ := hbody.append
    exact ⟨'"' :: text, '"', rfl, hclose.2.2⟩
  | @emptyArray sp rest hsp => exact ⟨'[' :: sp, ']', rfl, hclose.1⟩
  | array _ ih =>
    obtain ⟨text, c, rfl, hc⟩ := ih
    exact ⟨'[' :: text, c, rfl, hc⟩
  | @emptyObject sp rest hsp => exact ⟨'{' :: sp, '}', rfl, hclose.2.1⟩
  | object _ ih =>
    obtain ⟨text, c, rfl, hc⟩ := ih
    exact ⟨'{' :: text, c, rfl, hc⟩
  | @lastElement v sp sp' input rest hsp hsp' _ ih =>
    obtain ⟨text, c, rfl, -⟩ := ih
    exact ⟨sp ++ text ++ c :: sp', ']', by simp, hclose.1⟩
  | @moreElements v vs sp sp' input mid rest hsp hsp' _ _ ih ih' =>
    obtain ⟨text, c, rfl, -⟩ := ih
    obtain ⟨text', c', rfl, hc'⟩ := ih'
    exact ⟨sp ++ text ++ c :: (sp' ++ ',' :: text'), c', by simp, hc'⟩
  | @lastMember k v sp sp₁ sp₂ sp₃ text input rest _ _ _ _ hkey _ ih =>
    obtain ⟨text', c, rfl, -⟩ := ih
    obtain ⟨key, rfl⟩ := hkey.append
    exact ⟨sp ++ '"' :: (key ++ '"' :: (sp₁ ++ ':' :: (sp₂ ++ (text' ++ c :: sp₃)))), '}', by simp,
      hclose.2.1⟩
  | @moreMembers k v kvs sp sp₁ sp₂ sp₃ text input mid rest _ _ _ _ hkey _ _ ih ih' =>
    obtain ⟨text', c, rfl, -⟩ := ih
    obtain ⟨text'', c', rfl, hc'⟩ := ih'
    obtain ⟨key, rfl⟩ := hkey.append
    exact ⟨sp ++ '"' :: (key ++ '"' :: (sp₁ ++ ':' :: (sp₂ ++ (text' ++ c :: (sp₃ ++
      ',' :: text''))))), c', by simp, hc'⟩

/-- The text of a value has no white space to trim. -/
theorem Reads.trim {D : Dialect} {v : JsonValue} {input : List Char}
    (h : Reads conv D (.value v) input []) : trim input = input := by
  obtain ⟨c, text, hfirst, hstarts⟩ := h.head
  obtain ⟨text', c', hlast, hc'⟩ := h.last
  unfold Rust.trim
  have hleft : input.dropWhile isWhitespace = input := by
    rw [hfirst]
    exact List.dropWhile_cons_of_neg hstarts.not_isWhitespace
  rw [hleft, hlast]
  exact List.rdropWhile_concat_neg _ _ _ hc'

/-- `parse` after `dump`. -/
theorem parse_dump (conv : FloatText) (checks : Bool) {v : JsonValue} (h : v.Exact) :
    JsonValue.parse conv checks (v.dump conv) = .ok v.uints := by
  have hreads : Reads conv (.code checks) (.value v.uints) (v.writeTo conv ++ []) [] :=
    reads_writeTo h []
  rw [List.append_nil] at hreads
  rw [parse_eq_ok_iff, JsonValue.dump, String.toList_ofList, hreads.trim]
  exact ⟨[], _, [], space_nil, space_nil, rfl, hreads⟩

theorem parse_dump_nested :
    JsonValue.parse ⟨fun _ => [], fun _ => none⟩ true
      ((JsonValue.object [("k", .array [.int (-1), .int 7, .string "\"\n"])]).dump
        ⟨fun _ => [], fun _ => none⟩) =
      .ok (.object [("k", .array [.int (-1), .uint 7, .string "\"\n"])]) := by
  refine (parse_dump _ _ (.object (List.pairwise_singleton _ _) fun e he => ?_)).trans ?_
  · obtain rfl := List.mem_singleton.mp he
    refine .array fun v hv => ?_
    simp only [List.mem_cons, List.not_mem_nil, or_false] at hv
    rcases hv with rfl | rfl | rfl
    · exact .int _
    · exact .int _
    · exact .string _
  · rfl

end Json

end Rust

end DataShare
