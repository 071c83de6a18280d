import DataShare.CppBuffer
import DataShare.JsonReader
import Mathlib.Data.List.DropRight

/-!
# Column names in Rust and C++

The C++ `GetColumnIndex` takes the part of the name after its last period, and returns the first
column that is equal to it up to the case of ASCII letters. The Rust `get_column_index` looks up the
lower case of the whole name in a map that was filled from the columns in order, where a later
column replaces an earlier one.

A column that is the same to C++ is the same to Rust (`toLowercase_congr`), so without a period they
agree exactly if Rust knows no such column, or its last one is the first one in C++; with a period
they agree only where both find nothing (`columnIndex_agree_iff`).
-/

namespace DataShare

/-! ## Lower case in Rust -/

namespace Rust

/-- The tables of `char` that lower case needs, with what they say of ASCII. -/
structure UnicodeData where
  lower : Char → List Char
  cased : Char → Bool
  caseIgnorable : Char → Bool
  lower_ascii : ∀ c, c.toNat < 128 → lower c = [c.toLower]
  cased_toLower : ∀ c, cased c.toLower = cased c
  caseIgnorable_toLower : ∀ c, caseIgnorable c.toLower = caseIgnorable c
  eq_period : ∀ c, '.' ∈ lower c → c = '.'

namespace UnicodeData

variable (ucd : UnicodeData)

/-- The first character that is not ignored is a cased one. -/
def caseIgnorableThenCased (cs : List Char) : Bool :=
  match cs.dropWhile ucd.caseIgnorable with
  | c :: _ => ucd.cased c
  | [] => false

/-- The lower case of a `Σ` : at the end of a word it is another one. -/
def mapUppercaseSigma (before after : List Char) : Char :=
  if ucd.caseIgnorableThenCased before.reverse && !ucd.caseIgnorableThenCased after then 'ς' else 'σ'

def lowerFrom (before : List Char) : List Char → List Char
  | [] => []
  | c :: cs =>
    (if c = 'Σ' then [ucd.mapUppercaseSigma before cs] else ucd.lower c) ++
      lowerFrom (before ++ [c]) cs

/-- `str::to_lowercase`. -/
def toLowercase (s : String) : String :=
  String.ofList (ucd.lowerFrom [] s.toList)

end UnicodeData

/-! ## The two lookups -/

/-- `index_cache`, a `HashMap` with the newest entry of a key first. -/
abbrev IndexCache := List (String × ℕ)

/-- `set_column_names`, for what it leaves in the cache. -/
def setColumnNames (ucd : UnicodeData) (names : List String) : IndexCache :=
  names.zipIdx.foldl (fun cache entry => (ucd.toLowercase entry.1, entry.2) :: cache) []

/-- `get_column_index` of an open result set, `none` for `InvalidColumnName`. -/
def getColumnIndex (ucd : UnicodeData) (indexCache : IndexCache) (name : String) : Option ℕ :=
  indexCache.lookup (ucd.toLowercase name)

end Rust

namespace Cpp

/-- `::tolower`. -/
def tolower (b : UInt8) : UInt8 :=
  if 65 ≤ b ∧ b ≤ 90 then b + 32 else b

/-- What follows the last period, or the whole name. -/
def afterPeriod (columnName : StdString) : StdString :=
  columnName.rtakeWhile (· ≠ 46)

/-- `indexCache_`. -/
abbrev IndexCache := List (StdString × ℕ)

/-- `GetColumnIndex`, `none` for `E_ERROR`. -/
def getColumnIndex (columnNames : List StdString) (indexCache : IndexCache) (columnName : StdString) :
    Option ℕ × IndexCache :=
  match indexCache.lookup columnName with
  | some columnIndex => (some columnIndex, indexCache)
  | none =>
    let columnNameLower := (afterPeriod columnName).map tolower
    match columnNames.findIdx? fun name => name.map tolower == columnNameLower with
    | some columnIndex => (some columnIndex, (columnName, columnIndex) :: indexCache)
    | none => (none, indexCache)

/-- The cache after some lookups. -/
def cacheAfter (columnNames : List StdString) (earlier : List StdString) : IndexCache :=
  earlier.foldl (fun indexCache columnName => (getColumnIndex columnNames indexCache columnName).2) []

end Cpp

/-! ## Lower case of ASCII letters -/

namespace Rust

open Json

theorem toNat_toLower (c : Char) :
    c.toLower.toNat = if 65 ≤ c.toNat ∧ c.toNat ≤ 90 then c.toNat + 32 else c.toNat := by
  have hcond : (c.val ≥ 'A'.val ∧ c.val ≤ 'Z'.val) ↔ 65 ≤ c.toNat ∧ c.toNat ≤ 90 := by
    rw [ge_iff_le, UInt32.le_iff_toNat_le, UInt32.le_iff_toNat_le]
    rfl
  unfold Char.toLower
  by_cases h : c.val ≥ 'A'.val ∧ c.val ≤ 'Z'.val
  · rw [dif_pos h, if_pos (hcond.mp h)]
    have hle := (hcond.mp h).2
    have hsmall : c.val.toNat + 32 < 2 ^ 32 := by
      have hval : c.val.toNat = c.toNat := rfl
      omega
    show (c.val + 32).toNat = c.val.toNat + 32
    rw [UInt32.toNat_add]
    exact Nat.mod_eq_of_lt hsmall
  · rw [dif_neg h, if_neg (mt hcond.mpr h)]

theorem toLower_of_ge {c : Char} (h : 128 ≤ c.toNat) : c.toLower = c := by
  refine Char.toNat_inj.mp ?_
  rw [toNat_toLower, if_neg (by omega)]

theorem toLower_lt {c : Char} (h : c.toNat < 128) : c.toLower.toNat < 128 := by
  rw [toNat_toLower]
  split <;> omega

theorem toLower_toLower (c : Char) : c.toLower.toLower = c.toLower := by
  refine Char.toNat_inj.mp ?_
  rw [toNat_toLower c.toLower]
  refine if_neg ?_
  rw [toNat_toLower]
  split <;> omega

theorem toLower_eq_period {c : Char} : c.toLower = '.' ↔ c = '.' := by
  have hperiod : ('.' : Char).toNat = 46 := rfl
  rw [← Char.toNat_inj, ← Char.toNat_inj, toNat_toLower, hperiod]
  split <;> omega

namespace UnicodeData

variable (ucd : UnicodeData)

theorem lower_toLower (c : Char) : ucd.lower c.toLower = ucd.lower c := by
  rcases Nat.lt_or_ge c.toNat 128 with hlt | hge
  · rw [ucd.lower_ascii c hlt, ucd.lower_ascii _ (toLower_lt hlt), toLower_toLower]
  · rw [toLower_of_ge hge]

theorem toLower_eq_sigma {c : Char} : c.toLower = 'Σ' ↔ c = 'Σ' := by
  rcases Nat.lt_or_ge c.toNat 128 with hlt | hge
  · have hsigma : ('Σ' : Char).toNat = 931 := rfl
    refine iff_of_false (fun h => ?_) fun h => ?_
    · have hlow := toLower_lt hlt
      rw [h, hsigma] at hlow
      omega
    · rw [h, hsigma] at hlt
      omega
  · rw [toLower_of_ge hge]

/-- The context of a `Σ` does not depend on the case of ASCII letters. -/
theorem caseIgnorableThenCased_toLower (cs : List Char) :
    ucd.caseIgnorableThenCased (cs.map Char.toLower) = ucd.caseIgnorableThenCased cs := by
  have hsame : ucd.caseIgnorable ∘ Char.toLower = ucd.caseIgnorable := by
    ext1 c
    exact ucd.caseIgnorable_toLower c
  have hdrop : (cs.map Char.toLower).dropWhile ucd.caseIgnorable =
      (cs.dropWhile ucd.caseIgnorable).map Char.toLower := by
    rw [List.dropWhile_map, hsame]
  unfold caseIgnorableThenCased
  rw [hdrop]
  cases cs.dropWhile ucd.caseIgnorable with
  | nil => rfl
  | cons c cs => exact ucd.cased_toLower c

theorem mapUppercaseSigma_toLower (before after : List Char) :
    ucd.mapUppercaseSigma (before.map Char.toLower) (after.map Char.toLower) =
      ucd.mapUppercaseSigma before after := by
  unfold mapUppercaseSigma
  rw [← List.map_reverse, caseIgnorableThenCased_toLower, caseIgnorableThenCased_toLower]

theorem lowerFrom_toLower : ∀ before cs : List Char,
    ucd.lowerFrom (before.map Char.toLower) (cs.map Char.toLower) = ucd.lowerFrom before cs
  | before, [] => rfl
  | before, c :: cs => by
    have hrest := lowerFrom_toLower (before ++ [c]) cs
    rw [List.map_append, List.map_singleton] at hrest
    rw [List.map_cons, lowerFrom, lowerFrom, hrest, mapUppercaseSigma_toLower, lower_toLower]
    simp only [toLower_eq_sigma]

/-- Names that differ in the case of ASCII letters have one lower case. -/
theorem toLowercase_congr {s t : String} (h : s.toList.map Char.toLower = t.toList.map Char.toLower) :
    ucd.toLowercase s = ucd.toLowercase t := by
  unfold toLowercase
  rw [← ucd.lowerFrom_toLower [] s.toList, ← ucd.lowerFrom_toLower [] t.toList, h]

theorem period_mem_lowerFrom : ∀ before cs : List Char, '.' ∈ ucd.lowerFrom before cs ↔ '.' ∈ cs
  | before, [] => Iff.rfl
  | before, c :: cs => by
    have hsigma : ∀ before after, '.' ∉ [ucd.mapUppercaseSigma before after] := fun before after => by
      unfold mapUppercaseSigma
      split <;> decide
    rw [lowerFrom, List.mem_append, period_mem_lowerFrom (before ++ [c]) cs, List.mem_cons]
    refine or_congr_left ?_
    split
    · next hc =>
      rw [hc]
      exact iff_of_false (hsigma _ _) (by decide)
    · refine ⟨fun h => (ucd.eq_period c h).symm, fun h => ?_⟩
      rw [← h, ucd.lower_ascii '.' (by decide)]
      exact List.mem_singleton.mpr rfl

theorem period_mem_of_toLowercase_eq {s t : String} (h : ucd.toLowercase s = ucd.toLowercase t) :
    '.' ∈ s.toList ↔ '.' ∈ t.toList := by
  rw [← ucd.period_mem_lowerFrom [] s.toList, ← ucd.period_mem_lowerFrom [] t.toList,
    String.ofList_inj.mp h]

end UnicodeData

end Rust

/-! ## The names of C++ as texts -/

open Rust Rust.Json

theorem encode_inj {cs cs' : List Char} : encode cs = encode cs' ↔ cs = cs' := by
  refine ⟨fun h => ?_, fun h => by rw [h]⟩
  have hutf := fromUtf8_encode cs
  rw [h, fromUtf8_encode] at hutf
  exact (String.ofList_inj.mp (Option.some_inj.mp hutf)).symm

namespace Cpp

theorem high_of_mem_utf8EncodeChar {c : Char} (h : 128 ≤ c.toNat) {b : UInt8}
    (hb : b ∈ String.utf8EncodeChar c) : 128 ≤ b.toNat := by
  have hnat : ∀ n, 128 ≤ n % 256 → 128 ≤ (UInt8.ofNat n).toNat := fun n hn => by
    rwa [UInt8.toNat_ofNat']
  have hval : c.val.toNat = c.toNat := rfl
  unfold String.utf8EncodeChar at hb
  dsimp only at hb
  rw [if_neg (by omega)] at hb
  split at hb
  · simp only [List.mem_cons, List.not_mem_nil, or_false] at hb
    rcases hb with rfl | rfl <;> exact hnat _ (by omega)
  split at hb
  · simp only [List.mem_cons, List.not_mem_nil, or_false] at hb
    rcases hb with rfl | rfl | rfl <;> exact hnat _ (by omega)
  · simp only [List.mem_cons, List.not_mem_nil, or_false] at hb
    rcases hb with rfl | rfl | rfl | rfl <;> exact hnat _ (by omega)

theorem tolower_of_high {b : UInt8} (h : 128 ≤ b.toNat) : tolower b = b := by
  refine if_neg fun hupper => ?_
  have := UInt8.le_iff_toNat_le.mp hupper.2
  have hninety : (90 : UInt8).toNat = 90 := rfl
  omega

theorem tolower_ascii {c : Char} (h : c.toNat < 128) : tolower (ascii c) = ascii c.toLower := by
  have hlow := Rust.toNat_toLower c
  have hnat := toNat_ascii h
  have hcond : (65 ≤ ascii c ∧ ascii c ≤ 90) ↔ 65 ≤ c.toNat ∧ c.toNat ≤ 90 := by
    rw [UInt8.le_iff_toNat_le, UInt8.le_iff_toNat_le, hnat]
    rfl
  refine UInt8.toNat_inj.mp ?_
  rw [toNat_ascii (Rust.toLower_lt h), hlow, tolower]
  simp only [hcond]
  split
  · rw [UInt8.toNat_add, hnat]
    show (c.toNat + 32) % 256 = _
    omega
  · exact hnat

/-- To lower a text byte by byte is to lower its ASCII letters. -/
theorem map_tolower_encode : ∀ cs : List Char,
    (encode cs).map tolower = encode (cs.map Char.toLower)
  | [] => rfl
  | c :: cs => by
    rw [encode_cons, List.map_append, map_tolower_encode cs, List.map_cons, encode_cons]
    congr 1
    rcases Nat.lt_or_ge c.toNat 128 with hlt | hge
    · rw [utf8EncodeChar_of_lt hlt, utf8EncodeChar_of_lt (Rust.toLower_lt hlt), List.map_singleton,
        tolower_ascii hlt]
    · rw [Rust.toLower_of_ge hge]
      refine (List.map_congr_left fun b hb => ?_).trans (List.map_id _)
      exact tolower_of_high (high_of_mem_utf8EncodeChar hge hb)

theorem rtakeWhile_append_of_pos {α : Type} {p : α → Bool} {l l' : List α} (h : ∀ a ∈ l', p a) :
    (l ++ l').rtakeWhile p = l.rtakeWhile p ++ l' := by
  unfold List.rtakeWhile
  rw [List.reverse_append, List.takeWhile_append_of_pos fun a ha => h a (List.mem_reverse.mp ha),
    List.reverse_append, List.reverse_reverse]

/-- The part after the last period, of the text. -/
theorem afterPeriod_encode (cs : List Char) :
    afterPeriod (encode cs) = encode (cs.rtakeWhile (· ≠ '.')) := by
  unfold afterPeriod
  induction cs using List.reverseRecOn with
  | nil => rfl
  | append_singleton cs c ih =>
    rw [encode_append, encode_singleton]
    rcases Nat.lt_or_ge c.toNat 128 with hlt | hge
    · rw [utf8EncodeChar_of_lt hlt]
      by_cases hc : c = '.'
      · subst hc
        rw [List.rtakeWhile_concat_neg _ _ _ (by decide), List.rtakeWhile_concat_neg _ _ _ (by decide)]
        rfl
      · have hb : ascii c ≠ 46 := fun hb => hc (Char.toNat_inj.mp (by rw [← toNat_ascii hlt, hb]; rfl))
        rw [List.rtakeWhile_concat_pos _ _ _ (by simpa using hb),
          List.rtakeWhile_concat_pos _ _ _ (by simpa using hc), ih, encode_append, encode_singleton,
          utf8EncodeChar_of_lt hlt]
    · have hc : c ≠ '.' := fun hc => by
        rw [hc] at hge
        exact absurd hge (by decide)
      rw [rtakeWhile_append_of_pos fun b hb => ?_,
        List.rtakeWhile_concat_pos _ _ _ (by simpa using hc), ih, encode_append, encode_singleton]
      have hhigh := high_of_mem_utf8EncodeChar hge hb
      have hne : b ≠ 46 := fun heq => by
        rw [heq] at hhigh
        exact absurd hhigh (by decide)
      simpa using hne

end Cpp

/-! ## Agreement -/

section Agreement

variable {ucd : UnicodeData} {names : List String} {name : String} {i : ℕ}

/-- Equal up to the case of ASCII letters. -/
def SameAscii (s t : List Char) : Prop :=
  s.map Char.toLower = t.map Char.toLower

/-- Equal up to case. -/
def SameName (ucd : UnicodeData) (s t : String) : Prop :=
  ucd.toLowercase s = ucd.toLowercase t

instance (s t : List Char) : Decidable (SameAscii s t) :=
  inferInstanceAs (Decidable (_ = _))

instance (ucd : UnicodeData) (s t : String) : Decidable (SameName ucd s t) :=
  inferInstanceAs (Decidable (_ = _))

namespace Cpp

/-- A lookup returns what a search of the list does, whatever was looked up before. -/
theorem getColumnIndex_cacheAfter (columnNames earlier : List StdString) (columnName : StdString) :
    (getColumnIndex columnNames (cacheAfter columnNames earlier) columnName).1 =
      columnNames.findIdx? fun name => name.map tolower == (afterPeriod columnName).map tolower := by
  let Fresh (cache : IndexCache) : Prop := ∀ columnName columnIndex,
    cache.lookup columnName = some columnIndex → columnNames.findIdx?
      (fun name => name.map tolower == (afterPeriod columnName).map tolower) = some columnIndex
  have hlookUp (cache : IndexCache) (columnName : StdString) (h : Fresh cache) :
      (getColumnIndex columnNames cache columnName).1 = columnNames.findIdx?
          (fun name => name.map tolower == (afterPeriod columnName).map tolower) ∧
        Fresh (getColumnIndex columnNames cache columnName).2 := by
    unfold getColumnIndex
    cases hlookup : cache.lookup columnName with
    | some columnIndex => exact ⟨(h _ _ hlookup).symm, h⟩
    | none =>
      dsimp only
      cases hfind : columnNames.findIdx? fun name =>
          name.map tolower == (afterPeriod columnName).map tolower with
      | none => exact ⟨rfl, h⟩
      | some columnIndex =>
        refine ⟨rfl, fun columnName' columnIndex' hlookup' => ?_⟩
        rw [List.lookup_cons] at hlookup'
        split at hlookup'
        · next heq => rw [eq_of_beq heq, ← Option.some_inj.mp hlookup', hfind]
        · exact h _ _ hlookup'
  have hrun : ∀ (earlier : List StdString) (cache : IndexCache), Fresh cache →
      Fresh (earlier.foldl
        (fun cache columnName => (getColumnIndex columnNames cache columnName).2) cache) := by
    intro earlier
    induction earlier with
    | nil => exact fun cache h => h
    | cons columnName earlier ih => exact fun cache h => ih _ (hlookUp cache columnName h).2
  have hfresh : Fresh (cacheAfter columnNames earlier) :=
    hrun earlier [] fun columnName columnIndex hnone => absurd hnone (by simp)
  exact (hlookUp _ columnName hfresh).1

/-- The test of the search, on the texts. -/
theorem matches_eq (name : String) :
    (fun bytes : StdString => bytes.map tolower == (afterPeriod (utf8Bytes name)).map tolower) ∘
      utf8Bytes =
        fun column => decide (SameAscii column.toList (name.toList.rtakeWhile (· ≠ '.'))) := by
  ext1 column
  rw [Function.comp_apply, utf8Bytes_eq_encode, utf8Bytes_eq_encode, afterPeriod_encode,
    map_tolower_encode, map_tolower_encode, Bool.eq_iff_iff, beq_iff_eq, encode_inj, decide_eq_true_eq]
  rfl

/-- C++ finds the first column that is the part of the name after its last period. -/
theorem getColumnIndex_eq_some (earlier : List StdString) :
    (getColumnIndex (names.map utf8Bytes) (cacheAfter (names.map utf8Bytes) earlier)
        (utf8Bytes name)).1 = some i ↔
      ∃ h : i < names.length, SameAscii names[i].toList (name.toList.rtakeWhile (· ≠ '.')) ∧
        ∀ j, ∀ hj : j < i, ¬SameAscii names[j].toList (name.toList.rtakeWhile (· ≠ '.')) := by
  rw [getColumnIndex_cacheAfter, List.findIdx?_map, matches_eq, List.findIdx?_eq_some_iff_getElem]
  simp only [decide_eq_true_eq]

theorem getColumnIndex_eq_none (earlier : List StdString) :
    (getColumnIndex (names.map utf8Bytes) (cacheAfter (names.map utf8Bytes) earlier)
        (utf8Bytes name)).1 = none ↔
      ∀ column ∈ names, ¬SameAscii column.toList (name.toList.rtakeWhile (· ≠ '.')) := by
  rw [getColumnIndex_cacheAfter, List.findIdx?_map, matches_eq, List.findIdx?_eq_none_iff]
  simp only [decide_eq_false_iff_not]

end Cpp

namespace Rust

theorem setColumnNames_concat (ucd : UnicodeData) (names : List String) (column : String) :
    setColumnNames ucd (names ++ [column]) =
      (ucd.toLowercase column, names.length) :: setColumnNames ucd names := by
  unfold setColumnNames
  rw [List.zipIdx_append, List.foldl_append]
  simp

/-- Rust finds the last column of the same name. -/
theorem getColumnIndex_eq_some :
    getColumnIndex ucd (setColumnNames ucd names) name = some i ↔
      ∃ h : i < names.length, SameName ucd names[i] name ∧
        ∀ j, ∀ hj : j < names.length, i < j → ¬SameName ucd names[j] name := by
  induction names using List.reverseRecOn with
  | nil => simp [getColumnIndex, setColumnNames]
  | append_singleton names column ih =>
    have hlength : (names ++ [column]).length = names.length + 1 := by simp
    have hlast : (names ++ [column])[names.length] = column := by simp
    have hfront {j : ℕ} (hj : j < names.length) : (names ++ [column])[j] = names[j] :=
      List.getElem_append_left hj
    unfold getColumnIndex at ih ⊢
    rw [setColumnNames_concat, List.lookup_cons]
    by_cases hname : SameName ucd column name
    · have heq : (ucd.toLowercase name == ucd.toLowercase column) = true := beq_iff_eq.mpr hname.symm
      rw [heq]
      dsimp only
      rw [Option.some_inj]
      constructor
      · rintro rfl
        refine ⟨by omega, hlast.symm ▸ hname, fun j hj hlt => by omega⟩
      · rintro ⟨hi, -, hafter⟩
        by_contra hne
        exact hafter names.length (by omega) (by omega) (hlast.symm ▸ hname)
    · have hne : (ucd.toLowercase name == ucd.toLowercase column) = false :=
        beq_eq_false_iff_ne.mpr fun h => hname h.symm
      rw [hne]
      dsimp only
      rw [ih]
      constructor
      · rintro ⟨hi, hsame, hafter⟩
        refine ⟨by omega, (hfront hi).symm ▸ hsame, fun j hj hlt => ?_⟩
        rcases Nat.lt_or_ge j names.length with hj' | hj'
        · rw [hfront hj']
          exact hafter j hj' hlt
        · obtain rfl : j = names.length := by omega
          rwa [hlast]
      · rintro ⟨hi, hsame, hafter⟩
        have hi' : i < names.length := by
          by_contra hge
          obtain rfl : i = names.length := by omega
          rw [hlast] at hsame
          exact hname hsame
        refine ⟨hi', hfront hi' ▸ hsame, fun j hj hlt => ?_⟩
        rw [← hfront hj]
        exact hafter j (by omega) hlt

theorem getColumnIndex_eq_none :
    getColumnIndex ucd (setColumnNames ucd names) name = none ↔
      ∀ column ∈ names, ¬SameName ucd column name := by
  induction names using List.reverseRecOn with
  | nil => simp [getColumnIndex, setColumnNames]
  | append_singleton names column ih =>
    unfold getColumnIndex at ih ⊢
    rw [setColumnNames_concat, List.lookup_cons]
    by_cases hname : SameName ucd column name
    · have heq : (ucd.toLowercase name == ucd.toLowercase column) = true := beq_iff_eq.mpr hname.symm
      rw [heq]
      exact iff_of_false (by simp) fun hall => hall column (by simp) hname
    · have hne : (ucd.toLowercase name == ucd.toLowercase column) = false :=
        beq_eq_false_iff_ne.mpr fun h => hname h.symm
      rw [hne]
      dsimp only
      rw [ih]
      simp only [List.forall_mem_append, List.forall_mem_singleton]
      exact (and_iff_left hname).symm

end Rust

/-- Some column is the first one that is equal to the name up to the case of ASCII letters, and the
last one that is equal to it up to case. -/
def FirstIsLast (ucd : UnicodeData) (names : List String) (name : String) : Prop :=
  ∃ i, ∃ h : i < names.length, SameAscii names[i].toList name.toList ∧
    (∀ j, ∀ hj : j < i, ¬SameAscii names[j].toList name.toList) ∧
    ∀ j, ∀ hj : j < names.length, i < j → ¬SameName ucd names[j] name

/-- Rust and C++ find the same index, or both none, exactly if the name has no period and Rust
knows no such column or its last one is the first one in C++, or the name has a period and neither
knows a column for it. -/
theorem columnIndex_agree_iff (ucd : UnicodeData) (names : List String) (earlier : List Cpp.StdString)
    (name : String) :
    (Cpp.getColumnIndex (names.map utf8Bytes) (Cpp.cacheAfter (names.map utf8Bytes) earlier)
        (utf8Bytes name)).1 = Rust.getColumnIndex ucd (Rust.setColumnNames ucd names) name ↔
    if '.' ∈ name.toList then
      (∀ column ∈ names, ¬SameName ucd column name) ∧
        ∀ column ∈ names, ¬SameAscii column.toList (name.toList.rtakeWhile (· ≠ '.'))
    else (∀ column ∈ names, ¬SameName ucd column name) ∨ FirstIsLast ucd names name := by
  have hagree {o o' : Option ℕ} : o = o' ↔ (o = none ∧ o' = none) ∨ ∃ i, o = some i ∧ o' = some i := by
    cases o <;> cases o' <;> simp [eq_comm]
  rw [hagree, Cpp.getColumnIndex_eq_none, Rust.getColumnIndex_eq_none]
  simp only [Cpp.getColumnIndex_eq_some, Rust.getColumnIndex_eq_some]
  split
  · next hperiod =>
    rw [and_comm]
    refine or_iff_left ?_
    rintro ⟨i, ⟨hi, hascii, -⟩, _, hsame, -⟩
    -- Such a column would have a period, and what C++ looks for has none.
    have hcolumn := (ucd.period_mem_of_toLowercase_eq hsame).mpr hperiod
    have hmem : '.' ∈ (name.toList.rtakeWhile (· ≠ '.')).map Char.toLower := by
      rw [← hascii]
      exact List.mem_map.mpr ⟨'.', hcolumn, rfl⟩
    obtain ⟨c, hc, hlower⟩ := List.mem_map.mp hmem
    have hne := List.mem_rtakeWhile_imp hc
    simp [toLower_eq_period.mp hlower] at hne
  · next hperiod =>
    have hwhole : name.toList.rtakeWhile (· ≠ '.') = name.toList := by
      refine List.rtakeWhile_eq_self_iff.mpr fun c hc => ?_
      simpa using fun heq : c = '.' => hperiod (heq ▸ hc)
    rw [hwhole]
    have hname (column : String) (h : SameAscii column.toList name.toList) :
        SameName ucd column name := ucd.toLowercase_congr h
    have hnone (h : ∀ column ∈ names, ¬SameName ucd column name) :
        ∀ column ∈ names, ¬SameAscii column.toList name.toList := fun column hmem hascii =>
      h column hmem (hname column hascii)
    refine or_congr (and_iff_right_of_imp hnone) ?_
    unfold FirstIsLast
    refine exists_congr fun i => ?_
    constructor
    · rintro ⟨⟨hi, hascii, hfirst⟩, _, -, hlast⟩
      exact ⟨hi, hascii, hfirst, hlast⟩
    · rintro ⟨hi, hascii, hfirst, hlast⟩
      exact ⟨⟨hi, hascii, hfirst⟩, hi, hname _ hascii, hlast⟩

/-- The tables, of ASCII letters. -/
def asciiData : UnicodeData where
  lower c := [c.toLower]
  cased c := 65 ≤ c.toNat ∧ c.toNat ≤ 90 ∨ 97 ≤ c.toNat ∧ c.toNat ≤ 122
  caseIgnorable _ := false
  lower_ascii _ _ := rfl
  cased_toLower c := by
    rw [toNat_toLower, decide_eq_decide]
    split <;> omega
  caseIgnorable_toLower _ := rfl
  eq_period c h := toLower_eq_period.mp (List.mem_singleton.mp h).symm

/-- Of the columns `a` and `A`, C++ finds the first by the name `a` and Rust the second. -/
theorem columnIndex_of_two_cases :
    ¬∀ (ucd : UnicodeData) (names : List String) (earlier : List Cpp.StdString) (name : String),
      (Cpp.getColumnIndex (names.map utf8Bytes) (Cpp.cacheAfter (names.map utf8Bytes) earlier)
        (utf8Bytes name)).1 = Rust.getColumnIndex ucd (Rust.setColumnNames ucd names) name := by
  intro hall
  exact absurd (hall asciiData ["a", "A"] [] "a") (by decide +kernel)

end Agreement

end DataShare
