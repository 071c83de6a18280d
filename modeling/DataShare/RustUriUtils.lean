import DataShare.RustText
import DataShare.UriIds

/-!
# Uris in Rust

`uri_utils.rs` does what `DataShareURIUtils` does, on the positions of a `str`. Both take the
same parameters from a query (`getQueryParams_eq`).

`strtoul` is to match the `strtoul` of C, on blanks and one `+` in front of the digits. It trims
all white space of Unicode, and `str::parse` takes a second `+` (`strtoul_exact_iff`).
-/

namespace DataShare

namespace Rust

open Cpp (StdString)
open Json (encode encode_cons encode_append encode_eq_nil dropBytes utf8Bytes_eq_encode)

namespace UriUtils

/-! ## The functions -/

/-- The position behind the parameter that begins the query from `start`. -/
def delimiterFrom (query rest : List Char) (start : ℕ) : ℕ :=
  (find '&' rest).elim (size query) (start + ·)

theorem le_delimiterFrom {query : List Char} {start : ℕ} (h : start < size query)
    (rest : List Char) :
    start ≤ delimiterFrom query rest start := by
  unfold delimiterFrom
  cases find '&' rest with
  | none => exact h.le
  | some p => exact Nat.le_add_right start p

/-- Assign the parameter from `start` to the delimiter. A `String` in the map is its bytes. -/
def assignParam (query rest : List Char) (start delimiter : ℕ)
    (params : OrderedMap StdString StdString) : Outcome (OrderedMap StdString StdString) :=
  match (find '=' rest).map (start + ·) with
  | none => pure params
  | some equalPos =>
    if equalPos < delimiter then do
      let key ← sliceBytes query start equalPos
      let value ← sliceBytes query (equalPos + 1) delimiter
      pure (params.assign (encode key) (encode value))
    else pure params

/-- The loop of `get_query_params`. -/
def queryLoop (query : List Char) (start : ℕ) (params : OrderedMap StdString StdString) :
    Outcome (OrderedMap StdString StdString) :=
  if h : start < size query then do
    let rest ← dropBytes query start
    let delimiter := delimiterFrom query rest start
    let params ← assignParam query rest start delimiter params
    queryLoop query (delimiter + 1) params
  else pure params
termination_by size query - start
decreasing_by
  have hle := le_delimiterFrom h rest
  omega

def getQueryParams (uri : String) : Outcome (OrderedMap StdString StdString) :=
  match find '?' uri.toList with
  | none => pure .empty
  | some queryStart => do
    let query ← dropBytes uri.toList (queryStart + 1)
    queryLoop query 0 .empty

def formatUri (uri : String) : Outcome String :=
  match rfind '?' uri.toList with
  | some pos => do
    let cs ← takeBytes uri.toList pos
    pure (String.ofList cs)
  | none => pure uri

/-- `u32` as `str::parse` reads it. -/
def parseU32 (s : List Char) : Option UInt32 :=
  let digits := if s.head? = some '+' then s.tail else s
  if digits ≠ [] ∧ digits.all Char.isDigit then
    let n : ℕ := digits.foldl (fun n c => 10 * n + (c.toNat - '0'.toNat)) 0
    if n < 2 ^ 32 then some (.ofNat n) else none
  else none

/-- With 0 for a text it fails on. -/
def strtoul (s : String) : Bool × UInt32 :=
  if s = "" then (false, 0)
  else
    let trimmed := s.toList.dropWhile isWhitespace
    let stripped := if trimmed.head? = some '+' then trimmed.tail else trimmed
    if stripped = [] then (false, 0)
    else
      match parseU32 stripped with
      | some v => (true, v)
      | none => (false, 0)

end UriUtils

/-! ## The parameters of a query -/

open Cpp.DataShareURIUtils (queryOf)

/-- The key and the value of a parameter, at its first `=`. -/
def keyValue (param : StdString) : Option (StdString × StdString) :=
  if 61 ∈ param then
    some (param.takeWhile (· ≠ 61), (param.dropWhile (· ≠ 61)).drop 1)
  else none

/-- Assign the parameters in order : the last value of a key stays. -/
def assignAll (params : OrderedMap StdString StdString) (query : List StdString) :
    OrderedMap StdString StdString :=
  (query.filterMap keyValue).foldl (fun params kv => params.assign kv.1 kv.2) params

/-- The parameters of a uri : what follows the first `?`, split at every `&`. -/
def queryMap (uri : StdString) : OrderedMap StdString StdString :=
  assignAll .empty (queryOf uri)

theorem assignAll_splitOn (params : OrderedMap StdString StdString) (rest : StdString) :
    assignAll params (rest.splitOn 38) =
      assignAll (assignAll params [rest.takeWhile (· ≠ 38)])
        ((rest.drop ((rest.takeWhile (· ≠ 38)).length + 1)).splitOn 38) := by
  have hsplit : rest = rest.takeWhile (· ≠ 38) ++ rest.dropWhile (· ≠ 38) :=
    List.takeWhile_append_dropWhile.symm
  have hparam : (38 : UInt8) ∉ rest.takeWhile (· ≠ 38) := fun hmem => by
    simpa using List.mem_takeWhile_imp hmem
  generalize rest.takeWhile (· ≠ 38) = param at hsplit hparam ⊢
  rcases Cpp.DataShareURIUtils.dropWhile_ne_cases 38 rest with hdrop | ⟨next, hdrop⟩
  · rw [hdrop, List.append_nil] at hsplit
    subst hsplit
    have hlast : assignAll (assignAll params [rest]) [[]] = assignAll params [rest] := by
      simp [assignAll, keyValue]
    rw [List.splitOn_eq_singleton hparam, List.drop_eq_nil_of_le (by omega), List.splitOn_nil,
      hlast]
  · have hnext : (param ++ 38 :: next).drop (param.length + 1) = next := by simp
    rw [hdrop] at hsplit
    subst hsplit
    rw [hnext, List.splitOn_append_cons_self_of_not_mem hparam]
    unfold assignAll
    rw [← List.foldl_append, ← List.filterMap_append, List.singleton_append]

/-- A round or more for each byte is enough. -/
theorem queryLoop_cpp : ∀ (n : ℕ) (rest : StdString) (params : OrderedMap StdString StdString),
    rest.length ≤ n →
      Cpp.DataShareURIUtils.queryLoop n rest params = assignAll params (rest.splitOn 38)
  | n, [], params, _ => by
    have hempty : Cpp.DataShareURIUtils.queryLoop n [] params = params := by
      cases n <;> simp [Cpp.DataShareURIUtils.queryLoop]
    rw [hempty]
    simp [assignAll, keyValue]
  | n + 1, c :: s, params, hlen => by
    have hnext := List.length_drop (i := ((c :: s).takeWhile (· ≠ 38)).length + 1) (l := c :: s)
    rw [Cpp.DataShareURIUtils.queryLoop, if_neg (List.cons_ne_nil c s), assignAll_splitOn]
    dsimp only
    generalize (c :: s).takeWhile (· ≠ 38) = param at hnext ⊢
    rw [List.length_cons] at hlen hnext
    rw [queryLoop_cpp n _ _ (by omega), queryLoop_cpp n _ _ (by omega)]
    unfold assignAll keyValue
    split
    · next hparam => simp [hparam]
    · next hparam => simp [hparam]

theorem getQueryParams_cpp (uri : StdString) :
    Cpp.DataShareURIUtils.getQueryParams uri = queryMap uri := by
  unfold Cpp.DataShareURIUtils.getQueryParams queryMap queryOf
  split
  · exact queryLoop_cpp _ _ _ le_rfl
  · next hquery =>
    have hdrop : uri.dropWhile (· ≠ 63) = [] :=
      List.dropWhile_eq_nil_iff.mpr fun c hc => by
        simpa using fun heq : c = 63 => hquery (heq ▸ hc)
    rw [hdrop]
    simp [assignAll, keyValue]

/-! ## The positions of the parameters -/

theorem assignAll_nil (params : OrderedMap StdString StdString) :
    assignAll params [[]] = params := by
  simp [assignAll, keyValue]

/-- The parameter between two positions where characters end. -/
theorem assignParam_append (before param tail : List Char)
    (params : OrderedMap StdString StdString) :
    UriUtils.assignParam (before ++ (param ++ tail)) (param ++ tail) (size before)
      (size before + size param) params = .ok (assignAll params [encode param]) := by
  have hequals : ascii '=' = 61 := by decide
  have hascii : '='.toNat < 128 := by decide
  have hone : '='.utf8Size = 1 := by decide
  unfold UriUtils.assignParam
  by_cases hmem : '=' ∈ param
  · obtain ⟨key, value, rfl, hkey⟩ := List.eq_append_cons_of_mem hmem
    have hfind : find '=' (key ++ '=' :: value ++ tail) = some (size key) := by
      rw [List.append_assoc, List.cons_append]
      exact find_append hkey _
    have hkeySlice : sliceBytes (before ++ (key ++ '=' :: value ++ tail)) (size before)
        (size before + size key) = .ok key := by
      rw [List.append_assoc key]
      exact sliceBytes_append before key _
    have hvalueSlice : sliceBytes (before ++ (key ++ '=' :: value ++ tail))
        (size before + size key + 1) (size before + size (key ++ '=' :: value)) = .ok value := by
      have h := sliceBytes_append (before ++ (key ++ ['='])) value tail
      simp only [size_append, size_cons, size_nil, hone, List.append_assoc, List.cons_append,
        List.nil_append, Nat.add_zero, Nat.add_assoc] at h ⊢
      exact h
    have hparam : keyValue (encode (key ++ '=' :: value)) = some (encode key, encode value) := by
      have htake := takeWhile_encode hascii (key ++ '=' :: value)
      have hrest := dropWhile_encode hascii (key ++ '=' :: value)
      have hin := (ascii_mem_encode hascii (key ++ '=' :: value)).mpr (by simp)
      rw [hequals] at htake hrest hin
      rw [keyValue, if_pos hin, htake, hrest, takeWhile_append_self hkey,
        dropWhile_append_self hkey, encode_cons, utf8EncodeChar_of_lt hascii]
      rfl
    have hlt : size before + size key < size before + size (key ++ '=' :: value) := by
      rw [size_append, size_cons, hone]
      omega
    rw [hfind, Option.map_some]
    dsimp only
    rw [if_pos hlt, hkeySlice, Outcome.ok_bind, hvalueSlice, Outcome.ok_bind]
    simp [assignAll, hparam]
  · have hnone : keyValue (encode param) = none := by
      have hin := (ascii_mem_encode hascii param).not.mpr hmem
      rw [hequals] at hin
      exact if_neg hin
    have hsame : assignAll params [encode param] = params := by simp [assignAll, hnone]
    rw [hsame, find_eq]
    by_cases hfound : '=' ∈ param ++ tail
    · have hge : ¬size before + size ((param ++ tail).takeWhile (· ≠ '=')) <
          size before + size param := by
        rw [List.takeWhile_append_of_pos, size_append]
        · omega
        · intro c hc
          rw [decide_eq_true_eq]
          rintro rfl
          exact hmem hc
      rw [if_pos hfound, Option.map_some]
      dsimp only
      rw [if_neg hge]
      rfl
    · rw [if_neg hfound]
      rfl

/-- The loop from a position where a character ends. -/
theorem queryLoop_append : ∀ (n : ℕ) (before rest : List Char)
    (params : OrderedMap StdString StdString), rest.length ≤ n →
      UriUtils.queryLoop (before ++ rest) (size before) params =
        .ok (assignAll params ((encode rest).splitOn 38))
  | n, before, [], params, _ => by
    have hempty : (encode []).splitOn 38 = [[]] := List.splitOn_nil ..
    rw [UriUtils.queryLoop, dif_neg (by simp), hempty, assignAll_nil]
    rfl
  | n + 1, before, c :: s, params, hlen => by
    have hand : ascii '&' = 38 := by decide
    have hascii : '&'.toNat < 128 := by decide
    have hlt : size before < size (before ++ c :: s) := by
      have hpos := c.utf8Size_pos
      rw [size_append, size_cons]
      omega
    have htake := takeWhile_encode hascii (c :: s)
    rw [hand] at htake
    rw [UriUtils.queryLoop, dif_pos hlt, dropBytes_append, Outcome.ok_bind, assignAll_splitOn, htake]
    dsimp only
    by_cases hmem : '&' ∈ c :: s
    · obtain ⟨param, next, hsplit, hparam⟩ := List.eq_append_cons_of_mem hmem
      have hshort : next.length ≤ n := by
        have h := congrArg List.length hsplit
        rw [List.length_append, List.length_cons, List.length_cons] at h
        rw [List.length_cons] at hlen
        omega
      rw [hsplit]
      have hdelimiter : UriUtils.delimiterFrom (before ++ (param ++ '&' :: next))
          (param ++ '&' :: next) (size before) = size before + size param := by
        rw [UriUtils.delimiterFrom, find_append hparam]
        rfl
      have hnext : (encode (param ++ '&' :: next)).drop ((encode param).length + 1) =
          encode next := by
        rw [encode_append, encode_cons, utf8EncodeChar_of_lt hascii]
        simp
      have hstart : size before + size param + 1 = size (before ++ (param ++ ['&'])) := by
        have hone : '&'.utf8Size = 1 := by decide
        simp only [size_append, size_cons, size_nil, hone]
        omega
      have hquery : before ++ (param ++ '&' :: next) = before ++ (param ++ ['&']) ++ next := by
        simp
      rw [hdelimiter, takeWhile_append_self hparam, hnext, assignParam_append, Outcome.ok_bind, hstart,
        hquery]
      exact queryLoop_append n _ next _ hshort
    · have hself : (c :: s).takeWhile (· ≠ '&') = c :: s :=
        List.takeWhile_eq_self_iff.mpr fun d hd => by
          rw [decide_eq_true_eq]
          rintro rfl
          exact hmem hd
      have hdelimiter : UriUtils.delimiterFrom (before ++ c :: s) (c :: s) (size before) =
          size before + size (c :: s) := by
        rw [UriUtils.delimiterFrom, find_eq, if_neg hmem, ← size_append]
        rfl
      have hassign := assignParam_append before (c :: s) [] params
      rw [List.append_nil] at hassign
      have hnil : (encode (c :: s)).drop ((encode (c :: s)).length + 1) = [] :=
        List.drop_eq_nil_of_le (Nat.le_succ _)
      have hend : ¬size before + size (c :: s) + 1 < size (before ++ c :: s) := by
        rw [size_append]
        omega
      rw [hdelimiter, hself, hassign, Outcome.ok_bind, UriUtils.queryLoop, dif_neg hend, hnil,
        List.splitOn_nil, assignAll_nil]
      rfl

/-- Rust takes the parameters that its bytes have. -/
theorem getQueryParams_utf8Bytes (uri : String) :
    UriUtils.getQueryParams uri = .ok (queryMap (utf8Bytes uri)) := by
  have hquestion : ascii '?' = 63 := by decide
  have hascii : '?'.toNat < 128 := by decide
  have hdrop := dropWhile_encode hascii uri.toList
  rw [hquestion] at hdrop
  unfold UriUtils.getQueryParams queryMap queryOf
  rw [utf8Bytes_eq_encode, hdrop]
  by_cases hmem : '?' ∈ uri.toList
  · obtain ⟨before, query, hsplit, hbefore⟩ := List.eq_append_cons_of_mem hmem
    have hbehind : dropBytes (before ++ '?' :: query) (size before + 1) = .ok query := by
      have hone : '?'.utf8Size = 1 := by decide
      have h := dropBytes_append (before ++ ['?']) query
      rwa [size_append, size_cons, hone, size_nil, Nat.add_zero, List.append_assoc,
        List.singleton_append] at h
    have hloop := queryLoop_append query.length [] query .empty le_rfl
    have hencode : (encode ('?' :: query)).drop 1 = encode query := by
      rw [encode_cons, utf8EncodeChar_of_lt hascii]
      rfl
    rw [hsplit, dropWhile_append_self hbefore, hencode, find_append hbefore]
    dsimp only
    rw [hbehind, Outcome.ok_bind]
    exact hloop
  · have hnone : uri.toList.dropWhile (· ≠ '?') = [] :=
      List.dropWhile_eq_nil_iff.mpr fun c hc => by
        simpa using fun heq : c = '?' => hmem (heq ▸ hc)
    have hempty : ((encode []).drop 1).splitOn 38 = [[]] := List.splitOn_nil ..
    rw [hnone, hempty, find_eq, if_neg hmem, assignAll_nil]
    rfl

/-- Rust and C++ take the same parameters from a uri. The loop of C++ goes on for no longer than
there are bytes. -/
theorem getQueryParams_eq :
    (∀ uri : String, UriUtils.getQueryParams uri = .ok (queryMap (utf8Bytes uri))) ∧
      ∀ uri : StdString, Cpp.DataShareURIUtils.getQueryParams uri = queryMap uri ∧
        ∀ n, Cpp.DataShareURIUtils.queryLoop (uri.length + n) ((uri.dropWhile (· ≠ 63)).drop 1)
          .empty = queryMap uri := by
  refine ⟨getQueryParams_utf8Bytes, fun uri => ⟨getQueryParams_cpp uri, fun n => ?_⟩⟩
  refine queryLoop_cpp _ _ _ ?_
  rw [List.length_drop]
  have hle := (List.dropWhile_sublist (l := uri) (· ≠ 63)).length_le
  omega

/-! ## Unsigned numbers -/

/-- The number of decimal digits. -/
def ofDigits (digits : List Char) : ℕ :=
  digits.foldl (fun n c => 10 * n + (c.toNat - '0'.toNat)) 0

/-- One digit or more, of the number. -/
def Decimal (digits : List Char) (v : UInt32) : Prop :=
  digits ≠ [] ∧ (∀ c ∈ digits, c.isDigit = true) ∧ ofDigits digits = v.toNat

/-- The number behind blanks of ASCII, and a plus sign or none. -/
def IsUnsigned (s : String) (v : UInt32) : Prop :=
  ∃ blanks sign digits : List Char, s.toList = blanks ++ (sign ++ digits) ∧
    (∀ c ∈ blanks, c.toNat < 128 ∧ isWhitespace c = true) ∧ (sign = [] ∨ sign = ['+']) ∧
    Decimal digits v

/-- A number behind two plus signs, or behind white space that is not all ASCII. -/
def IsLenient (s : String) : Prop :=
  ∃ (blanks sign digits : List Char) (v : UInt32), s.toList = blanks ++ (sign ++ digits) ∧
    (∀ c ∈ blanks, isWhitespace c = true) ∧ Decimal digits v ∧
    (sign = ['+', '+'] ∨ (sign = [] ∨ sign = ['+']) ∧ ∃ c ∈ blanks, 128 ≤ c.toNat)

theorem Decimal.exists_cons {digits : List Char} {v : UInt32} (h : Decimal digits v) :
    ∃ c cs, digits = c :: cs ∧ c.isDigit = true := by
  obtain ⟨c, cs, rfl⟩ := List.exists_cons_of_ne_nil h.1
  exact ⟨c, cs, rfl, h.2.1 c List.mem_cons_self⟩

theorem ne_plus_of_isDigit {c : Char} (h : c.isDigit = true) : c ≠ '+' := by
  rintro rfl
  exact absurd h (by decide)

theorem not_isWhitespace_of_isDigit {c : Char} (h : c.isDigit = true) : ¬isWhitespace c = true := by
  have hdigit := (Json.isDigit_iff c).mp h
  unfold isWhitespace
  simp only [Bool.or_eq_true, Bool.and_eq_true, decide_eq_true_eq, beq_iff_eq]
  omega

/-- What `strip_prefix('+')` takes off. -/
theorem exists_plus (cs : List Char) : ∃ sign,
    cs = sign ++ (if cs.head? = some '+' then cs.tail else cs) ∧ (sign = [] ∨ sign = ['+']) := by
  split
  · next hplus =>
    obtain ⟨cs, rfl⟩ : ∃ t, cs = '+' :: t := by
      cases cs with
      | nil => cases hplus
      | cons c cs => exact ⟨cs, by rw [Option.some.inj hplus]⟩
    exact ⟨['+'], rfl, .inr rfl⟩
  · exact ⟨[], rfl, .inl rfl⟩

theorem parseU32_of_digits {digits : List Char} {v : UInt32} (h : Decimal digits v) :
    UriUtils.parseU32 digits = some v := by
  obtain ⟨c, cs, rfl, hc⟩ := h.exists_cons
  obtain ⟨hne, hall, hvalue⟩ := h
  have hhead : ¬(c :: cs).head? = some '+' := by
    simpa using ne_plus_of_isDigit hc
  unfold UriUtils.parseU32
  rw [if_neg hhead, if_pos ⟨hne, List.all_eq_true.mpr hall⟩]
  show (if ofDigits (c :: cs) < 2 ^ 32 then some (UInt32.ofNat (ofDigits (c :: cs))) else none) = _
  rw [hvalue, if_pos v.toNat_lt, UInt32.ofNat_toNat]

theorem parseU32_eq_some_iff {cs : List Char} {v : UInt32} : UriUtils.parseU32 cs = some v ↔
    ∃ sign digits, cs = sign ++ digits ∧ (sign = [] ∨ sign = ['+']) ∧ Decimal digits v := by
  constructor
  · intro h
    obtain ⟨sign, hcs, hsign⟩ := exists_plus cs
    unfold UriUtils.parseU32 at h
    generalize (if cs.head? = some '+' then cs.tail else cs) = digits at h hcs
    dsimp only at h
    split at h
    · next hdigits =>
      split at h
      · next hlt =>
        refine ⟨sign, digits, hcs, hsign, hdigits.1, List.all_eq_true.mp hdigits.2, ?_⟩
        rw [← Option.some.inj h, UInt32.toNat_ofNat', Nat.mod_eq_of_lt hlt]
        rfl
      · cases h
    · cases h
  · rintro ⟨sign, digits, rfl, rfl | rfl, h⟩
    · exact parseU32_of_digits h
    · obtain ⟨c, cs, rfl, hc⟩ := h.exists_cons
      have hparse := parseU32_of_digits h
      have hhead : ¬(c :: cs).head? = some '+' := by
        simpa using ne_plus_of_isDigit hc
      unfold UriUtils.parseU32 at hparse ⊢
      rw [if_neg hhead] at hparse
      exact hparse

/-- The white space is what the text begins with. -/
theorem parts_of_blanks {blanks sign digits : List Char} {v : UInt32}
    (hblanks : ∀ c ∈ blanks, isWhitespace c = true)
    (hsign : sign = [] ∨ sign = ['+'] ∨ sign = ['+', '+']) (hdigits : Decimal digits v) :
    (blanks ++ (sign ++ digits)).takeWhile isWhitespace = blanks ∧
      (blanks ++ (sign ++ digits)).dropWhile isWhitespace = sign ++ digits := by
  have hplus : ¬isWhitespace '+' = true := by decide
  obtain ⟨c, cs, hcons, hc⟩ := hdigits.exists_cons
  have hhead : ∃ d ds, sign ++ digits = d :: ds ∧ ¬isWhitespace d = true := by
    rcases hsign with rfl | rfl | rfl
    · exact ⟨c, cs, hcons, not_isWhitespace_of_isDigit hc⟩
    · exact ⟨_, _, rfl, hplus⟩
    · exact ⟨_, _, rfl, hplus⟩
  obtain ⟨d, ds, hrest, hd⟩ := hhead
  rw [hrest, List.takeWhile_append_of_pos hblanks, List.dropWhile_append_of_pos hblanks,
    List.takeWhile_cons_of_neg hd, List.dropWhile_cons_of_neg hd, List.append_nil]
  exact ⟨rfl, rfl⟩

/-- What `strtoul` reads : a number behind white space and up to two plus signs. -/
theorem strtoul_eq_ok_iff {s : String} {v : UInt32} : UriUtils.strtoul s = (true, v) ↔
    ∃ blanks sign digits : List Char, s.toList = blanks ++ (sign ++ digits) ∧
      (∀ c ∈ blanks, isWhitespace c = true) ∧
      (sign = [] ∨ sign = ['+'] ∨ sign = ['+', '+']) ∧ Decimal digits v := by
  constructor
  · intro h
    unfold UriUtils.strtoul at h
    split at h
    · cases h
    dsimp only at h
    obtain ⟨plus, hplus, hsign⟩ := exists_plus (s.toList.dropWhile isWhitespace)
    generalize (if (s.toList.dropWhile isWhitespace).head? = some '+' then
      (s.toList.dropWhile isWhitespace).tail else s.toList.dropWhile isWhitespace) = stripped at h hplus
    split at h
    · cases h
    split at h
    · next hparse =>
      obtain ⟨sign, digits, rfl, hsign', hdigits⟩ := parseU32_eq_some_iff.mp hparse
      obtain rfl := (Prod.mk.inj h).2
      refine ⟨s.toList.takeWhile isWhitespace, plus ++ sign, digits, ?_,
        fun c hc => List.mem_takeWhile_imp hc, ?_, hdigits⟩
      · rw [List.append_assoc, ← hplus, List.takeWhile_append_dropWhile]
      · rcases hsign with rfl | rfl <;> rcases hsign' with rfl | rfl <;> simp
    · cases h
  · rintro ⟨blanks, sign, digits, hs, hblanks, hsign, hdigits⟩
    obtain ⟨c, cs, hcons, hc⟩ := hdigits.exists_cons
    have hne : s ≠ "" := by
      rintro rfl
      rw [hcons] at hs
      simp at hs
    have htrim := (parts_of_blanks hblanks hsign hdigits).2
    rw [← hs] at htrim
    have hdone {stripped : List Char} (hstripped : stripped ≠ [])
        (hstrip : (if (sign ++ digits).head? = some '+' then (sign ++ digits).tail
          else sign ++ digits) = stripped) (hparse : UriUtils.parseU32 stripped = some v) :
        UriUtils.strtoul s = (true, v) := by
      unfold UriUtils.strtoul
      rw [if_neg hne]
      dsimp only
      rw [htrim, hstrip, if_neg hstripped, hparse]
    rcases hsign with rfl | rfl | rfl
    · refine hdone hdigits.1 ?_ (parseU32_of_digits hdigits)
      rw [hcons]
      exact if_neg (by simpa using ne_plus_of_isDigit hc)
    · exact hdone hdigits.1 (if_pos rfl) (parseU32_of_digits hdigits)
    · exact hdone (List.cons_ne_nil '+' digits) (if_pos rfl)
        (parseU32_eq_some_iff.mpr ⟨['+'], digits, rfl, .inr rfl, hdigits⟩)

/-- Nothing but the unsigned numbers is read, exactly if the text is not one of the lenient ones. -/
theorem strtoul_exact_iff (s : String) :
    (∀ v, UriUtils.strtoul s = (true, v) ↔ IsUnsigned s v) ↔ ¬IsLenient s := by
  constructor
  · rintro hexact ⟨blanks, sign, digits, v, hs, hblanks, hdigits, hkind⟩
    have hsign : sign = [] ∨ sign = ['+'] ∨ sign = ['+', '+'] := by tauto
    obtain ⟨blanks', sign', digits', hs', hblanks', hsign', hdigits'⟩ :=
      (hexact v).mp (strtoul_eq_ok_iff.mpr ⟨blanks, sign, digits, hs, hblanks, hsign, hdigits⟩)
    have hparts := parts_of_blanks hblanks hsign hdigits
    have hparts' := parts_of_blanks (fun c hc => (hblanks' c hc).2) (hsign'.imp_right .inl) hdigits'
    rw [← hs] at hparts
    rw [← hs'] at hparts'
    obtain rfl : blanks = blanks' := hparts.1.symm.trans hparts'.1
    have hrest : sign ++ digits = sign' ++ digits' := hparts.2.symm.trans hparts'.2
    rcases hkind with rfl | ⟨-, c, hc, hge⟩
    · obtain ⟨c, cs, rfl, hdigit⟩ := hdigits'.exists_cons
      refine ne_plus_of_isDigit hdigit ?_
      rcases hsign' with rfl | rfl
      · exact (List.cons.inj hrest).1.symm
      · exact (List.cons.inj (List.cons.inj hrest).2).1.symm
    · exact absurd (hblanks' c hc).1 (Nat.not_lt.mpr hge)
  · intro hlenient v
    constructor
    · intro h
      obtain ⟨blanks, sign, digits, hs, hblanks, hsign, hdigits⟩ := strtoul_eq_ok_iff.mp h
      have hone : sign = [] ∨ sign = ['+'] := by
        rcases hsign with rfl | rfl | rfl
        · exact .inl rfl
        · exact .inr rfl
        · exact absurd ⟨blanks, _, digits, v, hs, hblanks, hdigits, .inl rfl⟩ hlenient
      refine ⟨blanks, sign, digits, hs, fun c hc => ⟨?_, hblanks c hc⟩, hone, hdigits⟩
      by_contra hge
      exact hlenient ⟨blanks, sign, digits, v, hs, hblanks, hdigits,
        .inr ⟨hone, c, hc, Nat.le_of_not_lt hge⟩⟩
    · rintro ⟨blanks, sign, digits, hs, hblanks, hsign, hdigits⟩
      exact strtoul_eq_ok_iff.mpr ⟨blanks, sign, digits, hs, fun c hc => (hblanks c hc).2,
        hsign.imp_right .inl, hdigits⟩

/-- Two plus signs. -/
theorem strtoul_plus_plus :
    ¬∀ v, UriUtils.strtoul "++5" = (true, v) ↔ IsUnsigned "++5" v := by
  intro h
  have hread : UriUtils.strtoul "++5" = (true, 5) := by decide +kernel
  obtain ⟨blanks, sign, digits, hs, hblanks, hsign, hdigits⟩ := (h 5).mp hread
  obtain ⟨c, cs, rfl, hc⟩ := hdigits.exists_cons
  have htext : "++5".toList = ['+', '+', '5'] := by decide
  rw [htext] at hs
  rcases blanks with - | ⟨b, blanks⟩
  · rcases hsign with rfl | rfl
    · exact ne_plus_of_isDigit hc (List.cons.inj hs).1.symm
    · exact ne_plus_of_isDigit hc (List.cons.inj (List.cons.inj hs).2).1.symm
  · obtain rfl : '+' = b := (List.cons.inj hs).1
    exact absurd (hblanks '+' List.mem_cons_self).2 (by decide)

end Rust

end DataShare
