import DataShare.CppBuffer
import DataShare.IntegerTexts
import DataShare.OrderedMap

/-!
# Ids in uris

`GetUserFromUri` takes the user from the query of a uri, and `GetSystemAbilityId` the id behind
`/SAID=`. Both read it with `Strtoul`, which hands a `strtoul` of 64 bits on as a `uint32_t`.

`Misread` : a text that is taken for an id it does not stand for. It is a negative number or one
of `2 ^ 32` or more that is an id modulo `2 ^ 32`, or a number behind blanks or in front of a NUL.
On all other texts an id is the number in the uri (`ids_of_uri_iff`).
-/

namespace DataShare

namespace Cpp

namespace DataShareURIUtils

/-! ## Numbers -/

/-- `c_str`, up to its first NUL. -/
def cText (str : StdString) : StdString :=
  str.takeWhile (· ≠ 0)

/-- `end == str` compares the texts, and `data` is an `unsigned long` until it is returned. -/
def strtoul (str : StdString) : Bool × UInt32 :=
  if str = [] then (false, 0)
  else
    let (data, range, rest) := DataShare.strtoul (cText str)
    if range ∨ rest = str ∨ rest ≠ [] then (false, data.toUInt32)
    else (true, data.toUInt32)

/-! ## The query -/

/-- The loop over the query, on what is left of it. -/
def queryLoop : ℕ → StdString → OrderedMap StdString StdString → OrderedMap StdString StdString
  | 0, _, params => params
  | n + 1, rest, params =>
    if rest = [] then params
    else
      let param := rest.takeWhile (· ≠ 38)
      let next := rest.drop (param.length + 1)
      if 61 ∈ param then
        queryLoop n next
          (params.assign (param.takeWhile (· ≠ 61)) ((param.dropWhile (· ≠ 61)).drop 1))
      else queryLoop n next params

/-- A round of the loop takes a byte or more. -/
def getQueryParams (uri : StdString) : OrderedMap StdString StdString :=
  if 63 ∈ uri then
    let queryParams := (uri.dropWhile (· ≠ 63)).drop 1
    queryLoop queryParams.length queryParams .empty
  else .empty

def userParam : StdString := utf8Bytes "user"

def getUserFromUri (uri : StdString) : Bool × Int32 :=
  let user := ((getQueryParams uri).find? userParam).getD []
  if user = [] then (true, -1)
  else
    let (success, data) := strtoul user
    if !success then (false, -1)
    else if data < 0 ∨ data.toNat > 2 ^ 31 - 1 then (false, -1)
    else (true, data.toInt32)

/-! ## The ability -/

/-- `find`, of a text that is not empty. -/
def findText (pattern : StdString) : StdString → Option ℕ
  | [] => none
  | c :: s => if pattern.isPrefixOf (c :: s) then some 0 else (findText pattern s).map (· + 1)

def saNonSilentSchema : StdString := utf8Bytes "datashare://"

def saId : StdString := utf8Bytes "/SAID="

/-- `LAST_SYS_ABILITY_ID`. -/
def lastSysAbilityId : UInt32 := 0x00ffffff

def getSystemAbilityId (uri : StdString) : Bool × Int32 :=
  if findText saNonSilentSchema uri ≠ some 0 then (false, -1)
  else
    match findText saId uri with
    | none => (false, -1)
    | some saIdPos =>
      if saIdPos ≤ saNonSilentSchema.length then (false, -1)
      else
        let saIdStr := (uri.drop (saIdPos + saId.length)).takeWhile (· ≠ 47)
        if saIdStr = [] then (false, -1)
        else
          let (res, saId) := strtoul saIdStr
          if !res ∨ saId > lastSysAbilityId then (false, -1)
          else (true, saId.toInt32)

/-! ## The texts of the ids -/

/-- The value that a parameter gives the key, if it is one of the key. -/
def valueFor (key param : StdString) : Option StdString :=
  if 61 ∈ param ∧ param.takeWhile (· ≠ 61) = key then some ((param.dropWhile (· ≠ 61)).drop 1)
  else none

/-- The parameters of a uri. -/
def queryOf (uri : StdString) : List StdString :=
  ((uri.dropWhile (· ≠ 63)).drop 1).splitOn 38

/-- The text of the user : the value of the last parameter that has it. -/
def userText (uri : StdString) : StdString :=
  ((queryOf uri).reverse.findSome? (valueFor userParam)).getD []

/-- The text of the ability : what follows the first `/SAID=`, up to the next separator. -/
def saIdText (uri : StdString) : Option StdString :=
  if findText saNonSilentSchema uri ≠ some 0 then none
  else
    (findText saId uri).bind fun saIdPos =>
      if saIdPos ≤ saNonSilentSchema.length then none
      else some ((uri.drop (saIdPos + saId.length)).takeWhile (· ≠ 47))

theorem dropWhile_ne_cases (d : UInt8) (s : StdString) :
    s.dropWhile (· ≠ d) = [] ∨ ∃ t, s.dropWhile (· ≠ d) = d :: t := by
  rcases hdrop : s.dropWhile (· ≠ d) with - | ⟨c, t⟩
  · exact .inl rfl
  · have hne : s.dropWhile (· ≠ d) ≠ [] := hdrop ▸ List.cons_ne_nil c t
    have hhead := List.head_dropWhile_not (· ≠ d) hne
    simp only [hdrop, List.head_cons] at hhead
    obtain rfl : c = d := by simpa using hhead
    exact .inr ⟨t, rfl⟩

/-- The first parameter, and the others : none where there is no separator. -/
theorem findSome?_splitOn {β : Type} {f : StdString → Option β} (hf : f [] = none)
    (rest : StdString) : (rest.splitOn 38).reverse.findSome? f =
      (((rest.drop ((rest.takeWhile (· ≠ 38)).length + 1)).splitOn 38).reverse.findSome? f).or
        (f (rest.takeWhile (· ≠ 38))) := by
  have hsplit : rest = rest.takeWhile (· ≠ 38) ++ rest.dropWhile (· ≠ 38) :=
    List.takeWhile_append_dropWhile.symm
  have hparam : (38 : UInt8) ∉ rest.takeWhile (· ≠ 38) := fun hmem => by
    simpa using List.mem_takeWhile_imp hmem
  generalize rest.takeWhile (· ≠ 38) = param at hsplit hparam ⊢
  rcases dropWhile_ne_cases 38 rest with hdrop | ⟨next, hdrop⟩
  · rw [hdrop, List.append_nil] at hsplit
    subst hsplit
    rw [List.splitOn_eq_singleton hparam, List.drop_eq_nil_of_le (by omega)]
    simp [hf]
  · have hnext : (param ++ 38 :: next).drop (param.length + 1) = next := by simp
    rw [hdrop] at hsplit
    subst hsplit
    rw [hnext, List.splitOn_append_cons_self_of_not_mem hparam, List.reverse_cons,
      List.findSome?_append]
    simp

/-- The loop keeps the last value of each key. -/
theorem find?_queryLoop (key : StdString) : ∀ (n : ℕ) (rest : StdString)
    (params : OrderedMap StdString StdString), rest.length ≤ n →
    (queryLoop n rest params).find? key =
      ((rest.splitOn 38).reverse.findSome? (valueFor key)).or (params.find? key)
  | n, [], params, _ => by
    have hempty : queryLoop n [] params = params := by cases n <;> simp [queryLoop]
    rw [hempty]
    simp [valueFor]
  | n + 1, c :: s, params, hlen => by
    have hnext := List.length_drop (i := ((c :: s).takeWhile (· ≠ 38)).length + 1) (l := c :: s)
    rw [queryLoop, if_neg (List.cons_ne_nil c s), findSome?_splitOn (by simp [valueFor])]
    dsimp only
    generalize (c :: s).takeWhile (· ≠ 38) = param at hnext ⊢
    rw [List.length_cons] at hlen hnext
    have hfirst : ∀ params : OrderedMap StdString StdString,
        (queryLoop n ((c :: s).drop (param.length + 1)) params).find? key =
          ((((c :: s).drop (param.length + 1)).splitOn 38).reverse.findSome? (valueFor key)).or
            (params.find? key) :=
      fun params => find?_queryLoop key n _ params (by omega)
    rw [Option.or_assoc]
    split
    · next hparam =>
      rw [hfirst, OrderedMap.find?_assign, valueFor]
      by_cases hkey : param.takeWhile (· ≠ 61) = key
      · subst hkey
        simp [hparam]
      · have hne : compare key (param.takeWhile (· ≠ 61)) ≠ .eq := fun h =>
          hkey (Std.LawfulEqCmp.eq_of_compare h).symm
        rw [if_neg hne, if_neg (fun h => hkey h.2), Option.none_or]
    · next hparam =>
      rw [hfirst, valueFor, if_neg (fun h => hparam h.1), Option.none_or]

theorem find?_getQueryParams (uri : StdString) :
    ((getQueryParams uri).find? userParam).getD [] = userText uri := by
  unfold getQueryParams userText queryOf
  split
  · rw [find?_queryLoop _ _ _ _ le_rfl]
    simp [OrderedMap.find?_empty]
  · next hquery =>
    have hdrop : uri.dropWhile (· ≠ 63) = [] :=
      List.dropWhile_eq_nil_iff.mpr fun c hc => by
        simpa using fun heq : c = 63 => hquery (heq ▸ hc)
    rw [hdrop]
    rfl

/-! ## What is taken for a number -/

/-- `v` is the number that the text stands for behind blanks and up to a NUL, or 0 where it
starts with a NUL. -/
def Taken (text : StdString) (v : ℤ) : Prop :=
  ∃ sp num tail, text = sp ++ num ++ tail ∧ (∀ c ∈ sp, isBlank c = true) ∧
    (tail = [] ∨ tail.head? = some 0) ∧
    ((decimal num = some v ∧ v.natAbs < 2 ^ 64) ∨ (sp = [] ∧ num = [] ∧ text ≠ [] ∧ v = 0))

/-- A text that is taken for a number up to `limit`, and is not that number. -/
def Misread (limit : ℕ) (text : StdString) : Prop :=
  ∃ v, Taken text v ∧ v % 2 ^ 32 ≤ limit ∧ ¬(decimal text = some v ∧ 0 ≤ v ∧ v < 2 ^ 32)

theorem mem_takeSign {c : UInt8} {s : StdString} (h : c ∈ s) (hminus : c ≠ 45) (hplus : c ≠ 43) :
    c ∈ (takeSign s).2 := by
  rcases s with - | ⟨d, s⟩
  · cases h
  rw [takeSign_cons]
  split
  · next hd => exact (List.mem_cons.mp h).resolve_left fun hc => hminus (hc.trans hd)
  split
  · next hd => exact (List.mem_cons.mp h).resolve_left fun hc => hplus (hc.trans hd)
  · exact h

/-- A decimal integer has digits and a sign only. -/
theorem isDigit_of_mem_decimal {s : StdString} {v : ℤ} (h : decimal s = some v) {c : UInt8}
    (hc : c ∈ s) : c = 45 ∨ c = 43 ∨ isDigitIn 10 c = true := by
  by_cases hminus : c = 45
  · exact .inl hminus
  by_cases hplus : c = 43
  · exact .inr (.inl hplus)
  · exact .inr (.inr ((decimal_eq_some_iff.mp h).1.2 c (mem_takeSign hc hminus hplus)))

theorem isBlank_ne {c : UInt8} (h : isBlank c = true) : c ≠ 45 ∧ c ≠ 43 ∧ c ≠ 0 := by
  refine ⟨?_, ?_, ?_⟩ <;>
  · rintro rfl
    exact absurd h (by decide)

theorem ne_zero_of_mem_decimal {s : StdString} {v : ℤ} (h : decimal s = some v) {c : UInt8}
    (hc : c ∈ s) : c ≠ 0 := by
  rintro rfl
  rcases isDigit_of_mem_decimal h hc with h | h | h <;> exact absurd h (by decide)

/-- A decimal integer is taken for itself only. -/
theorem Taken.eq_of_decimal {text : StdString} {v u : ℤ} (h : Taken text v)
    (hu : decimal text = some u) : v = u := by
  obtain ⟨sp, num, tail, rfl, hsp, htail, hv⟩ := h
  obtain rfl : sp = [] := by
    refine List.eq_nil_iff_forall_not_mem.mpr fun c hc => ?_
    obtain ⟨hminus, hplus, -⟩ := isBlank_ne (hsp c hc)
    rcases isDigit_of_mem_decimal hu (c := c) (by simp [hc]) with h | h | h
    · exact hminus h
    · exact hplus h
    · exact absurd (not_isBlank_of_isDigit h) (by rw [hsp c hc]; exact Bool.noConfusion)
  obtain rfl : tail = [] := htail.resolve_right fun hhead =>
    ne_zero_of_mem_decimal hu (List.mem_append_right _ (List.mem_of_head? hhead)) rfl
  rw [List.nil_append, List.append_nil] at hu
  rcases hv with ⟨hv, -⟩ | ⟨-, rfl, -, -⟩
  · exact Option.some.inj (hv.symm.trans hu)
  · cases hu

theorem toNat_ofInt (v : ℤ) : ((UInt32.ofInt v).toNat : ℤ) = v % 2 ^ 32 := by
  have hnonneg := Int.emod_nonneg v (by decide : (2 ^ 32 : ℤ) ≠ 0)
  have hlt := Int.emod_lt_of_pos v (by decide : (0 : ℤ) < 2 ^ 32)
  rw [UInt32.ofInt, UInt32.toNat_ofNat', Nat.mod_eq_of_lt (by omega), Int.toNat_of_nonneg hnonneg]

theorem toUInt32_ofInt (v : ℤ) : (UInt64.ofInt v).toUInt32 = .ofInt v := by
  apply UInt32.toNat_inj.mp
  have h := toNat_ofInt v
  rw [UInt64.toNat_toUInt32, UInt64.ofInt, UInt64.toNat_ofNat']
  omega

/-- The C text of what is up to a NUL. -/
theorem cText_append {s tail : StdString} (hs : ∀ c ∈ s, c ≠ 0)
    (htail : tail = [] ∨ tail.head? = some 0) : cText (s ++ tail) = s := by
  rw [cText, List.takeWhile_append_of_pos (by simpa using hs)]
  rcases tail with - | ⟨c, tail⟩
  · rw [List.takeWhile_nil, List.append_nil]
  · obtain rfl : c = 0 := by simpa using htail
    simp

theorem strtoul_of_cText {text : StdString} (hne : text ≠ []) {data : UInt64}
    (h : DataShare.strtoul (cText text) = (data, false, [])) :
    strtoul text = (true, data.toUInt32) := by
  rw [strtoul, if_neg hne, h]
  simp [hne.symm]

theorem strtoul_eq_ok_iff {text : StdString} {w : UInt32} :
    strtoul text = (true, w) ↔ ∃ v, Taken text v ∧ w = .ofInt v := by
  constructor
  · intro h
    have hne : text ≠ [] := by
      rintro rfl
      cases h
    obtain ⟨data, range, rest, hrun⟩ : ∃ data range rest,
        DataShare.strtoul (cText text) = (data, range, rest) := ⟨_, _, _, rfl⟩
    rw [strtoul, if_neg hne, hrun] at h
    dsimp only at h
    split at h
    · cases h
    next hok =>
    rw [not_or, not_or, not_not] at hok
    obtain ⟨hrange, -, rfl⟩ := hok
    obtain rfl : range = false := Bool.eq_false_iff.mpr hrange
    obtain rfl : data.toUInt32 = w := congrArg Prod.snd h
    have hsplit : text = cText text ++ text.dropWhile (· ≠ 0) :=
      List.takeWhile_append_dropWhile.symm
    have htail : text.dropWhile (· ≠ 0) = [] ∨ (text.dropWhile (· ≠ 0)).head? = some 0 :=
      (dropWhile_ne_cases 0 text).imp_right (by rintro ⟨t, ht⟩; rw [ht, List.head?_cons])
    by_cases hempty : cText text = []
    · rw [hempty] at hrun hsplit
      obtain rfl : (0 : UInt64) = data := congrArg Prod.fst hrun
      exact ⟨0, ⟨[], [], _, hsplit, by simp, htail, .inr ⟨rfl, rfl, hne, rfl⟩⟩, rfl⟩
    · obtain ⟨sp, num, v, hc, hsp, hnum, hrange, rfl⟩ := (strtoul_eq_iff hempty).mp hrun
      rw [hc] at hsplit
      exact ⟨v, ⟨sp, num, _, hsplit, hsp, htail, .inl ⟨hnum, hrange⟩⟩, toUInt32_ofInt v⟩
  · rintro ⟨v, ⟨sp, num, tail, rfl, hsp, htail, ⟨hnum, hrange⟩ | ⟨rfl, rfl, hne, rfl⟩⟩, rfl⟩
    · have hchars : ∀ c ∈ sp ++ num, c ≠ 0 := by
        intro c hc
        rcases List.mem_append.mp hc with hc | hc
        · exact (isBlank_ne (hsp c hc)).2.2
        · exact ne_zero_of_mem_decimal hnum hc
      have hnum_ne : num ≠ [] := by
        rintro rfl
        cases hnum
      have hne : sp ++ num ≠ [] := List.append_ne_nil_of_right_ne_nil _ hnum_ne
      rw [← toUInt32_ofInt]
      refine strtoul_of_cText (List.append_ne_nil_of_left_ne_nil hne _) ?_
      rw [cText_append hchars htail]
      exact (strtoul_eq_iff hne).mpr ⟨sp, num, v, rfl, hsp, hnum, hrange, rfl⟩
    · have hrun : DataShare.strtoul (cText ([] ++ [] ++ tail)) = (0, false, []) := by
        rw [cText_append (by simp) htail]
        rfl
      exact strtoul_of_cText hne hrun

/-- A text that is not misread is the number it is taken for. -/
theorem decimal_of_strtoul_iff {limit : ℕ} {text : StdString} :
    (∀ w, strtoul text = (true, w) → w.toNat ≤ limit → decimal text = some (w.toNat : ℤ)) ↔
      ¬Misread limit text := by
  constructor
  · rintro h ⟨v, hv, hle, hnot⟩
    have hw := toNat_ofInt v
    have hdec := h _ (strtoul_eq_ok_iff.mpr ⟨v, hv, rfl⟩) (by omega)
    have hsame := hv.eq_of_decimal hdec
    have hlt := (UInt32.ofInt v).toNat_lt
    exact hnot ⟨hsame ▸ hdec, by omega, by omega⟩
  · intro h w hw hle
    obtain ⟨v, hv, rfl⟩ := strtoul_eq_ok_iff.mp hw
    have hcast := toNat_ofInt v
    by_contra hdec
    refine h ⟨v, hv, by omega, ?_⟩
    rintro ⟨hv', hnonneg, hlt⟩
    rw [Int.emod_eq_of_lt hnonneg (by omega)] at hcast
    exact hdec (by rw [hcast, hv'])

/-! ## The two functions -/

theorem toInt_toInt32 {w : UInt32} (h : w.toNat < 2 ^ 31) : w.toInt32.toInt = w.toNat := by
  have hcast : w.toInt32.toUInt32 = w := UInt32.toUInt32_toInt32 w
  have hint := toInt_eq_toNat (x := w.toInt32) (by rwa [hcast])
  rwa [hcast] at hint

theorem getUserFromUri_eq_ok_iff {uri : StdString} {n : Int32} (h : userText uri ≠ []) :
    getUserFromUri uri = (true, n) ↔
      ∃ w, strtoul (userText uri) = (true, w) ∧ w.toNat ≤ 2 ^ 31 - 1 ∧ w.toInt32 = n := by
  rw [getUserFromUri, find?_getQueryParams]
  dsimp only
  rw [if_neg h]
  obtain ⟨success, data, hrun⟩ : ∃ success data, strtoul (userText uri) = (success, data) :=
    ⟨_, _, rfl⟩
  rw [hrun]
  have hneg : ¬data < 0 := UInt32.not_lt.mpr UInt32.zero_le
  cases success with
  | false => simp
  | true =>
    rw [Bool.not_true, if_neg Bool.false_ne_true]
    by_cases hrange : data.toNat ≤ 2 ^ 31 - 1
    · rw [if_neg (by rw [not_or]; exact ⟨hneg, Nat.not_lt.mpr hrange⟩)]
      simpa using fun _ => hrange
    · rw [if_pos (.inr (Nat.not_le.mp hrange))]
      simpa using fun hle => absurd hle hrange

theorem getSystemAbilityId_eq_ok_iff {uri : StdString} {n : Int32} :
    getSystemAbilityId uri = (true, n) ↔ ∃ text, saIdText uri = some text ∧
      ∃ w, strtoul text = (true, w) ∧ w.toNat ≤ 0x00ffffff ∧ w.toInt32 = n := by
  unfold getSystemAbilityId saIdText
  by_cases hschema : findText saNonSilentSchema uri ≠ some 0
  · rw [if_pos hschema, if_pos hschema]
    simp
  rw [if_neg hschema, if_neg hschema]
  rcases findText saId uri with - | saIdPos
  · simp
  dsimp only
  rw [Option.bind_some]
  by_cases hpos : saIdPos ≤ saNonSilentSchema.length
  · rw [if_pos hpos, if_pos hpos]
    simp
  rw [if_neg hpos, if_neg hpos]
  simp only [Option.some.injEq, exists_eq_left']
  generalize (uri.drop (saIdPos + saId.length)).takeWhile (· ≠ 47) = text
  by_cases hempty : text = []
  · rw [if_pos hempty, hempty, strtoul, if_pos rfl]
    simp
  rw [if_neg hempty]
  obtain ⟨res, data, hrun⟩ : ∃ res data, strtoul text = (res, data) := ⟨_, _, rfl⟩
  rw [hrun]
  have hlast : data > lastSysAbilityId ↔ ¬data.toNat ≤ 0x00ffffff := by
    rw [not_le]
    exact UInt32.lt_iff_toNat_lt
  cases res with
  | false => simp
  | true =>
    dsimp only
    rw [Bool.not_true]
    by_cases hrange : data.toNat ≤ 0x00ffffff
    · rw [if_neg (by simpa [hlast] using hrange)]
      simpa using fun _ => hrange
    · rw [if_pos (.inr (hlast.mpr hrange))]
      simpa using fun hle => absurd hle hrange

/-- An id that is given is the number its text stands for, exactly if the text is not misread. -/
theorem ids_of_uri_iff (uri : StdString) :
    ((∀ n, getUserFromUri uri = (true, n) → userText uri ≠ [] →
        decimal (userText uri) = some n.toInt) ↔ ¬Misread (2 ^ 31 - 1) (userText uri)) ∧
    ((∀ n, getSystemAbilityId uri = (true, n) →
        ∃ text, saIdText uri = some text ∧ decimal text = some n.toInt) ↔
      ∀ text, saIdText uri = some text → ¬Misread 0x00ffffff text) := by
  constructor
  · rw [← decimal_of_strtoul_iff]
    constructor
    · intro h w hw hle
      have hne : userText uri ≠ [] := fun hnil => by
        rw [hnil] at hw
        cases hw
      have hn := h _ ((getUserFromUri_eq_ok_iff hne).mpr ⟨w, hw, hle, rfl⟩) hne
      rwa [toInt_toInt32 (by omega)] at hn
    · intro h n hn hne
      obtain ⟨w, hw, hle, rfl⟩ := (getUserFromUri_eq_ok_iff hne).mp hn
      rw [toInt_toInt32 (by omega)]
      exact h w hw hle
  · constructor
    · intro h text htext
      rw [← decimal_of_strtoul_iff]
      intro w hw hle
      obtain ⟨text', htext', hdec⟩ :=
        h _ (getSystemAbilityId_eq_ok_iff.mpr ⟨text, htext, w, hw, hle, rfl⟩)
      obtain rfl : text = text' := Option.some.inj (htext.symm.trans htext')
      rwa [toInt_toInt32 (by omega)] at hdec
    · intro h n hn
      obtain ⟨text, htext, w, hw, hle, rfl⟩ := getSystemAbilityId_eq_ok_iff.mp hn
      refine ⟨text, htext, ?_⟩
      rw [toInt_toInt32 (by omega)]
      exact decimal_of_strtoul_iff.mpr (h text htext) w hw hle

/-- The user `2 ^ 32 + 100` is taken for the user 100. -/
theorem user_wraps :
    ¬∀ n, getUserFromUri (utf8Bytes "datashare:///com.a?user=4294967396") = (true, n) →
      userText (utf8Bytes "datashare:///com.a?user=4294967396") ≠ [] →
      decimal (userText (utf8Bytes "datashare:///com.a?user=4294967396")) = some n.toInt := by
  intro h
  have hdec := h 100 (by decide +kernel) (by decide +kernel)
  exact absurd hdec (by decide +kernel)

end DataShareURIUtils

end Cpp

end DataShare
