import DataShare.History
import DataShare.OrderedMap

/-!
# The cache of bundle configurations

`BundleConfig::load` keeps what the bundle manager answers in a map, under the name of the
bundle, the user and the index of the clone, written one after the other. No character stands
between the name and the user, so the keys of two bundles are the same if one name is the other
one with the first digits of a number behind it (`makeCacheKey_eq_iff`).

A pointer to a configuration is the number of the query that it is the answer to. Every load
gives the configuration of its own bundle, and every `delete` takes that one out only, exactly
as long as no bundle with the same key is in the cache (`ownConfigs_iff`).
-/

namespace DataShare

namespace BundleConfig

structure BundleId where
  bundleName : String
  userId : Int32
  appIndex : Int32
deriving DecidableEq

/-- A number as `format!` writes it. -/
def decimal (n : Int32) : String :=
  toString n.toInt

def makeCacheKey (id : BundleId) : String :=
  if id.appIndex ≠ 0 then id.bundleName ++ decimal id.userId ++ "appIndex" ++ decimal id.appIndex
  else id.bundleName ++ decimal id.userId

/-! ## Numbers -/

/-- The characters of a number. -/
def digits (n : Int32) : List Char :=
  (decimal n).toList

theorem toList_decimal (n : Int32) :
    digits n = if n.toInt < 0 then '-' :: Nat.toDigits 10 n.toInt.natAbs
      else Nat.toDigits 10 n.toInt.natAbs := by
  rw [digits, decimal]
  cases n.toInt with
  | ofNat k =>
    rw [if_neg (by simp)]
    show k.repr.toList = _
    rw [Nat.toList_repr]
    rfl
  | negSucc k =>
    rw [if_pos (Int.negSucc_lt_zero k)]
    show ("-" ++ (k + 1).repr).toList = _
    rw [String.toList_append, Nat.toList_repr]
    rfl

theorem minus_notMem_toDigits (n : ℕ) : '-' ∉ Nat.toDigits 10 n := by
  intro h
  have hdigit := Nat.isDigit_of_mem_toDigits (by decide) (by decide) h
  exact absurd hdigit (by decide)

theorem toDigits_inj {m n : ℕ} (h : Nat.toDigits 10 m = Nat.toDigits 10 n) : m = n := by
  rw [← @Nat.ofDigitChars_ten_toDigits m, h, Nat.ofDigitChars_ten_toDigits]

/-- The sign and the digits give the number. -/
theorem digits_inj {m n : Int32} (h : digits m = digits n) : m = n := by
  refine Int32.toInt_inj.mp ?_
  rw [toList_decimal, toList_decimal] at h
  split at h
  · next hm =>
    split at h
    · next hn =>
      have habs := toDigits_inj (List.cons.inj h).2
      omega
    · exact absurd (h ▸ List.mem_cons_self) (minus_notMem_toDigits _)
  · next hm =>
    split at h
    · exact absurd (h ▸ List.mem_cons_self) (minus_notMem_toDigits _)
    · next hn =>
      have habs := toDigits_inj h
      omega

/-- No character of `appIndex` is in a number. -/
theorem notMem_digits {c : Char} (hc : c.isDigit = false) (hminus : c ≠ '-') (n : Int32) :
    c ∉ digits n := by
  intro h
  have hnot : c ∉ Nat.toDigits 10 n.toInt.natAbs := by
    intro hmem
    have hdigit := Nat.isDigit_of_mem_toDigits (by decide) (by decide) hmem
    exact Bool.noConfusion (hc.symm.trans hdigit)
  rw [toList_decimal] at h
  split at h
  · rcases List.mem_cons.mp h with heq | hmem
    · exact hminus heq
    · exact hnot hmem
  · exact hnot h

/-! ## Keys -/

def appIndexMark : List Char :=
  ['a', 'p', 'p', 'I', 'n', 'd', 'e', 'x']

theorem toList_appIndex : "appIndex".toList = appIndexMark := by
  decide +kernel

/-- What stands behind the name in a key. -/
def keySuffix (id : BundleId) : List Char :=
  if id.appIndex ≠ 0 then digits id.userId ++ (appIndexMark ++ digits id.appIndex)
  else digits id.userId

theorem toList_makeCacheKey (id : BundleId) :
    (makeCacheKey id).toList = id.bundleName.toList ++ keySuffix id := by
  rw [makeCacheKey, keySuffix]
  split
  · simp only [String.toList_append, digits, toList_appIndex, List.append_assoc]
  · simp only [String.toList_append, digits]

/-- The name of `other` is the name of `id` with more behind it : the first characters of its
user, or its user, `appIndex` and the first characters of its index. What is left of the number
is the user of `other`. -/
def BundleId.ExtendedBy (id other : BundleId) : Prop :=
  ∃ more, other.bundleName.toList = id.bundleName.toList ++ more ∧
    ((id.appIndex = other.appIndex ∧ digits id.userId = more ++ digits other.userId) ∨
      (id.appIndex ≠ 0 ∧ other.appIndex = 0 ∧ ∃ first,
        more = digits id.userId ++ (appIndexMark ++ first) ∧
          digits id.appIndex = first ++ digits other.userId))

theorem letter_notMem_digits (n : Int32) : 'a' ∉ digits n :=
  notMem_digits (by decide) (by decide) n

/-- The characters of `appIndex` end where a number begins. -/
theorem appIndexMark_append {n user : Int32} {more : List Char}
    (h : appIndexMark ++ digits n = more ++ digits user) :
    ∃ first, more = appIndexMark ++ first ∧ digits n = first ++ digits user := by
  rcases List.append_eq_append_iff.mp h with ⟨first, hmore, hdigits⟩ | ⟨rest, hmark, hdigits⟩
  · exact ⟨first, hmore, hdigits⟩
  · cases rest with
    | nil =>
      rw [List.append_nil] at hmark
      rw [List.nil_append] at hdigits
      exact ⟨[], by rw [List.append_nil, hmark], by rw [List.nil_append, hdigits]⟩
    | cons c rest =>
      -- `c` is a letter of the mark and a character of the user
      have hmark' : c ∈ appIndexMark := hmark ▸ List.mem_append_right _ List.mem_cons_self
      have hc : c.isDigit = false ∧ c ≠ '-' := by
        have hall : (appIndexMark.all fun d => decide (d.isDigit = false ∧ d ≠ '-')) = true := by
          decide
        exact of_decide_eq_true (List.all_eq_true.mp hall c hmark')
      have hmem : c ∈ digits user := hdigits ▸ List.mem_append_left _ List.mem_cons_self
      exact absurd hmem (notMem_digits hc.1 hc.2 user)

/-- The ways in which one name can be longer than the other. -/
theorem extendedBy_of_suffix {id other : BundleId} {more : List Char}
    (hname : other.bundleName.toList = id.bundleName.toList ++ more)
    (h : keySuffix id = more ++ keySuffix other) : id.ExtendedBy other := by
  refine ⟨more, hname, ?_⟩
  rw [keySuffix, keySuffix] at h
  by_cases hid : id.appIndex = 0
  · rw [if_neg (not_not.mpr hid)] at h
    by_cases hother : other.appIndex = 0
    · rw [if_neg (not_not.mpr hother)] at h
      exact Or.inl ⟨hid.trans hother.symm, h⟩
    · rw [if_pos hother] at h
      have hmem : 'a' ∈ digits id.userId := by
        rw [h]
        simp [appIndexMark]
      exact absurd hmem (letter_notMem_digits _)
  · rw [if_pos hid] at h
    by_cases hother : other.appIndex = 0
    · rw [if_neg (not_not.mpr hother)] at h
      refine Or.inr ⟨hid, hother, ?_⟩
      rcases List.append_eq_append_iff.mp h with ⟨rest, hmore, hrest⟩ | ⟨rest, -, hrest⟩
      · obtain ⟨first, hfirst, hdigits⟩ := appIndexMark_append hrest
        exact ⟨first, by rw [hmore, hfirst], hdigits⟩
      · have hmem : 'a' ∈ digits other.userId := by
          rw [hrest]
          simp [appIndexMark]
        exact absurd hmem (letter_notMem_digits _)
    · rw [if_pos hother] at h
      -- both are split at their first `a`, and `more` has none
      have hno : 'a' ∉ appIndexMark.tail ++ digits id.appIndex := by
        intro hmem
        rcases List.mem_append.mp hmem with hmem | hmem
        · exact absurd hmem (by decide)
        · exact letter_notMem_digits _ hmem
      have hsplit : digits id.userId ++ 'a' :: (appIndexMark.tail ++ digits id.appIndex) =
          (more ++ digits other.userId) ++ 'a' :: (appIndexMark.tail ++ digits other.appIndex) := by
        rw [List.append_assoc]
        exact h
      obtain ⟨huser, -, hindex⟩ :=
        (List.append_cons_inj_of_notMem (letter_notMem_digits _) hno).mp hsplit
      exact Or.inl ⟨digits_inj (List.append_cancel_left hindex), huser⟩

theorem BundleId.ExtendedBy.makeCacheKey_eq {id other : BundleId} (h : id.ExtendedBy other) :
    makeCacheKey id = makeCacheKey other := by
  obtain ⟨more, hname, hnumbers⟩ := h
  rw [← String.toList_inj, toList_makeCacheKey, toList_makeCacheKey, hname, List.append_assoc]
  congr 1
  rw [keySuffix, keySuffix]
  rcases hnumbers with ⟨hindex, huser⟩ | ⟨hid, hother, first, rfl, hindex⟩
  · rw [hindex, huser]
    split
    · rw [List.append_assoc]
    · rfl
  · rw [if_pos hid, if_neg (not_not.mpr hother), hindex]
    simp only [List.append_assoc]

/-- The key of two bundles is the same exactly if one name extends the other. -/
theorem makeCacheKey_eq_iff {id other : BundleId} :
    makeCacheKey id = makeCacheKey other ↔ id.ExtendedBy other ∨ other.ExtendedBy id := by
  constructor
  · intro h
    rw [← String.toList_inj, toList_makeCacheKey, toList_makeCacheKey] at h
    rcases List.append_eq_append_iff.mp h with ⟨more, hname, hsuffix⟩ | ⟨more, hname, hsuffix⟩
    · exact Or.inl (extendedBy_of_suffix hname hsuffix)
    · exact Or.inr (extendedBy_of_suffix hname hsuffix)
  · rintro (h | h)
    · exact h.makeCacheKey_eq
    · exact h.makeCacheKey_eq.symm

/-! ## The cache -/

/-- `CACHE`, from keys to pointers. It is `none` until something is put into it. -/
abbrev Cache := Option (OrderedMap String ℕ)

namespace Cache

def lookUp (cache : Cache) (key : String) : Option ℕ :=
  cache.bind (·.find? key)

/-- `get_or_insert_with` and `entry(key).or_insert(..)`. -/
def orInsert (cache : Cache) (key : String) (ptr : ℕ) : Cache :=
  some ((cache.getD .empty).insert key ptr)

def remove (cache : Cache) (key : String) : Cache :=
  cache.map (·.erase key)

@[simp] theorem lookUp_none (key : String) : lookUp none key = none :=
  rfl

theorem lookUp_orInsert (cache : Cache) (key k : String) (ptr : ℕ) :
    (cache.orInsert key ptr).lookUp k =
      if k = key then some ((cache.lookUp key).getD ptr) else cache.lookUp k := by
  show OrderedMap.find? k (OrderedMap.upsert key _ _) = _
  rw [OrderedMap.find?_upsert]
  simp only [Std.LawfulEqOrd.compare_eq_iff_eq]
  cases cache <;> rfl

theorem lookUp_remove (cache : Cache) (key k : String) :
    (cache.remove key).lookUp k = if k = key then none else cache.lookUp k := by
  cases cache with
  | none => simp [remove, lookUp]
  | some entries =>
    show OrderedMap.find? k (OrderedMap.erase key entries) = _
    rw [OrderedMap.find?_erase]
    simp only [Std.LawfulEqOrd.compare_eq_iff_eq]
    rfl

end Cache

/-- A query that BMS answered, and the code of its answer. -/
structure Query where
  id : BundleId
  resultCode : Int32
deriving DecidableEq

/-- The cache, and the queries so far, which the code does not keep. -/
structure Configs where
  cache : Cache
  queries : List Query

/-- A call, where `answer` is the code that BMS answers a query with, or no configuration. -/
inductive Call
  | load (id : BundleId) (answer : Option Int32)
  | delete (id : BundleId)
  | clearCache
deriving DecidableEq

namespace Configs

def initial : Configs where
  cache := none
  queries := []

/-- `BundleConfig::load`, with the pointer that it returns. -/
def load (s : Configs) (id : BundleId) (answer : Option Int32) : Configs × Option ℕ :=
  let key := makeCacheKey id
  match s.cache.lookUp key with
  | some ptr => (s, some ptr)
  | none =>
    match answer with
    | none => (s, none)
    | some code =>
      let ptr := s.queries.length
      let queries := s.queries ++ [⟨id, code⟩]
      if code = 0 then (⟨s.cache.orInsert key ptr, queries⟩, some ptr)
      else (⟨s.cache, queries⟩, some ptr)

def delete (s : Configs) (id : BundleId) : Configs :=
  { s with cache := s.cache.remove (makeCacheKey id) }

def clearCache (s : Configs) : Configs :=
  { s with cache := none }

def step (s : Configs) : Call → Configs
  | .load id answer => (s.load id answer).1
  | .delete id => s.delete id
  | .clearCache => s.clearCache

def after (calls : List Call) : Configs :=
  calls.foldl step initial

/-- The bundle of a configuration in the cache. -/
def Holds (s : Configs) (id : BundleId) : Prop :=
  ∃ key ptr q, s.cache.lookUp key = some ptr ∧ s.queries[ptr]? = some q ∧ q.id = id

/-- A load returns the configuration of its bundle, and `delete` takes out that of its bundle
and no other. -/
def OwnConfig (s : Configs) : Call → Prop
  | .load id answer =>
    ∀ ptr, (s.load id answer).2 = some ptr →
      ∃ q, (s.load id answer).1.queries[ptr]? = some q ∧ q.id = id
  | .delete id => ∀ other, (s.delete id).Holds other ↔ s.Holds other ∧ other ≠ id
  | .clearCache => ∀ other, ¬s.clearCache.Holds other

/-- No other bundle in the cache has a name that extends the name of this one, or is extended
by it. -/
def Apart (s : Configs) (id : BundleId) : Prop :=
  ∀ other, s.Holds other → other = id ∨ ¬(id.ExtendedBy other ∨ other.ExtendedBy id)

def Separate (s : Configs) : Call → Prop
  | .load id _ => s.Apart id
  | .delete id => s.Apart id
  | .clearCache => True

/-- Every configuration is under the key of its bundle. -/
def Keyed (s : Configs) : Prop :=
  ∀ key ptr, s.cache.lookUp key = some ptr → ∃ q, s.queries[ptr]? = some q ∧ makeCacheKey q.id = key

/-! ## What the cache holds -/

section Steps

variable {s : Configs} {id other : BundleId}

theorem Keyed.lookUp_isSome (h : s.Keyed) (hholds : s.Holds other) :
    ∃ ptr q, s.cache.lookUp (makeCacheKey other) = some ptr ∧ s.queries[ptr]? = some q ∧
      q.id = other := by
  obtain ⟨key, ptr, q, hlook, hq, rfl⟩ := hholds
  obtain ⟨q', hq', hkey⟩ := h key ptr hlook
  obtain rfl := Option.some.inj (hq.symm.trans hq')
  exact ⟨ptr, q, hkey ▸ hlook, hq, rfl⟩

/-- A load returns what is cached under its key. -/
theorem load_of_lookUp {answer : Option Int32} {ptr : ℕ}
    (h : s.cache.lookUp (makeCacheKey id) = some ptr) : s.load id answer = (s, some ptr) := by
  simp only [load, h]

/-- Else it returns what BMS answers, and caches that if it is no error. -/
theorem load_of_answer {code : Int32} (h : s.cache.lookUp (makeCacheKey id) = none) :
    s.load id (some code) =
      (⟨if code = 0 then s.cache.orInsert (makeCacheKey id) s.queries.length else s.cache,
        s.queries ++ [⟨id, code⟩]⟩, some s.queries.length) := by
  simp only [load, h]
  split <;> rfl

theorem load_of_null (h : s.cache.lookUp (makeCacheKey id) = none) :
    s.load id none = (s, none) := by
  simp only [load, h]

theorem Keyed.step (h : s.Keyed) (call : Call) : (s.step call).Keyed := by
  cases call with
  | load id answer =>
    show (s.load id answer).1.Keyed
    cases hlook : s.cache.lookUp (makeCacheKey id) with
    | some ptr => rwa [load_of_lookUp hlook]
    | none =>
      cases answer with
      | none => rwa [load_of_null hlook]
      | some code =>
        rw [load_of_answer hlook]
        have hgrow : ∀ key ptr, s.cache.lookUp key = some ptr →
            ∃ q, (s.queries ++ [⟨id, code⟩])[ptr]? = some q ∧ makeCacheKey q.id = key := by
          intro key ptr hkey
          obtain ⟨q, hq, hid⟩ := h key ptr hkey
          obtain ⟨hlt, -⟩ := List.getElem?_eq_some_iff.mp hq
          exact ⟨q, by rwa [List.getElem?_append_left hlt], hid⟩
        by_cases hcode : code = 0
        · intro key ptr hkey
          rw [if_pos hcode, Cache.lookUp_orInsert] at hkey
          split at hkey
          · next heq =>
            rw [hlook] at hkey
            obtain rfl := Option.some.inj hkey
            exact ⟨⟨id, code⟩, by simp, heq.symm⟩
          · exact hgrow key ptr hkey
        · intro key ptr hkey
          rw [if_neg hcode] at hkey
          exact hgrow key ptr hkey
  | delete id =>
    intro key ptr hkey
    rw [show (s.step (.delete id)).cache = s.cache.remove (makeCacheKey id) from rfl,
      Cache.lookUp_remove] at hkey
    split at hkey
    · exact absurd hkey (by simp)
    · exact h key ptr hkey
  | clearCache => exact fun key ptr hkey => absurd hkey (by simp [Configs.step, clearCache])

theorem keyed_after (calls : List Call) : (after calls).Keyed := by
  induction calls using List.reverseRecOn with
  | nil => exact fun key ptr hkey => absurd hkey (by simp [after, initial])
  | append_singleton calls call ih =>
    rw [after, List.foldl_append]
    exact ih.step call

theorem holds_delete_iff (h : s.Keyed) :
    (s.delete id).Holds other ↔ s.Holds other ∧ makeCacheKey other ≠ makeCacheKey id := by
  constructor
  · rintro ⟨key, ptr, q, hlook, hq, rfl⟩
    rw [delete, Cache.lookUp_remove] at hlook
    split at hlook
    · exact absurd hlook (by simp)
    · next hne =>
      obtain ⟨q', hq', hkey⟩ := h key ptr hlook
      obtain rfl := Option.some.inj (hq.symm.trans hq')
      exact ⟨⟨key, ptr, q, hlook, hq, rfl⟩, hkey ▸ hne⟩
  · rintro ⟨hholds, hne⟩
    obtain ⟨ptr, q, hlook, hq, hid⟩ := h.lookUp_isSome hholds
    refine ⟨makeCacheKey other, ptr, q, ?_, hq, hid⟩
    rw [delete, Cache.lookUp_remove, if_neg hne]
    exact hlook

/-- A bundle with the same key, and no name that extends the other, is the same. -/
theorem eq_of_apart (h : s.Apart id) (hholds : s.Holds other)
    (hkey : makeCacheKey other = makeCacheKey id) : other = id := by
  rcases h other hholds with heq | hnot
  · exact heq
  · exact absurd (makeCacheKey_eq_iff.mp hkey.symm) hnot

/-- One call is as it should be exactly if no other bundle in the cache has its key. -/
theorem ownConfig_iff (h : s.Keyed) (call : Call) : s.OwnConfig call ↔ s.Separate call := by
  cases call with
  | load id answer =>
    constructor
    · intro hown other hholds
      by_cases hextends : id.ExtendedBy other ∨ other.ExtendedBy id
      · left
        obtain ⟨ptr, q, hlook, hq, hid⟩ := h.lookUp_isSome hholds
        have hload := @load_of_lookUp s id answer ptr
          ((congrArg _ (makeCacheKey_eq_iff.mpr hextends)).trans hlook)
        obtain ⟨q', hq', hid'⟩ := hown ptr (by rw [hload])
        rw [hload] at hq'
        obtain rfl := Option.some.inj (hq.symm.trans hq')
        exact hid.symm.trans hid'
      · exact Or.inr hextends
    · intro hapart ptr hptr
      cases hlook : s.cache.lookUp (makeCacheKey id) with
      | some found =>
        have hload := @load_of_lookUp s id answer found hlook
        rw [hload] at hptr ⊢
        obtain rfl := Option.some.inj hptr
        obtain ⟨q, hq, hkey⟩ := h _ _ hlook
        exact ⟨q, hq, eq_of_apart hapart ⟨_, _, q, hlook, hq, rfl⟩ hkey⟩
      | none =>
        cases answer with
        | none =>
          rw [load_of_null hlook] at hptr
          exact absurd hptr (by simp)
        | some code =>
          rw [load_of_answer hlook] at hptr ⊢
          obtain rfl := Option.some.inj hptr
          exact ⟨⟨id, code⟩, by simp, rfl⟩
  | delete id =>
    constructor
    · intro hown other hholds
      by_cases hextends : id.ExtendedBy other ∨ other.ExtendedBy id
      · left
        by_contra hne
        have hstays := (holds_delete_iff h).mp ((hown other).mpr ⟨hholds, hne⟩)
        exact hstays.2 (makeCacheKey_eq_iff.mpr hextends).symm
      · exact Or.inr hextends
    · intro hapart other
      rw [holds_delete_iff h]
      constructor
      · rintro ⟨hholds, hne⟩
        exact ⟨hholds, fun heq => hne (congrArg makeCacheKey heq)⟩
      · rintro ⟨hholds, hne⟩
        exact ⟨hholds, fun hkey => hne (eq_of_apart hapart hholds hkey)⟩
  | clearCache =>
    refine ⟨fun _ => trivial, fun _ other hholds => ?_⟩
    obtain ⟨key, ptr, q, hlook, -⟩ := hholds
    exact absurd hlook (by simp [clearCache])

/-- Exactly when all calls of a run are as they should be. -/
theorem ownConfigs_iff (calls : List Call) :
    Throughout (fun before call => (after before).OwnConfig call) calls ↔
      Throughout (fun before call => (after before).Separate call) calls := by
  constructor
  · intro h before call rest heq
    exact (ownConfig_iff (keyed_after before) call).mp (h before call rest heq)
  · intro h before call rest heq
    exact (ownConfig_iff (keyed_after before) call).mpr (h before call rest heq)

end Steps

/-- The user 2 of `b1`, and the user 12 of `b`. -/
def firstBundle : BundleId := ⟨"b1", 2, 0⟩

def secondBundle : BundleId := ⟨"b", 12, 0⟩

/-- The second load returns the configuration of the first. -/
theorem not_ownConfigs :
    ¬Function.Injective makeCacheKey ∧
      ¬∀ calls, Throughout (fun before call => (after before).OwnConfig call) calls := by
  have hkey : makeCacheKey firstBundle = makeCacheKey secondBundle := by decide +kernel
  have hne : firstBundle ≠ secondBundle := by decide +kernel
  refine ⟨fun hinjective => hne (hinjective hkey), fun h => ?_⟩
  have hown := h [.load firstBundle (some 0), .load secondBundle (some 0)]
    [.load firstBundle (some 0)] (.load secondBundle (some 0)) [] rfl
  obtain ⟨q, hq, hid⟩ := hown 0 (by decide +kernel)
  have hfirst : (after [.load firstBundle (some 0)]).load secondBundle (some 0) =
      (after [.load firstBundle (some 0)], some 0) :=
    load_of_lookUp (by decide +kernel)
  rw [hfirst] at hq
  obtain rfl := Option.some.inj ((show _ = some (Query.mk firstBundle 0) by rfl).symm.trans hq)
  exact hne hid

end Configs

end BundleConfig

end DataShare
