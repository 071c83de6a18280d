import DataShare.PermissionCache
import DataShare.SearchTree
import Mathlib.Data.List.Nodup

/-!
# The permission caches as maps

The caches are maps of the standard library under `UriKey::operator<`, which compares the uris or
the users. Of two keys whose uris and users are in opposite orders each is less than the other,
so `operator<` is an order on some keys exactly if no two of them are like that
(`strictOrderOn_iff`). An entry that is inserted next to such a key goes to the one side of it
and is searched on the other.

As long as no permission is put beside a key that its own key disagrees with, the trees answer
every lookup as maps from keys do, whatever their balancing (`caches_wellFormed`).
-/

namespace DataShare

namespace Cpp

/-! ## The order of the keys -/

namespace UriKey

variable {a b c : UriKey} {S : UriKey → Prop}

/-- The uris and the users are not in opposite orders. -/
def Agrees (a b : UriKey) : Prop :=
  ¬(a.uri < b.uri ∧ b.userId < a.userId) ∧ ¬(b.uri < a.uri ∧ a.userId < b.userId)

theorem lt_eq_true_iff : lt a b = true ↔ a.uri < b.uri ∨ a.userId < b.userId := by
  simp [lt]

theorem lt_eq_false_iff : lt a b = false ↔ ¬a.uri < b.uri ∧ ¬a.userId < b.userId := by
  rw [← Bool.not_eq_true, lt_eq_true_iff, not_or]

theorem lt_self (a : UriKey) : lt a a = false :=
  lt_eq_false_iff.mpr ⟨List.lt_irrefl _, fun h => Int.lt_irrefl _ (Int32.lt_iff_toInt_lt.mp h)⟩

/-- Two keys of which neither is less are the same. -/
theorem eq_of_not_lt (h : lt a b = false) (h' : lt b a = false) : a = b := by
  obtain ⟨huri, huser⟩ := lt_eq_false_iff.mp h
  obtain ⟨huri', huser'⟩ := lt_eq_false_iff.mp h'
  rw [Int32.lt_iff_toInt_lt] at huser huser'
  have hsame : a.uri = b.uri := List.le_antisymm (List.not_lt.mp huri') (List.not_lt.mp huri)
  have huserSame : a.userId = b.userId := Int32.toInt_inj.mp (by omega)
  cases a
  cases b
  obtain rfl := hsame
  obtain rfl := huserSame
  rfl

theorem Agrees.symm (h : a.Agrees b) : b.Agrees a :=
  ⟨h.2, h.1⟩

theorem agrees_self (a : UriKey) : a.Agrees a :=
  ⟨fun h => List.lt_irrefl _ h.1, fun h => List.lt_irrefl _ h.1⟩

/-- Of keys that agree the lesser one has no greater uri and no greater user. -/
theorem Agrees.not_lt (h : a.Agrees b) (hlt : lt a b = true) :
    ¬b.uri < a.uri ∧ ¬b.userId < a.userId := by
  rcases lt_eq_true_iff.mp hlt with huri | huser
  · exact ⟨List.lt_asymm huri, fun huser => h.1 ⟨huri, huser⟩⟩
  · refine ⟨fun huri => h.2 ⟨huri, huser⟩, fun huser' => ?_⟩
    rw [Int32.lt_iff_toInt_lt] at huser huser'
    omega

theorem Agrees.asymm (h : a.Agrees b) (hlt : lt a b = true) : lt b a = false :=
  lt_eq_false_iff.mpr (h.not_lt hlt)

theorem Agrees.trans (hab : a.Agrees b) (hbc : b.Agrees c) (hlt : lt a b = true)
    (hlt' : lt b c = true) : lt a c = true := by
  obtain ⟨hba, huserba⟩ := hab.not_lt hlt
  obtain ⟨hcb, husercb⟩ := hbc.not_lt hlt'
  rw [lt_eq_true_iff]
  rcases lt_eq_true_iff.mp hlt with huri | huser
  · by_cases hlt : b.uri < c.uri
    · exact Or.inl (List.lt_trans huri hlt)
    · rw [← List.le_antisymm (List.not_lt.mp hcb) (List.not_lt.mp hlt)]
      exact Or.inl huri
  · right
    rw [Int32.lt_iff_toInt_lt] at huser husercb ⊢
    omega

/-- `operator<` is an order whose equivalence is equality exactly on keys that agree. -/
theorem strictOrderOn_iff (S : UriKey → Prop) :
    StrictOrderOn lt S ↔ ∀ a b, S a → S b → a.Agrees b := by
  constructor
  · intro h a b ha hb
    have hnot : ∀ x y : UriKey, S x → S y → ¬(x.uri < y.uri ∧ y.userId < x.userId) := by
      rintro x y hx hy ⟨huri, huser⟩
      have hyx := h.asymm x y hx hy (lt_eq_true_iff.mpr (Or.inl huri))
      exact (lt_eq_false_iff.mp hyx).2 huser
    exact ⟨hnot a b ha hb, hnot b a hb ha⟩
  · intro h
    exact ⟨fun a _ => lt_self a, fun a b ha hb => (h a b ha hb).asymm,
      fun a b c ha hb hc => (h a b ha hb).trans (h b c hb hc),
      fun a b _ _ => eq_of_not_lt⟩

end UriKey

/-! ## Trees and maps -/

/-- The map of the standard library. -/
def treeMap {κ ν : Type} (lt : κ → κ → Bool) (balancing : SearchTree.Balancing κ ν) :
    ConcurrentMap κ ν lt where
  Map := SearchTree κ ν
  entries := SearchTree.inorder
  empty := .nil
  find t k := t.find lt k
  emplace t k v := balancing.rebalance (t.insertUnique lt (k, v))
  eraseIf t p := balancing.eraseIf t fun e => p e.1 e.2
  entries_empty := rfl
  mem_of_find := SearchTree.mem_of_find
  mem_emplace {t k v e} he := by
    rw [balancing.inorder_rebalance] at he
    rcases SearchTree.insertUnique_cases (k, v) t with heq | heq
    · rw [heq] at he
      exact List.mem_cons.mp ((SearchTree.perm_insertLeaf (k, v) t).mem_iff.mp he)
    · rw [heq] at he
      exact Or.inr he
  length_emplace {t k v} := by
    rw [balancing.inorder_rebalance]
    rcases SearchTree.insertUnique_cases (k, v) t with heq | heq
    · rw [heq, (SearchTree.perm_insertLeaf (k, v) t).length_eq, List.length_cons]
    · rw [heq]
      exact Nat.le_succ _
  entries_eraseIf {t p} := balancing.inorder_eraseIf t fun e => p e.1 e.2

/-- A finite map from keys, as the list of its entries. -/
def keyMap {ν : Type} : ConcurrentMap UriKey ν UriKey.lt where
  Map := List (UriKey × ν)
  entries := id
  empty := []
  find m k := (m.find? fun e => e.1 = k).map Prod.snd
  emplace m k v := if m.any fun e => e.1 = k then m else m ++ [(k, v)]
  eraseIf m p := m.filter fun e => !p e.1 e.2
  entries_empty := rfl
  mem_of_find {m k v} h := by
    obtain ⟨e, he, rfl⟩ := Option.map_eq_some_iff.mp h
    have hkey : e.1 = k := by simpa using List.find?_some he
    exact ⟨k, hkey ▸ List.mem_of_find?_eq_some he, UriKey.lt_self k, UriKey.lt_self k⟩
  mem_emplace {m k v e} he := by
    have he : e ∈ (if m.any fun e => decide (e.1 = k) then m else m ++ [(k, v)]) := he
    split at he
    · exact Or.inr he
    · exact (List.mem_append.mp he).symm.imp_left List.mem_singleton.mp
  length_emplace {m k v} := by
    show (if m.any fun e => decide (e.1 = k) then m else m ++ [(k, v)]).length ≤ m.length + 1
    split
    · exact Nat.le_succ _
    · rw [List.length_append]
      exact le_rfl
  entries_eraseIf := rfl

namespace DataSharePermission

variable {balancing : SearchTree.Balancing UriKey Permission}

/-- A cache as the tree of the code. -/
abbrev treeCache (balancing : SearchTree.Balancing UriKey Permission) : Cache :=
  treeMap UriKey.lt balancing

abbrev keyCache : Cache :=
  keyMap

/-- The tree has the entries of the map, in an order that they agree on. -/
structure Represents (t : SearchTree UriKey Permission) (m : List (UriKey × Permission)) : Prop where
  perm : t.inorder.Perm m
  ordered : t.inorder.Pairwise fun a b => UriKey.lt a.1 b.1 = true
  agree : ∀ a ∈ t.inorder, ∀ b ∈ t.inorder, a.1.Agrees b.1

section Represents

variable {t : SearchTree UriKey Permission} {m : List (UriKey × Permission)} {k : UriKey}
  {p : Permission}

/-- The keys of the tree, and one more that agrees with them. -/
def KeysWith (t : SearchTree UriKey Permission) (k : UriKey) (key : UriKey) : Prop :=
  key = k ∨ ∃ e ∈ t.inorder, e.1 = key

theorem Represents.strictOrderOn (h : Represents t m) (hk : ∀ e ∈ t.inorder, k.Agrees e.1) :
    StrictOrderOn UriKey.lt (KeysWith t k) := by
  refine (UriKey.strictOrderOn_iff _).mpr ?_
  rintro a b (rfl | ⟨e, he, rfl⟩) (rfl | ⟨e', he', rfl⟩)
  · exact UriKey.agrees_self _
  · exact hk e' he'
  · exact (hk e he).symm
  · exact h.agree e he e' he'

theorem Represents.sorted (h : Represents t m) : t.Sorted UriKey.lt (KeysWith t k) :=
  ⟨fun e he => Or.inr ⟨e, he, rfl⟩, h.ordered⟩

/-- The tree finds its entries and nothing else, also for keys that agree with none of its. -/
theorem Represents.find_tree (h : Represents t m) :
    t.find UriKey.lt k = some p ↔ (k, p) ∈ t.inorder := by
  constructor
  · intro hfind
    obtain ⟨k', hmem, hlt, hlt'⟩ := SearchTree.mem_of_find hfind
    rwa [UriKey.eq_of_not_lt hlt hlt']
  · intro hmem
    exact (SearchTree.find_eq_some_iff (h.strictOrderOn fun e he => h.agree _ hmem e he) h.sorted
      (Or.inl rfl)).mpr hmem

theorem Represents.nodup (h : Represents t m) : (t.inorder.map Prod.fst).Nodup := by
  cases ht : t.inorder with
  | nil => exact List.nodup_nil
  | cons e rest =>
    have he : e ∈ t.inorder := ht ▸ List.mem_cons_self
    have hnodup := h.sorted.nodup_keys (h.strictOrderOn fun e' he' => h.agree e he e' he')
    rwa [ht] at hnodup

theorem Represents.find_key (h : Represents t m) :
    keyCache.find m k = some p ↔ (k, p) ∈ m := by
  have hnodup : (m.map Prod.fst).Nodup := (h.perm.map Prod.fst).nodup_iff.mp h.nodup
  constructor
  · intro hfind
    obtain ⟨e, he, rfl⟩ := Option.map_eq_some_iff.mp hfind
    have hkey : e.1 = k := by simpa using List.find?_some he
    exact hkey ▸ List.mem_of_find?_eq_some he
  · intro hmem
    cases hfind : m.find? fun e => decide (e.1 = k) with
    | none => simpa using List.find?_eq_none.mp hfind _ hmem
    | some e =>
      have hkey : e.1 = k := by simpa using List.find?_some hfind
      have hsame : e = (k, p) := List.inj_on_of_nodup_map hnodup
        (List.mem_of_find?_eq_some hfind) hmem hkey
      show (m.find? fun e => decide (e.1 = k)).map Prod.snd = some p
      rw [hfind, hsame]
      rfl

/-- Both answer alike. -/
theorem Represents.find_eq (h : Represents t m) (k : UriKey) :
    (treeCache balancing).find t k = keyCache.find m k := by
  refine Option.ext fun p => ?_
  rw [h.find_key, ← h.perm.mem_iff]
  exact h.find_tree

theorem Represents.size_eq (h : Represents t m) :
    (treeCache balancing).size t = keyCache.size m :=
  h.perm.length_eq

theorem represents_empty : Represents .nil [] :=
  ⟨List.Perm.refl _, List.Pairwise.nil, fun _ he => absurd he List.not_mem_nil⟩

theorem Represents.emplace (h : Represents t m) (hk : ∀ e ∈ t.inorder, k.Agrees e.1) :
    Represents ((treeCache balancing).emplace t k p) (keyCache.emplace m k p) := by
  have hlt := h.strictOrderOn hk
  have hinorder : ((treeCache balancing).emplace t k p).inorder =
      (t.insertUnique UriKey.lt (k, p)).inorder := balancing.inorder_rebalance _
  have hmap : keyCache.emplace m k p =
      if m.any fun e => decide (e.1 = k) then m else m ++ [(k, p)] := rfl
  by_cases hthere : ∃ e ∈ t.inorder, e.1 = k
  · obtain ⟨e, he, rfl⟩ := hthere
    have hany : (m.any fun e' => decide (e'.1 = e.1)) = true :=
      List.any_eq_true.mpr ⟨e, h.perm.mem_iff.mp he, by simp⟩
    have hsame : t.insertUnique UriKey.lt (e.1, p) = t :=
      SearchTree.insertUnique_of_mem hlt h.sorted he
    rw [hsame] at hinorder
    rw [hmap, if_pos hany]
    exact ⟨hinorder ▸ h.perm, hinorder ▸ h.ordered, hinorder ▸ h.agree⟩
  · have hne : ∀ e ∈ t.inorder, e.1 ≠ k := fun e he heq => hthere ⟨e, he, heq⟩
    have hany : ¬(m.any fun e => decide (e.1 = k)) = true := by
      intro hany
      obtain ⟨e, he, hkey⟩ := List.any_eq_true.mp hany
      exact hne e (h.perm.mem_iff.mpr he) (of_decide_eq_true hkey)
    have hnew : KeysWith t k (k, p).1 := Or.inl rfl
    rw [SearchTree.insertUnique_of_notMem hlt hnew h.sorted hne] at hinorder
    have hsorted := SearchTree.sorted_insertLeaf hlt hnew h.sorted hne
    have hperm := @SearchTree.perm_insertLeaf _ _ UriKey.lt (k, p) t
    rw [hmap, if_neg hany]
    refine ⟨?_, hinorder ▸ hsorted.pairwise, ?_⟩
    · rw [hinorder]
      exact hperm.trans ((h.perm.cons _).trans (List.perm_append_singleton _ _).symm)
    · rw [hinorder]
      intro a ha b hb
      exact (UriKey.strictOrderOn_iff _).mp hlt _ _ (hsorted.mem a ha) (hsorted.mem b hb)

theorem Represents.eraseIf (h : Represents t m) (p : UriKey → Permission → Bool) :
    Represents ((treeCache balancing).eraseIf t p) (keyCache.eraseIf m p) := by
  have hinorder : ((treeCache balancing).eraseIf t p).inorder =
      t.inorder.filter fun e => !p e.1 e.2 := balancing.inorder_eraseIf t _
  have hmem : ∀ e ∈ ((treeCache balancing).eraseIf t p).inorder, e ∈ t.inorder := by
    intro e he
    rw [hinorder] at he
    exact (List.mem_filter.mp he).1
  refine ⟨?_, ?_, fun a ha b hb => h.agree a (hmem a ha) b (hmem b hb)⟩
  · rw [hinorder]
    exact h.perm.filter _
  · rw [hinorder]
    exact h.ordered.filter _

end Represents

/-! ## Calls -/

/-- A permission that is put into a cache has a key that agrees with those there. -/
def State.Agreeing {cm : Cache} {β : Type} (s : State cm β) : Action β → Prop
  | .lookup i => ∀ l ∈ s.lookups[i]?, l.phase.isEmplace = true →
    ∀ e ∈ cm.entries (s.cache l.cache), l.key.Agrees e.1
  | _ => True

/-- All that is put into the caches from `s` on has keys that agree with those there. -/
def AgreeingRun {cm : Cache} {β : Type} (pf : Platform β) : State cm β → List (Action β) → Prop
  | _, [] => True
  | s, a :: actions =>
    s.Agreeing a ∧ ∀ s', step pf s a = some s' → AgreeingRun pf s' actions

/-- Each cache has one entry for a key, finds all its entries, and finds nothing else. -/
def State.WellFormed {cm : Cache} {β : Type} (s : State cm β) : Prop :=
  ∀ c, ((cm.entries (s.cache c)).map Prod.fst).Nodup ∧
    ∀ k p, cm.find (s.cache c) k = some p ↔ (k, p) ∈ cm.entries (s.cache c)

/-- The calls are at the same point, with the same answers so far, and the caches answer alike. -/
structure State.SameAs {cm cm' : Cache} {β : Type} (s : State cm β) (r : State cm' β) : Prop where
  bms : s.bms = r.bms
  lookups : s.lookups = r.lookups
  deletions : s.deletions = r.deletions
  clock : s.clock = r.clock
  find : ∀ c k, cm.find (s.cache c) k = cm'.find (r.cache c) k

section Calls

variable {β : Type} {pf : Platform β}

/-- The trees of the one state represent the maps of the other. -/
structure Mirrors (s : State (treeCache balancing) β) (r : State keyCache β) : Prop where
  bms : s.bms = r.bms
  lookups : s.lookups = r.lookups
  deletions : s.deletions = r.deletions
  clock : s.clock = r.clock
  cache : ∀ c, Represents (s.cache c) (r.cache c)

theorem Mirrors.sameAs {s : State (treeCache balancing) β} {r : State keyCache β}
    (h : Mirrors s r) : s.SameAs r :=
  ⟨h.bms, h.lookups, h.deletions, h.clock, fun c k => (h.cache c).find_eq k⟩

theorem Mirrors.wellFormed {s : State (treeCache balancing) β} {r : State keyCache β}
    (h : Mirrors s r) : s.WellFormed :=
  fun c => ⟨(h.cache c).nodup, fun _ _ => (h.cache c).find_tree⟩

theorem mirrors_init (bms : β) :
    Mirrors (init (treeCache balancing) bms) (init keyCache bms) :=
  ⟨rfl, rfl, rfl, rfl, fun _ => represents_empty⟩

/-- A call of a lookup does the same to both. -/
theorem Represents.advance {t : SearchTree UriKey Permission} {m : List (UriKey × Permission)}
    (h : Represents t m) (bms : β) (now : ℕ) (l : Lookup)
    (hagree : l.phase.isEmplace = true → ∀ e ∈ t.inorder, l.key.Agrees e.1) :
    (@Lookup.advance β (treeCache balancing) pf bms now t l).1 =
        (@Lookup.advance β keyCache pf bms now m l).1 ∧
      Represents (@Lookup.advance β (treeCache balancing) pf bms now t l).2
        (@Lookup.advance β keyCache pf bms now m l).2 := by
  have hfind : (treeCache balancing).find t l.key = keyCache.find m l.key := h.find_eq l.key
  have hsize : (treeCache balancing).size t = keyCache.size m := h.size_eq
  unfold Lookup.advance
  cases hphase : l.phase with
  | find =>
    simp only [hfind]
    cases keyCache.find m l.key with
    | none => exact ⟨rfl, h⟩
    | some p => exact ⟨rfl, h⟩
  | read =>
    dsimp only
    cases l.read pf bms now with
    | ok p => exact ⟨rfl, h⟩
    | error ret =>
      dsimp only
      split
      · exact ⟨rfl, h⟩
      · exact ⟨rfl, h⟩
  | size p =>
    simp only [hsize]
    split
    · exact ⟨rfl, h⟩
    · exact ⟨rfl, h⟩
  | clear p => exact ⟨rfl, represents_empty⟩
  | emplace p => exact ⟨rfl, h.emplace (hagree (congrArg Phase.isEmplace hphase))⟩
  | done ret permission => exact ⟨rfl, h⟩

/-- One cache is replaced in both. -/
theorem represents_update {f : CacheKind → (treeCache balancing).Map}
    {g : CacheKind → keyCache.Map} (h : ∀ c, Represents (f c) (g c))
    {t : (treeCache balancing).Map} {m : keyCache.Map} (c : CacheKind) (hc : Represents t m)
    (c' : CacheKind) : Represents (Function.update f c t c') (Function.update g c m c') := by
  by_cases heq : c' = c
  · subst heq
    rw [Function.update_self, Function.update_self]
    exact hc
  · rw [Function.update_of_ne heq, Function.update_of_ne heq]
    exact h c'

/-- A step on the trees is a step on the maps. -/
theorem Mirrors.step {s s' : State (treeCache balancing) β} {r : State keyCache β}
    (h : Mirrors s r) {a : Action β} (hagree : s.Agreeing a) (hstep : step pf s a = some s') :
    ∃ r', DataSharePermission.step pf r a = some r' ∧ Mirrors s' r' := by
  obtain ⟨hbms, hlookups, hdeletions, hclock, hcache⟩ := h
  cases a with
  | getExtensionUriPermission uri user isRead =>
    obtain rfl := Option.some.inj hstep
    exact ⟨_, rfl, hbms, by rw [hlookups], hdeletions, by rw [hclock], hcache⟩
  | getSilentUriPermission uri user isRead =>
    obtain rfl := Option.some.inj hstep
    exact ⟨_, rfl, hbms, by rw [hlookups], hdeletions, by rw [hclock], hcache⟩
  | getUriPermission uri user isRead =>
    obtain rfl := Option.some.inj hstep
    exact ⟨_, rfl, hbms, by rw [hlookups], hdeletions, by rw [hclock], hcache⟩
  | lookup i =>
    obtain ⟨l, hl, hadvance⟩ := Option.bind_eq_some_iff.mp hstep
    obtain rfl := Option.some.inj hadvance
    obtain ⟨hsame, hmap⟩ := @Represents.advance balancing β pf _ _ (hcache l.cache) s.bms s.clock l
      (hagree l hl)
    refine ⟨{ r with
        clock := r.clock + 1
        lookups := r.lookups.set i (l.advance pf r.bms r.clock (r.cache l.cache)).1
        cache := Function.update r.cache l.cache
          (l.advance pf r.bms r.clock (r.cache l.cache)).2 }, ?_, hbms, ?_, hdeletions, ?_,
      fun c => ?_⟩
    · show (r.lookups[i]?).bind _ = _
      rw [← hlookups, hl]
      rfl
    · rw [hlookups, ← hbms, ← hclock]
      exact congrArg _ hsame
    · rw [hclock]
    · rw [← hbms, ← hclock]
      exact represents_update hcache l.cache hmap c
  | receive event bundleName =>
    by_cases hevent : event = .other
    · subst hevent
      obtain rfl := Option.some.inj hstep
      exact ⟨_, rfl, hbms, hlookups, hdeletions, by rw [hclock], hcache⟩
    · have hleft : DataSharePermission.step pf s (.receive event bundleName) =
          some { s with
            clock := s.clock + 1
            deletions := s.deletions ++ [⟨bundleName, s.clock, [.extension, .silent]⟩] } :=
        if_neg hevent
      have hright : DataSharePermission.step pf r (.receive event bundleName) =
          some { r with
            clock := r.clock + 1
            deletions := r.deletions ++ [⟨bundleName, r.clock, [.extension, .silent]⟩] } :=
        if_neg hevent
      obtain rfl := Option.some.inj (hleft.symm.trans hstep)
      exact ⟨_, hright, hbms, hlookups, by rw [hdeletions, hclock], by rw [hclock], hcache⟩
  | erase j =>
    obtain ⟨d, hd, herase⟩ := Option.bind_eq_some_iff.mp hstep
    have hd' : r.deletions[j]? = some d := hdeletions ▸ hd
    cases hpending : d.pending with
    | nil =>
      rw [hpending] at herase
      exact absurd herase (by simp)
    | cons c pending =>
      rw [hpending] at herase
      obtain rfl := Option.some.inj herase
      refine ⟨{ r with
          clock := r.clock + 1
          deletions := r.deletions.set j { d with pending }
          cache := Function.update r.cache c
            (keyCache.eraseIf (r.cache c) fun _ value => value.bundleName = d.bundleName) },
        ?_, hbms, hlookups, ?_, ?_, fun c' => ?_⟩
      · show (r.deletions[j]?).bind _ = _
        rw [hd', Option.bind_some, hpending]
        rfl
      · rw [hdeletions]
      · rw [hclock]
      · exact represents_update hcache c ((hcache c).eraseIf _) c'
  | bms bms =>
    obtain rfl := Option.some.inj hstep
    exact ⟨_, rfl, rfl, hlookups, hdeletions, by rw [hclock], hcache⟩

theorem Mirrors.run : ∀ {actions : List (Action β)} {s s' : State (treeCache balancing) β}
    {r : State keyCache β}, Mirrors s r → AgreeingRun pf s actions →
      actions.foldlM (DataSharePermission.step pf) s = some s' →
      ∃ r', actions.foldlM (DataSharePermission.step pf) r = some r' ∧ Mirrors s' r'
  | [], s, s', r, h, _, hrun => by
    obtain rfl := Option.some.inj hrun
    exact ⟨r, rfl, h⟩
  | a :: actions, s, s', r, h, hagree, hrun => by
    rw [List.foldlM_cons] at hrun
    obtain ⟨mid, hmid, hrest⟩ := Option.bind_eq_some_iff.mp hrun
    obtain ⟨r₁, hr₁, h₁⟩ := h.step hagree.1 hmid
    obtain ⟨r', hr', h'⟩ := h₁.run (hagree.2 mid hmid) hrest
    refine ⟨r', ?_, h'⟩
    rw [List.foldlM_cons, hr₁]
    exact hr'

/-- The comparison is an order exactly on keys that agree. And as long as all that is put into the
caches agrees with what is there, the caches are well-formed and answer as maps do. -/
theorem caches_wellFormed (pf : Platform β) (bms : β) (actions : List (Action β))
    (s : State (treeCache balancing) β)
    (hrun : actions.foldlM (step pf) (init (treeCache balancing) bms) = some s)
    (hagree : AgreeingRun pf (init (treeCache balancing) bms) actions) :
    (∀ S, StrictOrderOn UriKey.lt S ↔ ∀ a b, S a → S b → a.Agrees b) ∧ s.WellFormed ∧
      ∃ r : State keyCache β,
        actions.foldlM (step pf) (init keyCache bms) = some r ∧ s.SameAs r := by
  obtain ⟨r, hr, h⟩ := (mirrors_init bms).run hagree hrun
  exact ⟨UriKey.strictOrderOn_iff, h.wellFormed, r, hr, h.sameAs⟩

instance (a b : UriKey) : Decidable (a.Agrees b) :=
  inferInstanceAs (Decidable (_ ∧ _))

instance {cm : Cache} (s : State cm β) : ∀ a : Action β, Decidable (s.Agreeing a)
  | .lookup i => inferInstanceAs (Decidable (∀ l ∈ s.lookups[i]?, l.phase.isEmplace = true →
      ∀ e ∈ cm.entries (s.cache l.cache), l.key.Agrees e.1))
  | .getExtensionUriPermission .. => isTrue trivial
  | .getSilentUriPermission .. => isTrue trivial
  | .getUriPermission .. => isTrue trivial
  | .receive .. => isTrue trivial
  | .erase _ => isTrue trivial
  | .bms _ => isTrue trivial

instance agreeingRunDecidable {cm : Cache} :
    ∀ (s : State cm β) (actions : List (Action β)), Decidable (AgreeingRun pf s actions)
  | _, [] => isTrue trivial
  | s, a :: actions =>
    match hstep : step pf s a with
    | none => decidable_of_iff (s.Agreeing a) ⟨fun h => ⟨h, fun s' hs' => by
        rw [hstep] at hs'
        exact absurd hs' (by simp)⟩, And.left⟩
    | some s₁ =>
      have := agreeingRunDecidable s₁ actions
      decidable_of_iff (s.Agreeing a ∧ AgreeingRun pf s₁ actions)
        ⟨fun h => ⟨h.1, fun s' hs' => Option.some.inj (hstep.symm.trans hs') ▸ h.2⟩,
          fun h => ⟨h.1, h.2 s₁ hstep⟩⟩

end Calls

/-! ## Keys that disagree -/

/-- The entries as a list to the right. -/
def spine : List (UriKey × Permission) → SearchTree UriKey Permission
  | [] => .nil
  | e :: entries => .node .nil e (spine entries)

theorem inorder_spine : ∀ entries, (spine entries).inorder = entries
  | [] => rfl
  | e :: entries => congrArg (e :: ·) (inorder_spine entries)

/-- Trees that are left as an insertion leaves them, as a tree of two entries is. -/
def plainBalancing : SearchTree.Balancing UriKey Permission where
  rebalance t := t
  eraseIf t p := spine (t.inorder.filter fun e => !p e)
  inorder_rebalance _ := rfl
  inorder_eraseIf _ _ := inorder_spine _

/-- A lookup to its end, on a cache that does not have the uri. -/
def missOf (n : UInt8) (user : Int32) (i : ℕ) : List (Action UInt8) :=
  .getExtensionUriPermission [n] user true :: List.replicate 4 (.lookup i)

/-- Two uris of one user. -/
theorem caches_wellFormed_oneUser :
    ∃ s : State (treeCache plainBalancing) UInt8,
      (missOf 98 1 0 ++ missOf 97 1 1).foldlM (step versionPlatform) (init _ 0) = some s ∧
        (∀ S, StrictOrderOn UriKey.lt S ↔ ∀ a b, S a → S b → a.Agrees b) ∧ s.WellFormed ∧
        ∃ r : State keyCache UInt8, (missOf 98 1 0 ++ missOf 97 1 1).foldlM
          (step versionPlatform) (init keyCache 0) = some r ∧ s.SameAs r := by
  have hsome : ((missOf 98 1 0 ++ missOf 97 1 1).foldlM (step versionPlatform)
      (init (treeCache plainBalancing) 0)).isSome := by
    decide +kernel
  obtain ⟨s, hs⟩ := Option.isSome_iff_exists.mp hsome
  exact ⟨s, hs, caches_wellFormed versionPlatform 0 _ s hs (by decide +kernel)⟩

/-- The uri `b` of user 1 and the uri `a` of user 2 : the second is in the cache and is not
found. -/
theorem not_caches_wellFormed :
    ¬StrictOrderOn UriKey.lt (fun _ => True) ∧
      ¬∀ (balancing : SearchTree.Balancing UriKey Permission) (actions : List (Action UInt8))
        (s : State (treeCache balancing) UInt8),
        actions.foldlM (step versionPlatform) (init _ 0) = some s → s.WellFormed := by
  constructor
  · intro h
    have hasymm := h.asymm ⟨[98], 1⟩ ⟨[97], 2⟩ trivial trivial (by decide)
    exact absurd hasymm (by decide)
  · intro h
    have hrun : ((missOf 98 1 0 ++ missOf 97 2 1).foldlM (step versionPlatform)
        (init (treeCache plainBalancing) 0)).any fun s =>
          decide ((⟨[97], 2⟩, ⟨[98], [0], [0], 7⟩) ∈
            (treeCache plainBalancing).entries (s.cache .extension)) &&
          decide ((treeCache plainBalancing).find (s.cache .extension) ⟨[97], 2⟩ = none) := by
      decide +kernel
    obtain ⟨s, hs, hcheck⟩ := (Option.any_eq_true _ _).mp hrun
    rw [Bool.and_eq_true, decide_eq_true_eq, decide_eq_true_eq] at hcheck
    obtain ⟨hmem, hnone⟩ := hcheck
    have hfound := ((h plainBalancing _ s hs .extension).2 _ _).mpr hmem
    exact absurd (hnone.symm.trans hfound) (by simp)

end DataSharePermission

end Cpp

end DataShare
