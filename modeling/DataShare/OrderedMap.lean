import Mathlib.Data.List.Basic
import Mathlib.Tactic.Common

/-!
# Ordered maps

`OrderedMap κ ν` is a finite map as the list of its entries in strictly increasing key
order, which is what a `std::map` or a `BTreeMap` iterates over. The order is a field, so
equal maps have equal entries (`OrderedMap.ext`). `upsert` is the single update : a
first-wins `insert`, an overwriting `assign` and a nested `m[a][b] = v` are instances.

The loops that rebuild a map from its entries never insert in the middle
(`entries_upsert_of_lt`), so one fold lemma covers them (`entries_foldl_upsert`), and the
updates of one inner map fold into a single one (`foldl_upsert_getD`).
-/

namespace DataShare

section Entries

variable {κ ν : Type} [Ord κ]

/-- Entries with strictly increasing keys. -/
def SortedKeys (entries : List (κ × ν)) : Prop :=
  entries.Pairwise fun a b => compare a.1 b.1 = .lt

/-- Set the value at `k` to `f` of the old one. -/
def upsertEntries (k : κ) (f : Option ν → ν) : List (κ × ν) → List (κ × ν)
  | [] => [(k, f none)]
  | (k', v) :: entries =>
    match compare k k' with
    | .lt => (k, f none) :: (k', v) :: entries
    | .eq => (k', f (some v)) :: entries
    | .gt => (k', v) :: upsertEntries k f entries

theorem mem_upsertEntries {k : κ} {f : Option ν → ν} {e : κ × ν} :
    ∀ {entries : List (κ × ν)}, e ∈ upsertEntries k f entries →
      e.1 = k ∨ ∃ v, (e.1, v) ∈ entries
  | [], he => by
    obtain rfl := List.mem_singleton.mp he
    exact .inl rfl
  | (k', v) :: entries, he => by
    rw [upsertEntries] at he
    cases hk : compare k k' with
    | lt =>
      rw [hk] at he
      rcases List.mem_cons.mp he with rfl | he
      · exact .inl rfl
      · exact .inr ⟨e.2, he⟩
    | eq =>
      rw [hk] at he
      rcases List.mem_cons.mp he with rfl | he
      · exact .inr ⟨v, List.mem_cons_self⟩
      · exact .inr ⟨e.2, List.mem_cons_of_mem _ he⟩
    | gt =>
      rw [hk] at he
      rcases List.mem_cons.mp he with rfl | he
      · exact .inr ⟨v, List.mem_cons_self⟩
      · rcases mem_upsertEntries he with h | ⟨w, hw⟩
        · exact .inl h
        · exact .inr ⟨w, List.mem_cons_of_mem _ hw⟩

/-- A key above all others goes to the end. -/
theorem upsertEntries_of_lt [Std.OrientedOrd κ] {k : κ} (f : Option ν → ν) :
    ∀ {entries : List (κ × ν)}, (∀ e ∈ entries, compare e.1 k = .lt) →
      upsertEntries k f entries = entries ++ [(k, f none)]
  | [], _ => rfl
  | (k', v) :: entries, h => by
    have hk : compare k k' = .gt :=
      Std.OrientedCmp.gt_iff_lt.mpr (h _ List.mem_cons_self)
    rw [upsertEntries, hk, List.cons_append,
      upsertEntries_of_lt f fun e he => h e (List.mem_cons_of_mem _ he)]

/-- Two updates of one key are one. -/
theorem upsertEntries_upsertEntries [Std.OrientedOrd κ] {k : κ} (f g : Option ν → ν) :
    ∀ entries : List (κ × ν), upsertEntries k g (upsertEntries k f entries) =
      upsertEntries k (fun old => g (some (f old))) entries
  | [] => by
    have hk : compare k k = .eq := Std.ReflCmp.compare_self
    simp only [upsertEntries, hk]
  | (k', v) :: entries => by
    have hself : compare k k = .eq := Std.ReflCmp.compare_self
    cases hk : compare k k' with
    | lt => simp only [upsertEntries, hk, hself]
    | eq => simp only [upsertEntries, hk]
    | gt => simp only [upsertEntries, hk, upsertEntries_upsertEntries f g entries]

theorem sortedKeys_upsertEntries [Std.TransOrd κ] {k : κ}
    (f : Option ν → ν) : ∀ {entries : List (κ × ν)}, SortedKeys entries →
      SortedKeys (upsertEntries k f entries)
  | [], _ => List.pairwise_singleton _ _
  | (k', v) :: entries, h => by
    obtain ⟨hlt, htail⟩ := List.pairwise_cons.mp h
    rw [upsertEntries]
    cases hk : compare k k' with
    | lt =>
      refine List.pairwise_cons.mpr ⟨fun e he => ?_, h⟩
      rcases List.mem_cons.mp he with rfl | he
      · exact hk
      · exact Std.TransCmp.lt_trans hk (hlt e he)
    | eq => exact List.pairwise_cons.mpr ⟨hlt, htail⟩
    | gt =>
      refine List.pairwise_cons.mpr ⟨fun e he => ?_, sortedKeys_upsertEntries f htail⟩
      rcases mem_upsertEntries he with heq | ⟨w, hw⟩
      · rw [heq]
        exact Std.OrientedCmp.gt_iff_lt.mp hk
      · exact hlt (e.1, w) hw

/-- The value at the key that compares equal to `k`. -/
def findEntry (k : κ) : List (κ × ν) → Option ν
  | [] => none
  | (k', v) :: entries => if compare k k' = .eq then some v else findEntry k entries

theorem findEntry_congr [Std.TransOrd κ] {k k' : κ} (h : compare k k' = .eq) :
    ∀ entries : List (κ × ν), findEntry k entries = findEntry k' entries
  | [] => rfl
  | (k'', v) :: entries => by
    have hk : compare k k'' = compare k' k'' := Std.TransCmp.congr_left h
    rw [findEntry, findEntry, hk, findEntry_congr h entries]

theorem findEntry_eq_none_of_ne {k : κ} :
    ∀ {entries : List (κ × ν)}, (∀ e ∈ entries, compare k e.1 ≠ .eq) → findEntry k entries = none
  | [], _ => rfl
  | (k', v) :: entries, h => by
    rw [findEntry, if_neg (h _ List.mem_cons_self)]
    exact findEntry_eq_none_of_ne fun e he => h e (List.mem_cons_of_mem _ he)

/-- In a sorted list no entry after a key that is not below `k` is at `k`. -/
theorem findEntry_tail_eq_none [Std.TransOrd κ] {k k' : κ} {v : ν} {entries : List (κ × ν)}
    (h : SortedKeys ((k', v) :: entries)) (hk : compare k k' ≠ .gt) :
    findEntry k entries = none := by
  refine findEntry_eq_none_of_ne fun e he => ?_
  have hlt : compare k' e.1 = .lt := (List.pairwise_cons.mp h).1 e he
  have hk' : compare k e.1 = .lt := by
    cases hc : compare k k' with
    | lt => exact Std.TransCmp.lt_trans hc hlt
    | eq => rw [Std.TransCmp.congr_left hc, hlt]
    | gt => exact absurd hc hk
  rw [hk']
  exact Ordering.noConfusion

theorem findEntry_upsertEntries [Std.TransOrd κ] (k j : κ) (f : Option ν → ν) :
    ∀ {entries : List (κ × ν)}, SortedKeys entries → findEntry j (upsertEntries k f entries) =
      if compare j k = .eq then some (f (findEntry k entries)) else findEntry j entries
  | [], _ => rfl
  | (k', v) :: entries, h => by
    rw [upsertEntries]
    cases hk : compare k k' with
    | lt =>
      have hne : compare k k' ≠ .eq := by simp [hk]
      have hnone : findEntry k ((k', v) :: entries) = none := by
        rw [findEntry, if_neg hne, findEntry_tail_eq_none h (by simp [hk])]
      rw [hnone, findEntry]
    | eq =>
      have hj : compare j k' = compare j k := (Std.TransCmp.congr_right hk).symm
      simp only [findEntry, hk, hj]
      split <;> rfl
    | gt =>
      have hne : compare k k' ≠ .eq := by simp [hk]
      rw [findEntry, findEntry_upsertEntries k j f (List.pairwise_cons.mp h).2]
      by_cases hj : compare j k = .eq
      · have hjk : compare j k' ≠ .eq := by simp [Std.TransCmp.congr_left hj, hk]
        rw [if_neg hjk, if_pos hj, if_pos hj, findEntry, if_neg hne]
      · rw [if_neg hj, if_neg hj, findEntry]

theorem findEntry_erase [Std.TransOrd κ] (k j : κ) : ∀ entries : List (κ × ν),
    findEntry j (entries.filter fun e => compare k e.1 ≠ .eq) =
      if compare j k = .eq then none else findEntry j entries
  | [] => by simp [findEntry]
  | (k', v) :: entries => by
    have ih := findEntry_erase k j entries
    by_cases hk : compare k k' = .eq
    · have hj : compare j k' = compare j k := (Std.TransCmp.congr_right hk).symm
      rw [List.filter_cons_of_neg (by simp [hk]), ih, findEntry, hj]
      split <;> rfl
    · rw [List.filter_cons_of_pos (by simp [hk]), findEntry, findEntry, ih]
      by_cases hj : compare j k = .eq
      · rw [if_neg (by rwa [Std.TransCmp.congr_left hj]), if_pos hj, if_pos hj]
      · rw [if_neg hj, if_neg hj]

theorem findEntry_map {μ : Type} (f : κ → ν → μ) (hf : ∀ {j k}, compare j k = .eq → f j = f k)
    (k : κ) : ∀ entries : List (κ × ν),
      findEntry k (entries.map fun e => (e.1, f e.1 e.2)) = (findEntry k entries).map (f k)
  | [] => rfl
  | (k', v) :: entries => by
    rw [List.map_cons, findEntry, findEntry, findEntry_map f hf k entries]
    split
    · next h => rw [Option.map_some, hf h]
    · rfl

theorem findEntry_filter [Std.TransOrd κ] (p : ν → Bool) (k : κ) :
    ∀ {entries : List (κ × ν)}, SortedKeys entries →
      findEntry k (entries.filter fun e => p e.2) = (findEntry k entries).filter p
  | [], _ => rfl
  | (k', v) :: entries, h => by
    have ih := findEntry_filter p k (List.pairwise_cons.mp h).2
    by_cases hk : compare k k' = .eq
    · have htail : findEntry k entries = none := findEntry_tail_eq_none h (by simp [hk])
      rw [htail] at ih
      by_cases hp : p v = true <;> simp [findEntry, hk, hp, ih, Option.filter]
    · by_cases hp : p v = true <;> simp [findEntry, hk, hp, ih]

theorem findEntry_isSome {k : κ} : ∀ {entries : List (κ × ν)},
    (findEntry k entries).isSome ↔ ∃ e ∈ entries, compare k e.1 = .eq
  | [] => by simp [findEntry]
  | (k', v) :: entries => by
    rw [findEntry, List.exists_mem_cons_iff, ← findEntry_isSome]
    split <;> simp [*]

end Entries

/-- A finite map, as its entries in key order. -/
@[ext]
structure OrderedMap (κ ν : Type) [Ord κ] where
  entries : List (κ × ν)
  sorted : SortedKeys entries

namespace OrderedMap

variable {κ ν : Type} [Ord κ]

instance [DecidableEq κ] [DecidableEq ν] : DecidableEq (OrderedMap κ ν) := fun m m' =>
  decidable_of_iff (m.entries = m'.entries) OrderedMap.ext_iff.symm

def empty : OrderedMap κ ν :=
  ⟨[], List.Pairwise.nil⟩

@[simp] theorem entries_empty : (empty : OrderedMap κ ν).entries = [] :=
  rfl

/-- The entries whose value passes the test. -/
def filterValues (p : ν → Bool) (m : OrderedMap κ ν) : OrderedMap κ ν where
  entries := m.entries.filter fun e => p e.2
  sorted := m.sorted.filter _

theorem filterValues_eq_self {p : ν → Bool} {m : OrderedMap κ ν} :
    m.filterValues p = m ↔ ∀ e ∈ m.entries, p e.2 = true := by
  rw [OrderedMap.ext_iff]
  exact List.filter_eq_self

/-- `m.find(k)`. -/
def find? (k : κ) (m : OrderedMap κ ν) : Option ν :=
  findEntry k m.entries

/-- `m.erase(k)`. -/
def erase (k : κ) (m : OrderedMap κ ν) : OrderedMap κ ν where
  entries := m.entries.filter fun e => compare k e.1 ≠ .eq
  sorted := m.sorted.filter _

/-- The keys in order. -/
def keys (m : OrderedMap κ ν) : List κ :=
  m.entries.map Prod.fst

/-- Replace each value by its image. -/
def mapValues {μ : Type} (f : κ → ν → μ) (m : OrderedMap κ ν) : OrderedMap κ μ where
  entries := m.entries.map fun e => (e.1, f e.1 e.2)
  sorted := by
    rw [SortedKeys, List.pairwise_map]
    exact m.sorted

@[simp] theorem find?_empty (k : κ) : (empty : OrderedMap κ ν).find? k = none :=
  rfl

theorem find?_mapValues {μ : Type} (f : κ → ν → μ)
    (hf : ∀ {j k}, compare j k = .eq → f j = f k) (k : κ) (m : OrderedMap κ ν) :
    (m.mapValues f).find? k = (m.find? k).map (f k) :=
  findEntry_map f hf k m.entries

theorem isSome_find?_iff {k : κ} {m : OrderedMap κ ν} :
    (m.find? k).isSome ↔ ∃ key ∈ m.keys, compare k key = .eq := by
  unfold find? keys
  rw [findEntry_isSome]
  simp

variable [Std.TransOrd κ]

/-- Set the value at `k` to `f` of the old one. -/
def upsert (k : κ) (f : Option ν → ν) (m : OrderedMap κ ν) : OrderedMap κ ν where
  entries := upsertEntries k f m.entries
  sorted := sortedKeys_upsertEntries f m.sorted

/-- Insert unless the key is present, as `std::map::insert` does. -/
def insert (k : κ) (v : ν) : OrderedMap κ ν → OrderedMap κ ν :=
  upsert k fun old => old.getD v

/-- Insert or overwrite, as `m[k] = v` does. -/
def assign (k : κ) (v : ν) : OrderedMap κ ν → OrderedMap κ ν :=
  upsert k fun _ => v

theorem entries_upsert_of_lt {k : κ} (f : Option ν → ν) {m : OrderedMap κ ν}
    (h : ∀ e ∈ m.entries, compare e.1 k = .lt) :
    (m.upsert k f).entries = m.entries ++ [(k, f none)] :=
  upsertEntries_of_lt f h

theorem upsert_upsert (k : κ) (f g : Option ν → ν) (m : OrderedMap κ ν) :
    (m.upsert k f).upsert k g = m.upsert k fun old => g (some (f old)) :=
  OrderedMap.ext (upsertEntries_upsertEntries f g m.entries)

/-- A loop of updates `m[k] := g x m[k]` of one key, the first of which may create the
value from `d`, is one update. -/
theorem foldl_upsert_getD {ι : Type} (k : κ) (d : ν) (g : ι → ν → ν) :
    ∀ {l : List ι}, l ≠ [] → ∀ m : OrderedMap κ ν,
      l.foldl (fun m x => m.upsert k fun old => g x (old.getD d)) m =
        m.upsert k fun old => l.foldl (fun a x => g x a) (old.getD d)
  | [x], _, m => rfl
  | x :: y :: l, _, m => by
    rw [List.foldl_cons, foldl_upsert_getD k d g (List.cons_ne_nil y l), upsert_upsert]
    rfl

/-- A loop that adds the entries of `l` in order to a map below them, each in at most one
update whose value on a new key is `val`, appends those of them it keeps. -/
theorem entries_foldl_upsert {ι : Type} (key : ι → κ) (keep : ι → Prop) [DecidablePred keep]
    (f : ι → Option ν → ν) : ∀ {l : List ι} {m : OrderedMap κ ν},
      (l.Pairwise fun a b => compare (key a) (key b) = .lt) →
      (∀ e ∈ m.entries, ∀ x ∈ l, compare e.1 (key x) = .lt) →
      (l.foldl (fun m x => if keep x then m.upsert (key x) (f x) else m) m).entries =
        m.entries ++ (l.filter (keep ·)).map fun x => (key x, f x none)
  | [], m, _, _ => by simp
  | x :: l, m, hl, hm => by
    obtain ⟨hx, hl⟩ := List.pairwise_cons.mp hl
    rw [List.foldl_cons]
    by_cases hk : keep x
    · have happ : (m.upsert (key x) (f x)).entries = m.entries ++ [(key x, f x none)] :=
        entries_upsert_of_lt _ fun e he => hm e he x List.mem_cons_self
      rw [if_pos hk, List.filter_cons_of_pos (by simp [hk]), List.map_cons, List.append_cons, ← happ]
      refine entries_foldl_upsert key keep f hl fun e he y hy => ?_
      rw [happ] at he
      rcases List.mem_append.mp he with he | he
      · exact hm e he y (List.mem_cons_of_mem x hy)
      · obtain rfl := List.mem_singleton.mp he
        exact hx y hy
    · rw [if_neg hk, List.filter_cons_of_neg (by simp [hk])]
      exact entries_foldl_upsert key keep f hl fun e he y hy => hm e he y (List.mem_cons_of_mem x hy)

/-! ## Lookups -/

theorem find?_congr {k k' : κ} (h : compare k k' = .eq) (m : OrderedMap κ ν) :
    m.find? k = m.find? k' :=
  findEntry_congr h m.entries

theorem find?_upsert (k j : κ) (f : Option ν → ν) (m : OrderedMap κ ν) :
    (m.upsert k f).find? j = if compare j k = .eq then some (f (m.find? k)) else m.find? j :=
  findEntry_upsertEntries k j f m.sorted

theorem find?_assign (k j : κ) (v : ν) (m : OrderedMap κ ν) :
    (m.assign k v).find? j = if compare j k = .eq then some v else m.find? j :=
  find?_upsert k j _ m

theorem find?_erase (k j : κ) (m : OrderedMap κ ν) :
    (m.erase k).find? j = if compare j k = .eq then none else m.find? j :=
  findEntry_erase k j m.entries

theorem find?_filterValues (p : ν → Bool) (k : κ) (m : OrderedMap κ ν) :
    (m.filterValues p).find? k = (m.find? k).filter p :=
  findEntry_filter p k m.sorted

/-- The entries at `k`. -/
theorem filter_entries_eq [Std.LawfulEqOrd κ] [DecidableEq κ] (k : κ) (m : OrderedMap κ ν) :
    (m.entries.filter fun e => e.1 = k) = ((m.find? k).map fun v => (k, v)).toList := by
  obtain ⟨entries, hsorted⟩ := m
  unfold find?
  dsimp only
  induction entries with
  | nil => rfl
  | cons e entries ih =>
    have ih := ih (List.pairwise_cons.mp hsorted).2
    rw [findEntry]
    by_cases hk : e.1 = k
    · subst hk
      have hnone : findEntry e.1 entries = none := findEntry_tail_eq_none hsorted (by simp)
      rw [hnone] at ih
      rw [List.filter_cons_of_pos (by simp), ih, if_pos Std.ReflCmp.compare_self]
      rfl
    · have hne : compare k e.1 ≠ .eq := fun h => hk (Std.LawfulEqCmp.eq_of_compare h).symm
      rw [List.filter_cons_of_neg (by simpa using hk), ih, if_neg hne]

/-- The entry at `k`, under the key it was made with. -/
theorem filter_entries_of_find? {k : κ} {v : ν} {m : OrderedMap κ ν} (h : m.find? k = some v) :
    ∃ k', compare k k' = .eq ∧ (m.entries.filter fun e => compare k e.1 = .eq) = [(k', v)] := by
  obtain ⟨entries, hsorted⟩ := m
  unfold find? at h
  dsimp only at h ⊢
  induction entries with
  | nil => exact absurd h (by simp [findEntry])
  | cons e entries ih =>
    rw [findEntry] at h
    by_cases hk : compare k e.1 = .eq
    · have hnone : findEntry k entries = none := findEntry_tail_eq_none hsorted (by simp [hk])
      have htail : (entries.filter fun e => compare k e.1 = .eq) = [] := by
        rw [List.filter_eq_nil_iff]
        intro e' he' heq
        have hsome : (findEntry k entries).isSome = true :=
          findEntry_isSome.mpr ⟨e', he', by simpa using heq⟩
        rw [hnone] at hsome
        exact Bool.false_ne_true hsome
      rw [if_pos hk] at h
      refine ⟨e.1, hk, ?_⟩
      rw [List.filter_cons_of_pos (by simpa using hk), htail, ← Option.some_inj.mp h]
    · rw [if_neg hk] at h
      rw [List.filter_cons_of_neg (by simpa using hk)]
      exact ih (List.pairwise_cons.mp hsorted).2 h

/-- The entry of a key, by any key that compares equal. -/
theorem find?_of_mem_entries {entry : κ × ν} {m : OrderedMap κ ν} (h : entry ∈ m.entries) :
    m.find? entry.1 = some entry.2 := by
  have hself : compare entry.1 entry.1 = .eq := Std.ReflCmp.compare_self
  obtain ⟨v, hv⟩ := Option.isSome_iff_exists.mp (isSome_find?_iff.mpr
    ⟨entry.1, List.mem_map_of_mem h, hself⟩ : (m.find? entry.1).isSome = true)
  obtain ⟨k', -, hentries⟩ := filter_entries_of_find? hv
  have hmem : entry ∈ m.entries.filter fun e => compare entry.1 e.1 = .eq :=
    List.mem_filter.mpr ⟨h, by simp⟩
  rw [hentries] at hmem
  rw [hv, List.mem_singleton.mp hmem]

/-- A loop that adds each value to the list at its key : the list at `k` grows by the values of
`k` in order. -/
theorem find?_foldl_append [Std.LawfulEqOrd κ] [DecidableEq κ] (k : κ) :
    ∀ (l : List (κ × ν)) (m : OrderedMap κ (List ν)),
      (l.foldl (fun m e => m.upsert e.1 fun old => old.getD [] ++ [e.2]) m).find? k =
        if (l.filter fun e => e.1 = k) = [] then m.find? k
        else some ((m.find? k).getD [] ++ (l.filter fun e => e.1 = k).map Prod.snd)
  | [], m => by simp
  | e :: l, m => by
    rw [List.foldl_cons, find?_foldl_append k l, find?_upsert]
    by_cases hk : e.1 = k
    · subst hk
      rw [if_pos Std.ReflCmp.compare_self, List.filter_cons_of_pos (by simp)]
      by_cases hl : (l.filter fun e' => e'.1 = e.1) = [] <;> simp [hl]
    · have hne : compare k e.1 ≠ .eq := fun h => hk (Std.LawfulEqCmp.eq_of_compare h).symm
      rw [if_neg hne, List.filter_cons_of_neg (by simpa using hk)]

theorem mem_entries_iff [Std.LawfulEqOrd κ] {k : κ} {v : ν} {m : OrderedMap κ ν} :
    (k, v) ∈ m.entries ↔ m.find? k = some v := by
  classical
  have hfilter : (k, v) ∈ m.entries ↔ (k, v) ∈ m.entries.filter fun e => e.1 = k := by
    simp [List.mem_filter]
  rw [hfilter, filter_entries_eq]
  simp

/-- A loop of `m[group x].push_back(val x)` files each value under its group. -/
theorem exists_mem_entries_group {ι : Type} [Std.LawfulEqOrd κ] (group : ι → κ) (val : ι → ν)
    {l : List ι} {k : κ} {v : ν} :
    (∃ e ∈ (l.foldl (fun m x => m.upsert (group x) fun old => old.getD [] ++ [val x])
        (empty : OrderedMap κ (List ν))).entries, e.1 = k ∧ v ∈ e.2) ↔
      ∃ x ∈ l, group x = k ∧ val x = v := by
  classical
  have hloop := find?_foldl_append k (l.map fun x => (group x, val x)) empty
  rw [List.foldl_map] at hloop
  have hmem : (∃ x ∈ l, group x = k ∧ val x = v) ↔
      v ∈ (((l.map fun x => (group x, val x)).filter fun e => e.1 = k).map Prod.snd) := by
    simp [List.mem_filter]
  rw [hmem]
  constructor
  · rintro ⟨⟨k', vs⟩, he, heq, hv⟩
    dsimp only at heq hv
    subst heq
    rw [mem_entries_iff, hloop] at he
    split at he
    · simp at he
    · rw [← Option.some_inj.mp he] at hv
      simpa using hv
  · intro hv
    refine ⟨(k, _), mem_entries_iff.mpr (hloop.trans (if_neg fun hnil => ?_)), rfl, by simpa using hv⟩
    rw [hnil] at hv
    exact List.not_mem_nil hv

/-- A loop of `m[a].emplace(b, v)` keeps the first value for each pair of keys. -/
theorem find?_foldl_insert {κ' ι : Type} [Ord κ'] [Std.TransOrd κ'] [Std.LawfulEqOrd κ]
    [Std.LawfulEqOrd κ'] [DecidableEq κ] [DecidableEq κ'] (outer : ι → κ) (inner : ι → κ')
    (val : ι → ν) (a : κ) (b : κ') : ∀ (l : List ι) (m : OrderedMap κ (OrderedMap κ' ν)),
      (((l.foldl (fun m x => m.upsert (outer x) fun old =>
        (old.getD empty).insert (inner x) (val x)) m).find? a).getD empty).find? b =
        (((m.find? a).getD empty).find? b).or
          ((l.find? fun x => outer x = a ∧ inner x = b).map val)
  | [], m => by simp
  | x :: l, m => by
    rw [List.foldl_cons, find?_foldl_insert outer inner val a b l, find?_upsert]
    by_cases ha : outer x = a
    · subst ha
      rw [if_pos Std.ReflCmp.compare_self, Option.getD_some]
      by_cases hb : inner x = b
      · subst hb
        have hfirst : (x :: l).find? (fun y => outer y = outer x ∧ inner y = inner x) = some x := by
          simp
        have hself : compare (inner x) (inner x) = .eq := Std.ReflCmp.compare_self
        rw [hfirst, insert, find?_upsert, if_pos hself]
        cases (((m.find? (outer x)).getD empty).find? (inner x)) <;> rfl
      · have hne : compare b (inner x) ≠ .eq := fun h => hb (Std.LawfulEqCmp.eq_of_compare h).symm
        rw [insert, find?_upsert, if_neg hne, List.find?_cons_of_neg (by simp [hb])]
    · have hne : compare a (outer x) ≠ .eq := fun h => ha (Std.LawfulEqCmp.eq_of_compare h).symm
      rw [if_neg hne, List.find?_cons_of_neg (by simp [ha])]

end OrderedMap

end DataShare
