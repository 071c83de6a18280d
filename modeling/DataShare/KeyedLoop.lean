import DataShare.OrderedMap
import Mathlib.Logic.Function.Iterate

/-!
# Loops over keys

A loop over a list of keys that works on the entry of each key in turn (`TurnAt`) acts on
one key `k` as often as the list mentions it : what the loop keeps for `k` is the iterate
of what one turn does to it (`TurnAt.foldl`), which is a single turn where a second one
changes nothing (`TurnAt.foldl_of_idempotent`). `CollectsAt.foldl` is the same for the keys
a loop collects on the way.
-/

namespace DataShare

variable {κ : Type} [Ord κ]

/-- Some key of the list compares equal to `k`. -/
def Mentions (k : κ) (keys : List κ) : Prop :=
  ∃ key ∈ keys, compare k key = .eq

/-- Keys that compare equal only to themselves. -/
theorem mentions_iff_mem [Std.LawfulEqOrd κ] {k : κ} {keys : List κ} :
    Mentions k keys ↔ k ∈ keys := by
  constructor
  · rintro ⟨key, hkey, hcmp⟩
    rwa [Std.LawfulEqOrd.eq_of_compare hcmp]
  · exact fun hk => ⟨k, hk, Std.ReflCmp.compare_self⟩

instance (k : κ) (keys : List κ) : Decidable (Mentions k keys) :=
  inferInstanceAs (Decidable (∃ key ∈ keys, compare k key = .eq))

@[simp] theorem not_mentions_nil (k : κ) : ¬ Mentions k [] := by
  simp [Mentions]

@[simp] theorem mentions_cons {k key : κ} {keys : List κ} :
    Mentions k (key :: keys) ↔ compare k key = .eq ∨ Mentions k keys :=
  List.exists_mem_cons_iff _ _ _

@[simp] theorem mentions_append {k : κ} {keys keys' : List κ} :
    Mentions k (keys ++ keys') ↔ Mentions k keys ∨ Mentions k keys' := by
  simp [Mentions, or_and_right, exists_or]

/-- How often the list mentions `k`. -/
def mentionCount (k : κ) (keys : List κ) : ℕ :=
  keys.countP fun key => compare k key = .eq

theorem mentionCount_pos {k : κ} {keys : List κ} : 0 < mentionCount k keys ↔ Mentions k keys := by
  unfold mentionCount Mentions
  rw [List.countP_pos_iff]
  simp

theorem mentionCount_eq_zero {k : κ} {keys : List κ} : mentionCount k keys = 0 ↔ ¬ Mentions k keys := by
  rw [← mentionCount_pos, Nat.pos_iff_ne_zero, not_not]

theorem mentionCount_concat (k : κ) (keys : List κ) (key : κ) :
    mentionCount k (keys ++ [key]) = mentionCount k keys + if compare k key = .eq then 1 else 0 := by
  by_cases hk : compare k key = .eq <;> simp [mentionCount, hk]

/-- A map has at most one key that compares equal to `k`. -/
theorem mentionCount_keys {ν : Type} [Std.TransOrd κ] (k : κ) (m : OrderedMap κ ν) :
    mentionCount k m.keys = if (m.find? k).isSome then 1 else 0 := by
  obtain ⟨entries, hsorted⟩ := m
  unfold mentionCount OrderedMap.keys OrderedMap.find?
  dsimp only
  induction entries with
  | nil => rfl
  | cons e entries ih =>
    have ih := ih (List.pairwise_cons.mp hsorted).2
    rw [List.map_cons, findEntry]
    by_cases hk : compare k e.1 = .eq
    · have hnone : findEntry k entries = none := findEntry_tail_eq_none hsorted (by simp [hk])
      rw [hnone] at ih
      rw [List.countP_cons_of_pos (by simpa using hk), ih, if_pos hk]
      rfl
    · rw [List.countP_cons_of_neg (by simpa using hk), ih, if_neg hk]

section Loops

variable {α β : Type} {k : κ} {f : α → κ → α} {view : α → β} {g : β → β} {collected : α → List κ}
  {c : β → Prop}

/-- A turn of the loop does `g` to what it keeps for its own key, and nothing to the rest. -/
def TurnAt (k : κ) (f : α → κ → α) (view : α → β) (g : β → β) : Prop :=
  ∀ acc key, view (f acc key) = if compare k key = .eq then g (view acc) else view acc

/-- A turn of the loop collects its own key where it finds `c`. -/
def CollectsAt (k : κ) (f : α → κ → α) (view : α → β) (collected : α → List κ) (c : β → Prop) :
    Prop :=
  ∀ acc key, Mentions k (collected (f acc key)) ↔
    Mentions k (collected acc) ∨ compare k key = .eq ∧ c (view acc)

/-- What a loop keeps for `k`, from what one turn does to it. -/
theorem TurnAt.foldl (h : TurnAt k f view g) : ∀ (keys : List κ) (acc : α),
    view (keys.foldl f acc) = g^[mentionCount k keys] (view acc)
  | [], acc => rfl
  | key :: keys, acc => by
    rw [List.foldl_cons, h.foldl keys, h]
    unfold mentionCount
    by_cases hk : compare k key = .eq
    · rw [List.countP_cons_of_pos (by simpa using hk), if_pos hk, Function.iterate_succ_apply]
    · rw [List.countP_cons_of_neg (by simpa using hk), if_neg hk]

theorem iterate_of_idempotent (hg : ∀ b, g (g b) = g b) (b : β) :
    ∀ n, g^[n] b = if 0 < n then g b else b
  | 0 => rfl
  | 1 => rfl
  | n + 2 => by
    rw [Function.iterate_succ_apply', iterate_of_idempotent hg b (n + 1), if_pos (by omega),
      if_pos (by omega), hg]

theorem TurnAt.foldl_of_idempotent (h : TurnAt k f view g) (hg : ∀ b, g (g b) = g b)
    (keys : List κ) (acc : α) :
    view (keys.foldl f acc) = if Mentions k keys then g (view acc) else view acc := by
  rw [h.foldl, iterate_of_idempotent hg]
  simp only [mentionCount_pos]

/-- Where no turn makes `c` true, the keys a loop collects are those it finds with `c` at the
start. -/
theorem CollectsAt.foldl (hcol : CollectsAt k f view collected c) (h : TurnAt k f view g)
    (hc : ∀ b, c (g b) → c b) : ∀ (keys : List κ) (acc : α),
      Mentions k (collected (keys.foldl f acc)) ↔
        Mentions k (collected acc) ∨ Mentions k keys ∧ c (view acc)
  | [], acc => by simp
  | key :: keys, acc => by
    rw [List.foldl_cons, hcol.foldl h hc keys, hcol, h, mentions_cons]
    by_cases hk : compare k key = .eq
    · have := hc (view acc)
      rw [if_pos hk]
      tauto
    · rw [if_neg hk]
      tauto

end Loops

/-- A loop that erases keys. -/
theorem find?_eraseLoop [Std.TransOrd κ] {ν : Type} (k : κ) (keys : List κ)
    (map : OrderedMap κ ν) : (keys.foldl (fun map key => map.erase key) map).find? k =
      if Mentions k keys then none else map.find? k := by
  have hturn : TurnAt k (fun map key => map.erase key)
      (fun map : OrderedMap κ ν => map.find? k) fun _ => none := fun map key =>
    OrderedMap.find?_erase key k map
  exact hturn.foldl_of_idempotent (fun _ => rfl) keys map

end DataShare
