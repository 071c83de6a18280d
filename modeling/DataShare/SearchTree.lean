import Mathlib.Data.List.Pairwise
import Mathlib.Data.List.Perm.Basic
import Mathlib.Tactic.Common

/-!
# Search trees under a comparison

A map of the C++ standard library is a binary tree that is searched with a comparison `lt` : a
find descends to the first entry that is not less than the key (`lowerBound`) and compares once
more, and an insertion descends to a leaf and looks whether the entry before it is equivalent.
Neither checks that `lt` is an order. How the tree is balanced is left open (`Balancing`), it
keeps the entries in their order.

On keys where `lt` is a strict order (`StrictOrderOn`) a sorted tree finds exactly its entries
(`find_eq_some_iff`), and an insertion adds the entry unless its key is there
(`insertUnique_of_notMem`, `insertUnique_of_mem`).
-/

namespace DataShare

/-- `lt` is a strict weak order on the keys `S`, and two of them are equivalent only if they are
equal. -/
structure StrictOrderOn {κ : Type} (lt : κ → κ → Bool) (S : κ → Prop) : Prop where
  irrefl : ∀ a, S a → lt a a = false
  asymm : ∀ a b, S a → S b → lt a b = true → lt b a = false
  trans : ∀ a b c, S a → S b → S c → lt a b = true → lt b c = true → lt a c = true
  eq_of_equivalent : ∀ a b, S a → S b → lt a b = false → lt b a = false → a = b

inductive SearchTree (κ ν : Type)
  | nil
  | node (left : SearchTree κ ν) (entry : κ × ν) (right : SearchTree κ ν)

namespace SearchTree

variable {κ ν : Type}

def inorder : SearchTree κ ν → List (κ × ν)
  | nil => []
  | node l e r => l.inorder ++ e :: r.inorder

section Search

variable (lt : κ → κ → Bool)

/-- The entry that the descent to `k` last went left at, or `bound`. -/
def lowerBound (k : κ) : SearchTree κ ν → Option (κ × ν) → Option (κ × ν)
  | nil, bound => bound
  | node l e r, bound => if lt e.1 k then lowerBound k r bound else lowerBound k l (some e)

def find (t : SearchTree κ ν) (k : κ) : Option ν :=
  match t.lowerBound lt k none with
  | none => none
  | some e => if lt k e.1 then none else some e.2

/-- The entry before the leaf that an insertion of `k` ends at, or `before`. -/
def lastBefore (k : κ) : SearchTree κ ν → Option (κ × ν) → Option (κ × ν)
  | nil, before => before
  | node l e r, before => if lt k e.1 then lastBefore k l before else lastBefore k r (some e)

/-- Put the entry at its leaf. -/
def insertLeaf (new : κ × ν) : SearchTree κ ν → SearchTree κ ν
  | nil => node nil new nil
  | node l e r =>
    if lt new.1 e.1 then node (insertLeaf new l) e r else node l e (insertLeaf new r)

/-- Insert the entry unless the one before its leaf is not less than it. -/
def insertUnique (new : κ × ν) (t : SearchTree κ ν) : SearchTree κ ν :=
  match t.lastBefore lt new.1 none with
  | none => t.insertLeaf lt new
  | some e => if lt e.1 new.1 then t.insertLeaf lt new else t

end Search

/-- What is done to a tree after an insertion, and the erasure of entries. -/
structure Balancing (κ ν : Type) where
  rebalance : SearchTree κ ν → SearchTree κ ν
  eraseIf : SearchTree κ ν → (κ × ν → Bool) → SearchTree κ ν
  inorder_rebalance : ∀ t, (rebalance t).inorder = t.inorder
  inorder_eraseIf : ∀ t p, (eraseIf t p).inorder = t.inorder.filter fun e => !p e

/-! ## Without an order -/

section Any

variable {lt : κ → κ → Bool} {k : κ}

theorem lowerBound_cases : ∀ {t : SearchTree κ ν} {bound : Option (κ × ν)} {e : κ × ν},
    t.lowerBound lt k bound = some e → bound = some e ∨ e ∈ t.inorder ∧ lt e.1 k = false
  | nil, _, _, h => Or.inl h
  | node l e' r, bound, e, h => by
    rw [lowerBound] at h
    split at h
    · rcases lowerBound_cases h with hbound | ⟨hmem, hlt⟩
      · exact Or.inl hbound
      · exact Or.inr ⟨by simp [inorder, hmem], hlt⟩
    · next hlt' =>
      rcases lowerBound_cases h with heq | ⟨hmem, hlt⟩
      · obtain rfl := Option.some.inj heq
        exact Or.inr ⟨by simp [inorder], Bool.eq_false_iff.mpr hlt'⟩
      · exact Or.inr ⟨by simp [inorder, hmem], hlt⟩

/-- What is found is an entry with an equivalent key. -/
theorem mem_of_find {t : SearchTree κ ν} {v : ν} (h : t.find lt k = some v) :
    ∃ k', (k', v) ∈ t.inorder ∧ lt k k' = false ∧ lt k' k = false := by
  rw [find] at h
  cases hbound : t.lowerBound lt k none with
  | none =>
    rw [hbound] at h
    exact absurd h (by simp)
  | some e =>
    rw [hbound] at h
    dsimp only at h
    split at h
    · exact absurd h (by simp)
    · next hlt =>
      rcases lowerBound_cases hbound with hnone | ⟨hmem, hlt'⟩
      · exact absurd hnone (by simp)
      · rw [← Option.some.inj h]
        exact ⟨e.1, hmem, Bool.eq_false_iff.mpr hlt, hlt'⟩

theorem perm_insertLeaf (new : κ × ν) :
    ∀ t : SearchTree κ ν, (t.insertLeaf lt new).inorder.Perm (new :: t.inorder)
  | nil => List.Perm.refl _
  | node l e r => by
    rw [insertLeaf]
    split
    · exact (perm_insertLeaf new l).append_right (e :: r.inorder)
    · have hright : (e :: (r.insertLeaf lt new).inorder).Perm (new :: e :: r.inorder) :=
        ((perm_insertLeaf new r).cons e).trans (List.Perm.swap new e _)
      exact (hright.append_left l.inorder).trans List.perm_middle

theorem insertUnique_cases (new : κ × ν) (t : SearchTree κ ν) :
    t.insertUnique lt new = t.insertLeaf lt new ∨ t.insertUnique lt new = t := by
  rw [insertUnique]
  split
  · exact Or.inl rfl
  · split
    · exact Or.inl rfl
    · exact Or.inr rfl

theorem lastBefore_cases : ∀ {t : SearchTree κ ν} {before : Option (κ × ν)} {e : κ × ν},
    t.lastBefore lt k before = some e → before = some e ∨ e ∈ t.inorder ∧ lt k e.1 = false
  | nil, _, _, h => Or.inl h
  | node l e' r, before, e, h => by
    rw [lastBefore] at h
    split at h
    · rcases lastBefore_cases h with hbefore | ⟨hmem, hlt⟩
      · exact Or.inl hbefore
      · exact Or.inr ⟨by simp [inorder, hmem], hlt⟩
    · next hlt' =>
      rcases lastBefore_cases h with heq | ⟨hmem, hlt⟩
      · obtain rfl := Option.some.inj heq
        exact Or.inr ⟨by simp [inorder], Bool.eq_false_iff.mpr hlt'⟩
      · exact Or.inr ⟨by simp [inorder, hmem], hlt⟩

end Any

/-! ## With an order -/

section Ordered

variable {lt : κ → κ → Bool} {S : κ → Prop} {t l r : SearchTree κ ν} {e : κ × ν} {k : κ} {v : ν}

/-- The keys are in `S`, and in ascending order. -/
structure Sorted (lt : κ → κ → Bool) (S : κ → Prop) (t : SearchTree κ ν) : Prop where
  mem : ∀ e ∈ t.inorder, S e.1
  pairwise : t.inorder.Pairwise fun a b => lt a.1 b.1 = true

theorem sorted_node : (node l e r).Sorted lt S ↔
    (l.Sorted lt S ∧ ∀ a ∈ l.inorder, lt a.1 e.1 = true) ∧ S e.1 ∧
      (r.Sorted lt S ∧ ∀ b ∈ r.inorder, lt e.1 b.1 = true) ∧
      ∀ a ∈ l.inorder, ∀ b ∈ r.inorder, lt a.1 b.1 = true := by
  constructor
  · rintro ⟨hmem, hpair⟩
    rw [inorder, List.pairwise_append, List.pairwise_cons] at hpair
    obtain ⟨hl, ⟨her, hr⟩, hcross⟩ := hpair
    have hmem' : ∀ a, a ∈ l.inorder ∨ a = e ∨ a ∈ r.inorder → S a.1 := by
      intro a ha
      refine hmem a ?_
      simpa [inorder] using ha
    exact ⟨⟨⟨fun a ha => hmem' a (Or.inl ha), hl⟩, fun a ha => hcross a ha e List.mem_cons_self⟩,
      hmem' e (Or.inr (Or.inl rfl)), ⟨⟨fun b hb => hmem' b (Or.inr (Or.inr hb)), hr⟩, her⟩,
      fun a ha b hb => hcross a ha b (List.mem_cons_of_mem _ hb)⟩
  · rintro ⟨⟨hl, hle⟩, he, ⟨hr, her⟩, hcross⟩
    constructor
    · intro a ha
      rcases List.mem_append.mp ha with ha | ha
      · exact hl.mem a ha
      · rcases List.mem_cons.mp ha with rfl | ha
        · exact he
        · exact hr.mem a ha
    · rw [inorder, List.pairwise_append, List.pairwise_cons]
      refine ⟨hl.pairwise, ⟨her, hr.pairwise⟩, fun a ha b hb => ?_⟩
      rcases List.mem_cons.mp hb with rfl | hb
      · exact hle a ha
      · exact hcross a ha b hb

/-- The descent to a key ends at its entry. -/
theorem lowerBound_of_mem (hlt : StrictOrderOn lt S) :
    ∀ {t : SearchTree κ ν} {bound : Option (κ × ν)}, t.Sorted lt S → (k, v) ∈ t.inorder →
      t.lowerBound lt k bound = some (k, v)
  | nil, _, _, h => absurd h List.not_mem_nil
  | node l e r, bound, hsorted, h => by
    obtain ⟨⟨hl, hle⟩, he, ⟨hr, her⟩, -⟩ := sorted_node.mp hsorted
    have hk : S k := hsorted.mem _ h
    rw [lowerBound]
    rcases List.mem_append.mp h with hmem | hmem
    · rw [if_neg (Bool.eq_false_iff.mp (hlt.asymm _ _ hk he (hle _ hmem)))]
      exact lowerBound_of_mem hlt hl hmem
    · rcases List.mem_cons.mp hmem with rfl | hmem
      · rw [if_neg (Bool.eq_false_iff.mp (hlt.irrefl _ hk))]
        -- all of the left subtree is less
        have hskip : ∀ {s : SearchTree κ ν} {bound : Option (κ × ν)},
            (∀ a ∈ s.inorder, lt a.1 k = true) → s.lowerBound lt k bound = bound := by
          intro s
          induction s with
          | nil => exact fun _ => rfl
          | node sl se sr _ ihr =>
            intro bound hall
            rw [lowerBound, if_pos (hall se (by simp [inorder]))]
            exact ihr fun a ha => hall a (by simp [inorder, ha])
        exact hskip hle
      · rw [if_pos (her _ hmem)]
        exact lowerBound_of_mem hlt hr hmem

/-- A sorted tree finds exactly its entries. -/
theorem find_eq_some_iff (hlt : StrictOrderOn lt S) (hsorted : t.Sorted lt S) (hk : S k) :
    t.find lt k = some v ↔ (k, v) ∈ t.inorder := by
  constructor
  · intro h
    obtain ⟨k', hmem, hlt₁, hlt₂⟩ := mem_of_find h
    rwa [hlt.eq_of_equivalent k k' hk (hsorted.mem _ hmem) hlt₁ hlt₂]
  · intro h
    rw [find, lowerBound_of_mem hlt hsorted h]
    dsimp only
    rw [if_neg (Bool.eq_false_iff.mp (hlt.irrefl _ hk))]

theorem sorted_insertLeaf (hlt : StrictOrderOn lt S) {new : κ × ν} (hnew : S new.1) :
    ∀ {t : SearchTree κ ν}, t.Sorted lt S → (∀ e ∈ t.inorder, e.1 ≠ new.1) →
      (t.insertLeaf lt new).Sorted lt S
  | nil, _, _ => ⟨fun e he => List.mem_singleton.mp he ▸ hnew, List.pairwise_singleton _ _⟩
  | node l e r, hsorted, hne => by
    obtain ⟨⟨hl, hle⟩, he, ⟨hr, her⟩, hcross⟩ := sorted_node.mp hsorted
    rw [insertLeaf]
    split
    · next hbefore =>
      have hmem : ∀ a ∈ (l.insertLeaf lt new).inorder, a = new ∨ a ∈ l.inorder := fun a ha =>
        List.mem_cons.mp ((perm_insertLeaf new l).mem_iff.mp ha)
      refine sorted_node.mpr ⟨⟨sorted_insertLeaf hlt hnew hl fun a ha => hne a (by simp [inorder, ha]),
        fun a ha => ?_⟩, he, ⟨hr, her⟩, fun a ha b hb => ?_⟩
      · rcases hmem a ha with rfl | ha
        · exact hbefore
        · exact hle a ha
      · rcases hmem a ha with rfl | ha
        · exact hlt.trans _ _ _ hnew he (hr.mem b hb) hbefore (her b hb)
        · exact hcross a ha b hb
    · next hbefore =>
      have hafter : lt e.1 new.1 = true := by
        by_contra hnot
        exact hne e (by simp [inorder]) (hlt.eq_of_equivalent _ _ he hnew
          (Bool.eq_false_iff.mpr hnot) (Bool.eq_false_iff.mpr hbefore))
      have hmem : ∀ b ∈ (r.insertLeaf lt new).inorder, b = new ∨ b ∈ r.inorder := fun b hb =>
        List.mem_cons.mp ((perm_insertLeaf new r).mem_iff.mp hb)
      refine sorted_node.mpr ⟨⟨hl, hle⟩, he, ⟨sorted_insertLeaf hlt hnew hr fun b hb =>
        hne b (by simp [inorder, hb]), fun b hb => ?_⟩, fun a ha b hb => ?_⟩
      · rcases hmem b hb with rfl | hb
        · exact hafter
        · exact her b hb
      · rcases hmem b hb with rfl | hb
        · exact hlt.trans _ _ _ (hl.mem a ha) he hnew (hle a ha) hafter
        · exact hcross a ha b hb

/-- An insertion adds an entry whose key is not there. -/
theorem insertUnique_of_notMem (hlt : StrictOrderOn lt S) {new : κ × ν} (hnew : S new.1)
    (hsorted : t.Sorted lt S) (hne : ∀ e ∈ t.inorder, e.1 ≠ new.1) :
    t.insertUnique lt new = t.insertLeaf lt new := by
  rw [insertUnique]
  cases hlast : t.lastBefore lt new.1 none with
  | none => rfl
  | some e =>
    rcases lastBefore_cases hlast with hnone | ⟨hmem, hbefore⟩
    · exact absurd hnone (by simp)
    · have hafter : lt e.1 new.1 = true := by
        by_contra hnot
        exact hne e hmem (hlt.eq_of_equivalent _ _ (hsorted.mem e hmem) hnew
          (Bool.eq_false_iff.mpr hnot) hbefore)
      dsimp only
      rw [if_pos hafter]

/-- The descent of an insertion ends behind the entry with its key. -/
theorem lastBefore_of_mem (hlt : StrictOrderOn lt S) :
    ∀ {t : SearchTree κ ν} {before : Option (κ × ν)}, t.Sorted lt S → (k, v) ∈ t.inorder →
      t.lastBefore lt k before = some (k, v)
  | nil, _, _, h => absurd h List.not_mem_nil
  | node l e r, before, hsorted, h => by
    obtain ⟨⟨hl, hle⟩, he, ⟨hr, her⟩, -⟩ := sorted_node.mp hsorted
    have hk : S k := hsorted.mem _ h
    rw [lastBefore]
    rcases List.mem_append.mp h with hmem | hmem
    · rw [if_pos (hle _ hmem)]
      exact lastBefore_of_mem hlt hl hmem
    · rcases List.mem_cons.mp hmem with rfl | hmem
      · rw [if_neg (Bool.eq_false_iff.mp (hlt.irrefl _ hk))]
        have hskip : ∀ {s : SearchTree κ ν} {before : Option (κ × ν)},
            (∀ b ∈ s.inorder, lt k b.1 = true) → s.lastBefore lt k before = before := by
          intro s
          induction s with
          | nil => exact fun _ => rfl
          | node sl se sr ihl _ =>
            intro before hall
            rw [lastBefore, if_pos (hall se (by simp [inorder]))]
            exact ihl fun b hb => hall b (by simp [inorder, hb])
        exact hskip her
      · rw [if_neg (Bool.eq_false_iff.mp (hlt.asymm _ _ he hk (her _ hmem)))]
        exact lastBefore_of_mem hlt hr hmem

/-- An insertion leaves the entry that has its key. -/
theorem insertUnique_of_mem (hlt : StrictOrderOn lt S) {new : κ × ν} (hsorted : t.Sorted lt S)
    (hmem : (new.1, v) ∈ t.inorder) : t.insertUnique lt new = t := by
  rw [insertUnique, lastBefore_of_mem hlt hsorted hmem]
  dsimp only
  rw [if_neg (Bool.eq_false_iff.mp (hlt.irrefl _ (hsorted.mem _ hmem)))]

/-- Each key has one entry. -/
theorem Sorted.nodup_keys (hlt : StrictOrderOn lt S) (h : t.Sorted lt S) :
    (t.inorder.map Prod.fst).Nodup := by
  rw [List.Nodup, List.pairwise_map]
  refine h.pairwise.imp_of_mem fun {a b} ha _ hab heq => ?_
  rw [← heq, hlt.irrefl _ (h.mem a ha)] at hab
  exact Bool.false_ne_true hab

end Ordered

end SearchTree

end DataShare
