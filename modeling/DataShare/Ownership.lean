import DataShare.KeyedLoop
import Mathlib.Data.List.Forall2

/-!
# Nodes of subscribers

Lists of nodes, each stored for a subscriber (`who`) and holding something (`what`). A change of such a
list is the subscriber's own (`OwnChange`) if the nodes of all others stay as they are, and each of its
own nodes holds what one of them held before, or something it `brings`. Changes of a subscriber
compose, also along a loop over keys (`OwnChange.loop`).

If the nodes of a subscriber are those that hold one thing, and it brings nothing else, they are so
after its changes (`OwnChange.holders`), and the nodes that hold other things are not touched
(`OwnChange.keeps_others`).
-/

namespace DataShare

variable {ν σ ω : Type} [DecidableEq σ]

/-- A change that `s` makes to its own nodes only. -/
structure OwnChange (who : ν → σ) (what : ν → ω) (s : σ) (brings : ω → Prop) (before after : List ν) :
    Prop where
  others : (after.filter fun node => who node ≠ s) = before.filter fun node => who node ≠ s
  own : ∀ node ∈ after, who node = s →
    brings (what node) ∨ ∃ old ∈ before, who old = s ∧ what old = what node

namespace OwnChange

variable {who : ν → σ} {what : ν → ω} {s : σ} {brings : ω → Prop} {before between after : List ν}

theorem refl (nodes : List ν) : OwnChange who what s brings nodes nodes where
  others := rfl
  own := fun node hnode hs => .inr ⟨node, hnode, hs, rfl⟩

theorem trans (h : OwnChange who what s brings before between)
    (h' : OwnChange who what s brings between after) : OwnChange who what s brings before after where
  others := h'.others.trans h.others
  own := by
    intro node hnode hs
    rcases h'.own node hnode hs with hnew | ⟨old, hold, hs', hwhat⟩
    · exact .inl hnew
    · rw [← hwhat]
      exact h.own old hold hs'

theorem mono {brings' : ω → Prop} (h : OwnChange who what s brings before after)
    (hbrings : ∀ w, brings w → brings' w) : OwnChange who what s brings' before after where
  others := h.others
  own := fun node hnode hs => (h.own node hnode hs).imp_left (hbrings _)

/-- New nodes of the subscriber. -/
theorem append {added : List ν} (h : ∀ node ∈ added, who node = s ∧ brings (what node)) :
    OwnChange who what s brings before (before ++ added) where
  others := by
    have hnone : (added.filter fun node => who node ≠ s) = [] :=
      List.filter_eq_nil_iff.mpr fun node hnode => by simpa using (h node hnode).1
    rw [List.filter_append, hnone, List.append_nil]
  own := by
    intro node hnode hs
    rcases List.mem_append.mp hnode with hnode | hnode
    · exact .inr ⟨node, hnode, hs, rfl⟩
    · exact .inl (h node hnode).2

variable (before) in
/-- The nodes of the subscriber go. -/
theorem remove : OwnChange who what s brings before (before.filter fun node => who node ≠ s) where
  others := by simp only [List.filter_filter, Bool.and_self]
  own := fun node hnode hs => absurd hs (of_decide_eq_true (List.mem_filter.mp hnode).2)

/-- The nodes of the subscriber change in something they do not hold. -/
theorem update (h : List.Forall₂ (fun old node => who node = who old ∧ what node = what old ∧
      (who old ≠ s → node = old)) before after) : OwnChange who what s brings before after := by
  induction h with
  | nil => exact refl []
  | cons hnode _ ih =>
    obtain ⟨hwho, hwhat, hkept⟩ := hnode
    refine ⟨?_, fun node hnode hs => ?_⟩
    · rename_i old node olds nodes _
      by_cases hs : who old = s
      · rw [List.filter_cons_of_neg (by simpa [hwho] using hs),
          List.filter_cons_of_neg (by simpa using hs), ih.others]
      · rw [hkept hs, List.filter_cons_of_pos (by simpa using hs),
          List.filter_cons_of_pos (by simpa using hs), ih.others]
    · rcases List.mem_cons.mp hnode with rfl | hnode
      · exact .inr ⟨_, List.mem_cons_self, hwho.symm.trans hs, hwhat.symm⟩
      · refine (ih.own node hnode hs).imp_right ?_
        rintro ⟨old, hold, hold'⟩
        exact ⟨old, List.mem_cons_of_mem _ hold, hold'⟩

theorem map_update {f : ν → ν} (h : ∀ node, who (f node) = who node ∧ what (f node) = what node ∧
      (who node ≠ s → f node = node)) : OwnChange who what s brings before (before.map f) :=
  update (List.forall₂_map_right_iff.mpr (List.forall₂_same.mpr fun node _ => h node))

variable {β : Type} {entries : β → List ν} {g : β → β}

theorem iterate (h : ∀ b, OwnChange who what s brings (entries b) (entries (g b))) (n : ℕ) (b : β) :
    OwnChange who what s brings (entries b) (entries (g^[n] b)) := by
  induction n with
  | zero => exact refl _
  | succ n ih =>
    rw [Function.iterate_succ_apply']
    exact ih.trans (h _)

/-- A loop over keys whose turns are changes of the subscriber. -/
theorem loop {α κ : Type} [Ord κ] {k : κ} {f : α → κ → α} {view : α → β} (hturn : TurnAt k f view g)
    (h : ∀ b, OwnChange who what s brings (entries b) (entries (g b))) (keys : List κ) (acc : α) :
    OwnChange who what s brings (entries (view acc)) (entries (view (keys.foldl f acc))) := by
  rw [hturn.foldl]
  exact iterate h _ _

/-- The same change of other nodes, that hold what these hold translated by `t`. -/
theorem map {ν' ω' : Type} {who' : ν' → σ} {what' : ν' → ω'} {brings' : ω' → Prop} {f : ν → ν'}
    {t : ω → ω'} (h : OwnChange who what s brings before after) (hwho : ∀ node, who' (f node) = who node)
    (hwhat : ∀ node, what' (f node) = t (what node)) (hbrings : ∀ w, brings w → brings' (t w)) :
    OwnChange who' what' s brings' (before.map f) (after.map f) where
  others := by
    have hfilter (nodes : List ν) : ((nodes.map f).filter fun node => who' node ≠ s) =
        (nodes.filter fun node => who node ≠ s).map f := by
      rw [List.filter_map]
      refine congrArg (List.map f) (List.filter_congr fun node _ => ?_)
      rw [Function.comp_apply, hwho]
    rw [hfilter, hfilter, h.others]
  own := by
    intro node' hnode' hs
    obtain ⟨node, hnode, rfl⟩ := List.mem_map.mp hnode'
    rw [hwho] at hs
    rw [hwhat]
    refine (h.own node hnode hs).imp (hbrings _) ?_
    rintro ⟨old, hold, hold', heq⟩
    exact ⟨f old, List.mem_map_of_mem hold, (hwho old).trans hold', (hwhat old).trans (congrArg t heq)⟩

variable {mine : ω}

/-- The nodes of the subscriber are those that hold `mine`, before and after. -/
theorem holders (h : OwnChange who what s brings before after) (hbrings : ∀ w, brings w → w = mine)
    (hmine : ∀ node ∈ before, what node = mine ↔ who node = s) :
    ∀ node ∈ after, what node = mine ↔ who node = s := by
  refine fun node hnode => ⟨fun hwhat => ?_, fun hs => ?_⟩
  · by_contra hs
    have hkept : node ∈ before.filter fun node => who node ≠ s :=
      h.others ▸ List.mem_filter.mpr ⟨hnode, decide_eq_true hs⟩
    exact hs ((hmine node (List.mem_of_mem_filter hkept)).mp hwhat)
  · rcases h.own node hnode hs with hnew | ⟨old, hold, hs', hwhat⟩
    · exact hbrings _ hnew
    · exact hwhat.symm.trans ((hmine old hold).mpr hs')

theorem keeps_others [DecidableEq ω] (h : OwnChange who what s brings before after)
    (hbrings : ∀ w, brings w → w = mine)
    (hmine : ∀ node ∈ before, what node = mine ↔ who node = s) :
    (after.filter fun node => what node ≠ mine) = before.filter fun node => what node ≠ mine := by
  have hfilter {nodes : List ν} (hnodes : ∀ node ∈ nodes, what node = mine ↔ who node = s) :
      (nodes.filter fun node => what node ≠ mine) = nodes.filter fun node => who node ≠ s :=
    List.filter_congr fun node hnode => decide_eq_decide.mpr (not_congr (hnodes node hnode))
  rw [hfilter hmine, hfilter (h.holders hbrings hmine), h.others]

end OwnChange

end DataShare
