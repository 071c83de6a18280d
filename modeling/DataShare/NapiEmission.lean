import DataShare.NapiSubscriberManager
import DataShare.PublishedEmission

/-!
# What JS observers get of a change

A change of the service goes to the native observers, and from those that belong to the JS manager of
a helper to its JS observers. How often a JS observer is told about a key (`told`) is the product of
three numbers : how often the change is about the key, how many native observers of the manager are
enabled for it, and how often the JS observer is (`NapiClass.Lawful.told_emitted`).

Both managers count in this way. An RDB change is about one key, and a change of published data
about the keys of its items, which are joined by observer in the native manager and in the JS one.
-/

namespace DataShare

/-! ## Joined items -/

namespace OrderedMap

variable {κ α : Type} [Ord κ]

/-- The elements of the entries, with their keys. -/
def pairs (entries : List (κ × List α)) : List (κ × α) :=
  entries.flatMap fun e => e.2.map fun a => (e.1, a)

variable [Std.LawfulEqOrd κ]

theorem pairs_upsertEntries (k : κ) (a : α) : ∀ entries : List (κ × List α),
    (pairs (upsertEntries k (fun old => old.getD [] ++ [a]) entries)).Perm
      (pairs entries ++ [(k, a)])
  | [] => .refl _
  | e :: entries => by
    have ih := pairs_upsertEntries k a entries
    unfold pairs at ih ⊢
    rw [upsertEntries, List.flatMap_cons]
    rcases hk : compare k e.1 with _ | _ | _
    · exact (List.perm_append_singleton (k, a) _).symm
    · obtain rfl := Std.LawfulEqOrd.eq_of_compare hk
      dsimp only
      rw [List.flatMap_cons, Option.getD_some, List.map_append, List.append_assoc, List.append_assoc]
      exact List.Perm.append_left _ List.perm_append_comm
    · dsimp only
      rw [List.flatMap_cons, List.append_assoc]
      exact List.Perm.append_left _ ih

/-- To join elements by their keys loses none, and brings none. -/
theorem pairs_foldl_upsert [Std.TransOrd κ] : ∀ (l : List (κ × α)) (m : OrderedMap κ (List α)),
    (pairs (l.foldl (fun m e => m.upsert e.1 fun old => old.getD [] ++ [e.2]) m).entries).Perm
      (pairs m.entries ++ l)
  | [], m => by
    rw [List.append_nil]
    exact .refl _
  | e :: l, m => by
    refine (pairs_foldl_upsert l _).trans ?_
    rw [List.append_cons]
    exact (pairs_upsertEntries e.1 e.2 m.entries).append_right l

end OrderedMap

/-! ## Counting -/

namespace Napi

open Cpp (StdString clearUriOf TemplateId RdbObserverMapKey RdbChangeNode PublishedObserverMapKey
  PublishedDataItem PublishedDataChangeNode SubscriberManager)
open NapiCallbacksManager (Observer getEnabledObservers)

section Told

variable {ω ν α : Type}

/-- How often the selected observers are told, of changes that each count `times`. -/
def told (times : ν → ℕ) (sel : ω → Bool) (calls : List (ω × ν)) : ℕ :=
  ((calls.filter fun call => sel call.1).map fun call => times call.2).sum

theorem told_append (times : ν → ℕ) (sel : ω → Bool) (calls calls' : List (ω × ν)) :
    told times sel (calls ++ calls') = told times sel calls + told times sel calls' := by
  unfold told
  rw [List.filter_append, List.map_append, List.sum_append]

/-- All observers are told of one change. -/
theorem told_map (times : ν → ℕ) (sel : ω → Bool) (node : ν) (observers : List ω) :
    told times sel (observers.map fun obs => (obs, node)) = times node * observers.countP sel := by
  unfold told
  induction observers with
  | nil => rfl
  | cons obs observers ih =>
    by_cases hsel : sel obs = true
    · rw [List.map_cons, List.filter_cons_of_pos (by exact hsel), List.map_cons, List.sum_cons, ih,
        List.countP_cons_of_pos hsel, Nat.mul_succ, Nat.add_comm]
    · rw [List.map_cons, List.filter_cons_of_neg (by exact hsel), ih, List.countP_cons_of_neg hsel]

theorem told_entries (node : List α → ν) (times : ν → ℕ) {p : α → Bool}
    (htimes : ∀ items, times (node items) = items.countP p) (sel : ω → Bool) :
    ∀ entries : List (ω × List α), told times sel (entries.map fun e => (e.1, node e.2)) =
      (OrderedMap.pairs entries).countP fun q => sel q.1 && p q.2
  | [] => rfl
  | e :: entries => by
    have ih := told_entries node times htimes sel entries
    unfold told OrderedMap.pairs at ih ⊢
    rw [List.flatMap_cons, List.countP_append, ← ih, List.map_cons, List.countP_map]
    by_cases hsel : sel e.1 = true
    · rw [List.filter_cons_of_pos (by exact hsel), List.map_cons, List.sum_cons, htimes]
      simp [Function.comp_def, hsel]
    · rw [List.filter_cons_of_neg (by exact hsel)]
      simp [Function.comp_def, hsel]

/-- Items that are each for some observers, of which `n` are selected if the item counts. -/
theorem countP_deliveries {observers : α → List ω} {sel : ω → Bool} {p : α → Bool} {n : ℕ} :
    ∀ {items : List α}, (∀ item ∈ items, p item = true → (observers item).countP sel = n) →
      (items.flatMap fun item => (observers item).map fun obs => (obs, item)).countP
        (fun q => sel q.1 && p q.2) = items.countP p * n
  | [], _ => (Nat.zero_mul n).symm
  | item :: items, h => by
    obtain ⟨hitem, hitems⟩ := List.forall_mem_cons.mp h
    rw [List.flatMap_cons, List.countP_append, countP_deliveries hitems, List.countP_map]
    by_cases hp : p item = true
    · rw [List.countP_cons_of_pos hp, Nat.succ_mul, Nat.add_comm, ← hitem hp]
      simp [Function.comp_def, hp]
    · rw [List.countP_cons_of_neg hp]
      simp [Function.comp_def, hp]

/-- Items that are joined by the observers they are for. -/
theorem told_joined [Ord ω] [Std.TransOrd ω] [Std.LawfulEqOrd ω] (node : List α → ν)
    (times : ν → ℕ) {p : α → Bool} (htimes : ∀ items, times (node items) = items.countP p)
    (observers : α → List ω) (sel : ω → Bool) (items : List α) {n : ℕ}
    (h : ∀ item ∈ items, p item = true → (observers item).countP sel = n) :
    told times sel (((items.flatMap fun item => (observers item).map fun obs => (obs, item)).foldl
      (fun m e => m.upsert e.1 fun old => old.getD [] ++ [e.2])
      (.empty : OrderedMap ω (List α))).entries.map fun e => (e.1, node e.2)) =
        times (node items) * n := by
  rw [told_entries node times htimes, (OrderedMap.pairs_foldl_upsert _ _).countP_eq, htimes]
  exact countP_deliveries h

end Told

/-! ## Changes of the service -/

section Classes

variable {τ κ ν : Type} [Ord τ] [Ord κ]

/-- The key of the native table. -/
def NapiClass.nativeKey (cls : NapiClass τ κ ν) (key : ObserverMapKey τ) : κ :=
  cls.native.keyOf key.uri key.scope

/-- What the JS observers are called with for a change of the service. -/
def emitted (cls : NapiClass τ κ ν) (change : ν) (tables : NapiTables τ κ ν) : List (Observer × ν) :=
  (receive cls (cls.native.emit change tables.native).2 tables.js).2

/-- What a change does not touch in a native node. -/
def role (node : ObserverNode ℕ ℕ) : ℕ × Option ℕ × Bool :=
  (node.subscriber, node.observer, node.enabled)

/-- What the tables rely on in the two managers. `times` says how often a change is about a key. -/
structure NapiClass.Lawful (cls : NapiClass τ κ ν) (times : ObserverMapKey τ → ν → ℕ) : Prop where
  compare_keyOf : ∀ uri scope uri' scope',
    compare (cls.native.keyOf uri scope) (cls.native.keyOf uri' scope') = .eq ↔
      clearUriOf uri = clearUriOf uri' ∧ scope = scope'
  uriOf_keyOf : ∀ uri scope, cls.uriOf (cls.native.keyOf uri scope) = uri
  emit_js : ∀ node js, ∃ lastChangeNodeMap,
    (cls.emit node js).1 = { js with lastChangeNodeMap := lastChangeNodeMap }
  told_js : ∀ key sel node js, told (times key) sel (cls.emit node js).2 =
    times key node * (getEnabledObservers js.callbacks key).countP sel
  made_native : ∀ node manager, (cls.native.emit node manager).1.made = manager.made
  emit_native : ∀ node manager k,
    (CallbacksManager.nodesAt (cls.native.emit node manager).1.callbacks k).map role =
      (CallbacksManager.nodesAt manager.callbacks k).map role
  told_native : ∀ key sel node manager, told (times key) sel (cls.native.emit node manager).2 =
    times key node *
      (CallbacksManager.getEnabledObservers manager.callbacks (cls.nativeKey key)).countP sel

namespace NapiClass.Lawful

variable {cls : NapiClass τ κ ν} {times : ObserverMapKey τ → ν → ℕ}

theorem runCalls_emit (h : cls.Lawful times) (js : Manager τ ν) (calls : List (ℕ × ν)) :
    ∃ lastChangeNodeMap, (runCalls (fun js call => cls.emit call.2 js) js calls).1 =
      { js with lastChangeNodeMap := lastChangeNodeMap } := by
  induction calls using List.reverseRecOn with
  | nil => exact ⟨_, rfl⟩
  | append_singleton calls call ih =>
    obtain ⟨lastMap, hstate⟩ := ih
    rw [runCalls_concat, advance, hstate]
    exact h.emit_js call.2 { js with lastChangeNodeMap := lastMap }

/-- To receive changes touches only the last change nodes. -/
theorem receive_js (h : cls.Lawful times) (calls : List (ℕ × ν)) (js : Manager τ ν) :
    ∃ lastChangeNodeMap,
      (receive cls calls js).1 = { js with lastChangeNodeMap := lastChangeNodeMap } :=
  h.runCalls_emit js _

theorem told_runCalls (h : cls.Lawful times) (key : ObserverMapKey τ) (sel : Observer → Bool)
    (js : Manager τ ν) (calls : List (ℕ × ν)) :
    told (times key) sel (runCalls (fun js call => cls.emit call.2 js) js calls).2 =
      (calls.map fun call => times key call.2).sum *
        (getEnabledObservers js.callbacks key).countP sel := by
  induction calls using List.reverseRecOn with
  | nil => exact (Nat.zero_mul _).symm
  | append_singleton calls call ih =>
    obtain ⟨lastMap, hstate⟩ := h.runCalls_emit js calls
    rw [runCalls_concat, advance, told_append, ih, h.told_js, hstate, List.map_append,
      List.sum_append, Nat.add_mul, List.map_singleton, List.sum_singleton]

theorem told_emitted (h : cls.Lawful times) (key : ObserverMapKey τ) (sel : Observer → Bool)
    (change : ν) (tables : NapiTables τ κ ν) : told (times key) sel (emitted cls change tables) =
      times key change *
        (CallbacksManager.getEnabledObservers tables.native.callbacks (cls.nativeKey key)).countP
          (fun obs => obs ∈ tables.js.subscriptions) *
        (getEnabledObservers tables.js.callbacks key).countP sel := by
  rw [← h.told_native]
  exact h.told_runCalls key sel tables.js _

end NapiClass.Lawful

end Classes

/-! ### RDB data -/

namespace NapiRdbSubscriberManager

variable {δ : Type}

def times (key : NapiRdbObserverMapKey) (changeNode : RdbChangeNode δ) : ℕ :=
  if keyOf changeNode = key then 1 else 0

theorem lawful : (cls : NapiClass TemplateId RdbObserverMapKey (RdbChangeNode δ)).Lawful times where
  compare_keyOf _ _ _ _ := RdbObserverMapKey.compare_eq_iff
  uriOf_keyOf _ _ := rfl
  emit_js _ _ := ⟨_, rfl⟩
  told_js key sel node js := by
    have htold := told_map (times key) sel node (getEnabledObservers js.callbacks (keyOf node))
    refine htold.trans ?_
    unfold times
    split
    · next hkey => rw [hkey]
    · rw [Nat.zero_mul, Nat.zero_mul]
  made_native _ _ := rfl
  emit_native node manager k := by
    have hrole (nodes : List (ObserverNode ℕ ℕ)) :
        (setNotifiedOn nodes).map role = nodes.map role := by
      rw [setNotifiedOn, List.map_map]
      rfl
    refine (congrArg (List.map role)
      (CallbacksManager.nodesAt_getObserversAndSetNotifiedOn node.key k manager.callbacks)).trans ?_
    split
    · exact hrole _
    · rfl
  told_native key sel node manager := by
    have hobservers : (CallbacksManager.getObserversAndSetNotifiedOn node.key manager.callbacks).2 =
        CallbacksManager.getEnabledObservers manager.callbacks node.key := by
      unfold CallbacksManager.getObserversAndSetNotifiedOn CallbacksManager.getEnabledObservers
      cases manager.callbacks.find? node.key <;> rfl
    have htold := told_map (times key) sel node
      (CallbacksManager.getObserversAndSetNotifiedOn node.key manager.callbacks).2
    refine htold.trans ?_
    rw [hobservers]
    unfold times
    split
    · next hkey =>
      subst hkey
      rfl
    · rw [Nat.zero_mul, Nat.zero_mul]

end NapiRdbSubscriberManager

/-! ### Published data -/

namespace NapiPublishedSubscriberManager

variable {δ : Type}

def times (key : NapiPublishedObserverMapKey) (changeNode : PublishedDataChangeNode δ) : ℕ :=
  changeNode.datas.countP fun data => keyOf data = key

theorem results_emitItem (ownerBundleName : StdString)
    (callbacks : NapiCallbacksManager.Callbacks NapiPublishedObserverMapKey) :
    ∀ (datas : List (PublishedDataItem δ)) (acc : Emitting δ),
      (datas.foldl (emitItem ownerBundleName callbacks) acc).results =
        (datas.flatMap fun data => (getEnabledObservers callbacks (keyOf data)).map
          fun obs => (obs, data)).foldl
            (fun results e => results.upsert e.1 fun old => old.getD [] ++ [e.2]) acc.results
  | [], _ => rfl
  | data :: datas, acc => by
    rw [List.foldl_cons, results_emitItem, List.flatMap_cons, List.foldl_append, List.foldl_map]
    congr 1
    unfold emitItem
    dsimp only
    split
    · next hnone => rw [List.isEmpty_iff.mp hnone, List.foldl_nil]
    · rfl

theorem role_setDisabledNotifiedOn (nodes : List (ObserverNode ℕ ℕ)) :
    (setDisabledNotifiedOn nodes).map role = nodes.map role := by
  rw [setDisabledNotifiedOn, List.map_map]
  refine List.map_congr_left fun node _ => ?_
  rw [Function.comp_apply]
  split <;> rfl

theorem role_emitItems (ownerBundleName : StdString) (k : PublishedObserverMapKey) :
    ∀ (datas : List (PublishedDataItem δ)) (acc : Cpp.PublishedDataSubscriberManager.Emitting δ),
      (CallbacksManager.nodesAt (datas.foldl
        (Cpp.PublishedDataSubscriberManager.emitItem ownerBundleName) acc).callbacks k).map role =
        (CallbacksManager.nodesAt acc.callbacks k).map role
  | [], _ => rfl
  | data :: datas, acc => by
    rw [List.foldl_cons, role_emitItems]
    refine (congrArg (List.map role) (CallbacksManager.nodesAt_setObserversNotifiedOnEnabled
      data.mapKey k acc.callbacks)).trans ?_
    split
    · exact role_setDisabledNotifiedOn _
    · rfl

theorem lawful :
    (cls : NapiClass Int64 PublishedObserverMapKey (PublishedDataChangeNode δ)).Lawful times where
  compare_keyOf _ _ _ _ := PublishedObserverMapKey.compare_eq_iff
  uriOf_keyOf _ _ := rfl
  emit_js _ _ := ⟨_, rfl⟩
  told_js key sel node js := by
    have hcount (data) (_ : data ∈ node.datas) (hkey : decide (keyOf data = key) = true) :
        (getEnabledObservers js.callbacks (keyOf data)).countP sel =
          (getEnabledObservers js.callbacks key).countP sel := by rw [of_decide_eq_true hkey]
    have htold := told_joined (PublishedDataChangeNode.mk node.ownerBundleName) (times key)
      (fun _ => rfl) (fun data => getEnabledObservers js.callbacks (keyOf data)) sel node.datas hcount
    have hresults := results_emitItem node.ownerBundleName js.callbacks node.datas
      ⟨node.datas.foldl clearDatas js.lastChangeNodeMap, .empty⟩
    dsimp only at hresults
    rw [← hresults] at htold
    exact htold
  made_native _ _ := rfl
  emit_native node manager k := role_emitItems node.ownerBundleName k node.datas _
  told_native key sel node manager := by
    have hcount (data) (_ : data ∈ node.datas) (hkey : decide (keyOf data = key) = true) :
        (CallbacksManager.getEnabledObservers manager.callbacks data.mapKey).countP sel =
          (CallbacksManager.getEnabledObservers manager.callbacks
            (PublishedObserverMapKey.new key.uri key.scope)).countP sel := by
      obtain rfl := of_decide_eq_true hkey
      rfl
    have htold := told_joined (PublishedDataChangeNode.mk node.ownerBundleName) (times key)
      (fun _ => rfl)
      (fun data => CallbacksManager.getEnabledObservers manager.callbacks data.mapKey) sel node.datas
      hcount
    have hresults := (Cpp.PublishedDataSubscriberManager.emitItems_eq node.ownerBundleName node.datas
      ⟨manager.callbacks, manager.lastChangeNodeMap, .empty⟩).2
    dsimp only at hresults
    unfold Cpp.PublishedDataSubscriberManager.deliveriesOf at hresults
    rw [← hresults] at htold
    exact htold

end NapiPublishedSubscriberManager

end Napi

end DataShare
