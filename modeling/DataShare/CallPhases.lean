import DataShare.SubscriptionLedger

/-!
# The phases of a call

`CallbacksManager` holds its lock only while it goes over the keys. The request to the service comes
after that, and then a second loop undoes the keys that were refused. Other threads run between the
phases. `Call.loop` and `Call.undo` are the two loops, and without other threads the phases make up
the call of the ledger (`step_eq_phases`).

Only the loop of an `AddObservers` that lists a key gives it more observers : all other loops leave
`Fewer` (`fewer_loop`, `fewer_undo`). A key that is new to the table goes to the service
(`mentions_loop_keys`), and the second loop takes a refused one from the subscriber again
(`nodesAt_undo`).
-/

set_option linter.unusedSectionVars false

namespace DataShare

section Fewer

variable {σ ω : Type} [DecidableEq σ] {subscriber : σ}
  {nodes nodes' nodes'' : List (ObserverNode σ ω)}

/-- No subscriber has joined. -/
def Fewer (nodes nodes' : List (ObserverNode σ ω)) : Prop :=
  nodes'.map ObserverNode.subscriber ⊆ nodes.map ObserverNode.subscriber

theorem Fewer.refl : Fewer nodes nodes :=
  List.Subset.refl _

theorem Fewer.ne_nil (h : Fewer nodes nodes') (hne : nodes' ≠ []) : nodes ≠ [] := by
  rintro rfl
  exact hne (List.map_eq_nil_iff.mp (List.subset_nil.mp h))

theorem eraseSubscriber_eq_nil : eraseSubscriber subscriber nodes = [] ↔
    ∀ s ∈ nodes.map ObserverNode.subscriber, s = subscriber := by
  simp [eraseSubscriber, List.filter_eq_nil_iff]

theorem Fewer.eraseSubscriber_eq_nil (h : Fewer nodes nodes')
    (hnil : eraseSubscriber subscriber nodes = []) : eraseSubscriber subscriber nodes' = [] := by
  rw [DataShare.eraseSubscriber_eq_nil] at hnil ⊢
  exact fun s hs => hnil s (h hs)

theorem fewer_eraseSubscriber : Fewer nodes (eraseSubscriber subscriber nodes) :=
  List.map_subset _ eraseSubscriber_subset

theorem fewer_of_map_eq
    (h : nodes'.map ObserverNode.subscriber = nodes.map ObserverNode.subscriber) :
    Fewer nodes nodes' := by
  unfold Fewer
  rw [h]
  exact List.Subset.refl _

theorem map_subscriber_disableSubscriber :
    (disableSubscriber subscriber nodes).map ObserverNode.subscriber =
      nodes.map ObserverNode.subscriber := by
  rw [disableSubscriber, List.map_map]
  refine List.map_congr_left fun node _ => ?_
  simp only [Function.comp_apply]
  split <;> rfl

theorem fewer_disableEnabled : Fewer nodes (disableEnabled subscriber nodes) := by
  unfold disableEnabled
  split
  · exact fewer_of_map_eq map_subscriber_disableSubscriber
  · exact .refl

theorem map_subscriber_enableFirst : ∀ nodes : List (ObserverNode σ ω),
    (enableFirst subscriber nodes).map ObserverNode.subscriber = nodes.map ObserverNode.subscriber
  | [] => rfl
  | node :: nodes => by
    unfold enableFirst
    split
    · rfl
    · rw [List.map_cons, map_subscriber_enableFirst nodes, List.map_cons]

theorem fewer_enableFirst : Fewer nodes (enableFirst subscriber nodes) :=
  fewer_of_map_eq (map_subscriber_enableFirst nodes)

end Fewer

namespace CallbacksManager

section Phases

variable {κ σ ω : Type}

/-- The request of the call. -/
def Call.kind : Call κ σ ω → RequestKind
  | .addObservers .. | .addProxyDataObservers .. => .subscribe
  | .delObservers .. | .delProxyDataObservers .. | .delAllObservers _
  | .delAllProxyDataObservers _ => .unsubscribe
  | .enableObservers .. => .enable
  | .disableObservers .. => .disable

def Call.subscriber : Call κ σ ω → σ
  | .addObservers _ subscriber _ | .addProxyDataObservers _ subscriber _
  | .delObservers _ subscriber | .delProxyDataObservers _ subscriber
  | .delAllObservers subscriber | .delAllProxyDataObservers subscriber
  | .enableObservers _ subscriber | .disableObservers _ subscriber => subscriber

/-- The keys the call registers an observer for. -/
def Call.registered : Call κ σ ω → List κ
  | .addObservers keys _ _ | .addProxyDataObservers keys _ _ => keys
  | _ => []

variable [Ord κ] [Std.TransOrd κ] [DecidableEq σ]

/-- The callbacks after the first loop, and the keys for the service. -/
structure Looped (κ σ ω : Type) [Ord κ] where
  callbacks : Callbacks κ σ ω
  keys : List κ

def Call.loop (callbacks : Callbacks κ σ ω) : Call κ σ ω → Looped κ σ ω
  | .addObservers keys subscriber observer =>
    let added := addLocal keys subscriber observer callbacks
    ⟨added.callbacks, added.firstRegisterKey⟩
  | .addProxyDataObservers keys subscriber observer =>
    ⟨addLocalProxyData keys subscriber observer callbacks, keys⟩
  | .delObservers keys subscriber =>
    let deleted := delLocal delCodes keys subscriber callbacks
    ⟨deleted.callbacks, deleted.lastDelKeys⟩
  | .delProxyDataObservers keys subscriber =>
    let deleted := delLocal delProxyDataCodes keys subscriber callbacks
    ⟨deleted.callbacks, deleted.lastDelKeys⟩
  | .delAllObservers subscriber =>
    let deleted := delLocal delCodes callbacks.keys subscriber callbacks
    ⟨deleted.callbacks, deleted.lastDelKeys⟩
  | .delAllProxyDataObservers subscriber =>
    let deleted := delLocal delProxyDataCodes callbacks.keys subscriber callbacks
    ⟨deleted.callbacks, deleted.lastDelKeys⟩
  | .enableObservers keys subscriber =>
    let enabled := enableLocal keys subscriber callbacks
    ⟨enabled.callbacks, enabled.sendServiceKeys⟩
  | .disableObservers keys subscriber =>
    let disabled := disableLocal keys subscriber callbacks
    ⟨disabled.callbacks, disabled.lastDisabledKeys⟩

/-- The second loop, over the keys that were refused. -/
def Call.undo (failed : List κ) (callbacks : Callbacks κ σ ω) : Call κ σ ω → Callbacks κ σ ω
  | .addObservers _ subscriber _ => (delLocal delCodes failed subscriber callbacks).callbacks
  | .addProxyDataObservers _ subscriber _ =>
    (delLocal delProxyDataCodes failed subscriber callbacks).callbacks
  | .enableObservers _ subscriber => (disableLocal failed subscriber callbacks).callbacks
  | .disableObservers _ subscriber => (enableLocal failed subscriber callbacks).callbacks
  | _ => callbacks

/-- One phase after the other is the call of the ledger. -/
theorem step_eq_phases (callbacks : Callbacks κ σ ω) (c : Call κ σ ω) (answer : ℕ → Answer) :
    step callbacks ⟨c, answer⟩ =
      (c.undo (failedKeys (sendRequests c.kind (c.loop callbacks).keys answer))
          (c.loop callbacks).callbacks,
        sendRequests c.kind (c.loop callbacks).keys answer) := by
  cases c <;> rfl

variable {callbacks : Callbacks κ σ ω} {c : Call κ σ ω} {k : κ} {failed : List κ}

theorem fewer_delLocal {codes : DelCodes} {keys : List κ} {subscriber : σ} :
    Fewer (nodesAt callbacks k) (nodesAt (delLocal codes keys subscriber callbacks).callbacks k) := by
  rw [nodesAt_delLocal]
  split
  · exact fewer_eraseSubscriber
  · exact .refl

theorem fewer_enableLocal {keys : List κ} {subscriber : σ} :
    Fewer (nodesAt callbacks k) (nodesAt (enableLocal keys subscriber callbacks).callbacks k) := by
  rw [nodesAt_enableLocal]
  split
  · exact fewer_enableFirst
  · exact .refl

theorem fewer_disableLocal {keys : List κ} {subscriber : σ} :
    Fewer (nodesAt callbacks k) (nodesAt (disableLocal keys subscriber callbacks).callbacks k) := by
  rw [nodesAt_disableLocal]
  split
  · exact fewer_disableEnabled
  · exact .refl

theorem fewer_loop (h : ¬ Mentions k c.registered) :
    Fewer (nodesAt callbacks k) (nodesAt (c.loop callbacks).callbacks k) := by
  cases c with
  | addObservers keys subscriber observer =>
    have hcount : mentionCount k keys = 0 := mentionCount_eq_zero.mpr h
    rw [Call.loop, nodesAt_addLocal, hcount, List.replicate_zero, List.append_nil]
    exact .refl
  | addProxyDataObservers keys subscriber observer =>
    have hcount : mentionCount k keys = 0 := mentionCount_eq_zero.mpr h
    rw [Call.loop, nodesAt_addLocalProxyData, hcount, List.replicate_zero, List.append_nil]
    exact .refl
  | delObservers | delProxyDataObservers | delAllObservers | delAllProxyDataObservers =>
    exact fewer_delLocal
  | enableObservers => exact fewer_enableLocal
  | disableObservers => exact fewer_disableLocal

theorem fewer_undo : Fewer (nodesAt callbacks k) (nodesAt (c.undo failed callbacks) k) := by
  cases c with
  | addObservers | addProxyDataObservers => exact fewer_delLocal
  | enableObservers => exact fewer_disableLocal
  | disableObservers => exact fewer_enableLocal
  | _ => exact .refl

/-- The loop adds observers of the call's subscriber only. -/
theorem eraseSubscriber_loop (h : c.kind = .subscribe) :
    eraseSubscriber c.subscriber (nodesAt (c.loop callbacks).callbacks k) =
      eraseSubscriber c.subscriber (nodesAt callbacks k) := by
  cases c with
  | addObservers keys subscriber observer =>
    rw [Call.loop, nodesAt_addLocal]
    exact eraseSubscriber_append_replicate ..
  | addProxyDataObservers keys subscriber observer =>
    rw [Call.loop, nodesAt_addLocalProxyData]
    exact eraseSubscriber_append_replicate ..
  | _ => simp [Call.kind] at h

theorem mentions_loop_keys (h : Mentions k c.registered) (hnil : nodesAt callbacks k = []) :
    Mentions k (c.loop callbacks).keys := by
  cases c with
  | addObservers keys subscriber observer =>
    refine mentions_firstRegisterKey.mpr ⟨h, ?_⟩
    rw [hnil]
    exact fun henabled => henabled.ne_nil rfl
  | addProxyDataObservers keys subscriber observer => exact h
  | _ => exact absurd h (by simp [Call.registered, Mentions])

theorem kind_of_registered (h : Mentions k c.registered) : c.kind = .subscribe := by
  cases c with
  | addObservers | addProxyDataObservers => rfl
  | _ => exact absurd h (by simp [Call.registered, Mentions])

/-- The keys to unsubscribe are gone from the table. -/
theorem nodesAt_loop_of_unsubscribe (h : c.kind = .unsubscribe)
    (hkeys : Mentions k (c.loop callbacks).keys) : nodesAt (c.loop callbacks).callbacks k = [] := by
  have hdel {codes : DelCodes} {keys : List κ} {subscriber : σ}
      (hlast : Mentions k (delLocal codes keys subscriber callbacks).lastDelKeys) :
      nodesAt (delLocal codes keys subscriber callbacks).callbacks k = [] := by
    obtain ⟨hk, nodes, hfind, hnil⟩ := mentions_lastDelKeys.mp hlast
    rw [nodesAt_delLocal, if_pos hk, nodesAt_of_find? hfind, hnil]
  cases c with
  | delObservers | delProxyDataObservers | delAllObservers | delAllProxyDataObservers =>
    exact hdel hkeys
  | _ => simp [Call.kind] at h

theorem nodesAt_undo (h : c.kind = .subscribe) (hfailed : Mentions k failed) :
    nodesAt (c.undo failed callbacks) k = eraseSubscriber c.subscriber (nodesAt callbacks k) := by
  cases c with
  | addObservers | addProxyDataObservers =>
    rw [Call.undo, nodesAt_delLocal, if_pos hfailed]
    rfl
  | _ => simp [Call.kind] at h

end Phases

end CallbacksManager

end DataShare
