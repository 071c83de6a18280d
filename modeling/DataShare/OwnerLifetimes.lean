import DataShare.SubscriptionOwners

/-!
# Nodes end with their owners

In a run of clean steps every node is registered through an object that is alive, with its subscriber,
and no two objects of a kind that are alive have one subscriber (`Sound`). So a call of an object
changes nothing but what was registered through it (`Acts`), an `Emit` calls objects that are alive
(`Calls`), and nodes end with their owners (`nodes_end_with_owners`).

Without a service the destructor of a helper leaves its nodes behind (`nodes_outlive_owners`).
-/

namespace DataShare

namespace SubscriptionOwners

open CallbacksManager (nodesAt)
open Cpp (StdString)

variable {δ : Type} {world world' : World δ} {kind : Kind} {object subscriber : ℕ}

/-! ## The invariant -/

/-- Nodes are registered through objects that are alive, which are told apart by their subscribers. -/
structure Sound (world : World δ) : Prop where
  owned : ∀ slot, ∀ r ∈ world.registrations slot,
    ∃ i, r.owner = some i ∧ world.live slot.kind i = some r.subscriber
  distinct : ∀ kind i j subscriber, world.live kind i = some subscriber →
    world.live kind j = some subscriber → i = j
  rdbNumbered : world.rdb.Numbered
  publishedNumbered : world.published.Numbered

theorem sound_initial : Sound (World.initial : World δ) where
  owned := by
    intro slot r hr
    cases slot with
    | _ => exact absurd hr List.not_mem_nil
  distinct := fun kind i j subscriber hi => absurd hi (by simp [World.live, World.initial])
  rdbNumbered := rfl
  publishedNumbered := rfl

theorem live_congr (h : world'.objects = world.objects) : world'.live = world.live := by
  unfold World.live
  rw [h]

theorem not_destroyed_of_live (h : world.live kind object = some subscriber) :
    ¬ world.Destroyed object := by
  rintro ⟨o, ho, halive⟩
  simp [World.live, ho, halive] at h

namespace Sound

theorem known (h : Sound world) (slot : Slot) :
    ∀ r ∈ world.registrations slot, r.owner.isSome = true := by
  intro r hr
  obtain ⟨i, hi, -⟩ := h.owned slot r hr
  rw [hi, Option.isSome_some]

theorem mine (h : Sound world) (hlive : world.live kind object = some subscriber) {slot : Slot}
    (hslot : slot.kind = kind) :
    ∀ r ∈ world.registrations slot, r.owner = some object ↔ r.subscriber = subscriber := by
  intro r hr
  obtain ⟨i, howner, hi⟩ := h.owned slot r hr
  rw [hslot] at hi
  rw [howner, Option.some_inj]
  constructor
  · rintro rfl
    exact Option.some_inj.mp (hi.symm.trans hlive)
  · rintro rfl
    exact h.distinct kind i object _ hi hlive

end Sound

/-! ## Calls -/

/-- The object changes its own registrations only. -/
def Acts (kind : Kind) (object subscriber : ℕ) (world world' : World δ) : Prop :=
  ∀ slot, world'.registrations slot = world.registrations slot ∨
    slot.kind = kind ∧ ChangesRegistrations subscriber object (world.registrations slot)
      (world'.registrations slot)

namespace Sound

theorem owned_of_acts (h : Sound world) (hlive : world.live kind object = some subscriber)
    (hacts : Acts kind object subscriber world world') (slot : Slot) :
    ∀ r ∈ world'.registrations slot,
      ∃ i, r.owner = some i ∧ world.live slot.kind i = some r.subscriber := by
  rcases hacts slot with hsame | ⟨hkind, hchange⟩
  · rw [hsame]
    exact h.owned slot
  · intro r hr
    by_cases hs : r.subscriber = subscriber
    · refine ⟨object, (hchange.holders (fun _ => id) (h.mine hlive hkind) r hr).mpr hs, ?_⟩
      rw [hkind, hlive, hs]
    · have hkept : r ∈ (world.registrations slot).filter fun r => r.subscriber ≠ subscriber :=
        hchange.others ▸ List.mem_filter.mpr ⟨hr, decide_eq_true hs⟩
      exact h.owned slot r (List.mem_of_mem_filter hkept)

theorem apart_of_acts (h : Sound world) (hlive : world.live kind object = some subscriber)
    (hacts : Acts kind object subscriber world world') (slot : Slot) :
    ((world'.registrations slot).filter fun r => r.owner ≠ some object) =
      (world.registrations slot).filter fun r => r.owner ≠ some object := by
  rcases hacts slot with hsame | ⟨hkind, hchange⟩
  · rw [hsame]
  · exact hchange.keeps_others (fun _ => id) (h.mine hlive hkind)

end Sound

/-- What one step keeps and does. -/
structure StepsSoundly (world : World δ) (event : Event δ) : Prop where
  sound : Sound (world.step event).1
  silent : ∀ owner ∈ (world.step event).2, ∃ kind i subscriber,
    owner = some i ∧ world.live kind i = some subscriber
  apart : ∀ object ∈ event.actor, ∀ slot,
    (((world.step event).1.registrations slot).filter fun r => r.owner ≠ some object) =
      (world.registrations slot).filter fun r => r.owner ≠ some object

theorem stepsSoundly_of_acts {event : Event δ} (h : Sound world)
    (hlive : world.live kind object = some subscriber) (hactor : event.actor = some object)
    (hstep : world.step event = (world', [])) (hacts : Acts kind object subscriber world world')
    (hobjects : world'.objects = world.objects) (hrdb : world'.rdb.Numbered)
    (hpublished : world'.published.Numbered) : StepsSoundly world event where
  sound := by
    rw [hstep]
    exact
      { owned := by
          rw [live_congr hobjects]
          exact h.owned_of_acts hlive hacts
        distinct := by
          rw [live_congr hobjects]
          exact h.distinct
        rdbNumbered := hrdb
        publishedNumbered := hpublished }
  silent := by
    rw [hstep]
    exact fun owner howner => absurd howner List.not_mem_nil
  apart := by
    rw [hactor, hstep]
    rintro _ ⟨⟩
    exact h.apart_of_acts hlive hacts

/-- A call of what is no living object of the kind does nothing. -/
theorem stepsSoundly_of_same {event : Event δ} (h : Sound world)
    (hstep : world.step event = (world, [])) : StepsSoundly world event where
  sound := by
    rw [hstep]
    exact h
  silent := by
    rw [hstep]
    exact fun owner howner => absurd howner List.not_mem_nil
  apart := by
    rw [hstep]
    exact fun _ _ _ => rfl

theorem stepsSoundly_rdb (h : Sound world) (call : TableCall StdString Cpp.TemplateId)
    (service : Service) : StepsSoundly world (.rdb object call service) := by
  cases hlive : world.live .silentHelper object with
  | none => exact stepsSoundly_of_same h (by simp only [World.step, hlive])
  | some subscriber =>
    have hstep : world.step (.rdb object call service) = ({ world with
        rdb := world.rdb.serve Cpp.RdbSubscriberManager.cls subscriber object call service }, []) := by
      simp only [World.step, hlive]
    refine stepsSoundly_of_acts h hlive rfl hstep ?_ rfl
      (NativeTable.numbered_serve h.rdbNumbered) h.publishedNumbered
    intro slot
    cases slot with
    | rdb key =>
      exact .inr ⟨rfl, NativeTable.changesRegistrations_serve h.rdbNumbered (h.known (.rdb key))⟩
    | _ => exact .inl rfl

theorem stepsSoundly_published (h : Sound world) (call : TableCall StdString Int64)
    (service : Service) : StepsSoundly world (.published object call service) := by
  cases hlive : world.live .silentHelper object with
  | none => exact stepsSoundly_of_same h (by simp only [World.step, hlive])
  | some subscriber =>
    have hstep : world.step (.published object call service) = ({ world with
        published :=
          world.published.serve Cpp.PublishedDataSubscriberManager.cls subscriber object call service },
        []) := by
      simp only [World.step, hlive]
    refine stepsSoundly_of_acts h hlive rfl hstep ?_ rfl
      h.rdbNumbered (NativeTable.numbered_serve h.publishedNumbered)
    intro slot
    cases slot with
    | published key =>
      exact .inr ⟨rfl, NativeTable.changesRegistrations_serve h.publishedNumbered
        (h.known (.published key))⟩
    | _ => exact .inl rfl

theorem stepsSoundly_proxyData (h : Sound world) (call : ProxyDataCall) (service : Service) :
    StepsSoundly world (.proxyData object call service) := by
  cases hlive : world.live .dataProxyHandle object with
  | none => exact stepsSoundly_of_same h (by simp only [World.step, hlive])
  | some subscriber =>
    have hstep : world.step (.proxyData object call service) = ({ world with
        proxyData := world.proxyData.serve subscriber object call service }, []) := by
      simp only [World.step, hlive]
    refine stepsSoundly_of_acts h hlive rfl hstep ?_ rfl
      h.rdbNumbered h.publishedNumbered
    intro slot
    cases slot with
    | proxyData uri =>
      exact .inr ⟨rfl, changesRegistrations_serveProxyData (h.known (.proxyData uri))⟩
    | _ => exact .inl rfl

theorem stepsSoundly_rustRdb (h : Sound world) (call : TableCall String Rust.TemplateId)
    (service : Service) : StepsSoundly world (.rustRdb object call service) := by
  cases hlive : world.live .rustHelper object with
  | none => exact stepsSoundly_of_same h (by simp only [World.step, hlive])
  | some subscriber =>
    have hstep : world.step (.rustRdb object call service) = ({ world with
        rustRdb := serveRdb subscriber object call service world.rustRdb }, []) := by
      simp only [World.step, hlive]
    refine stepsSoundly_of_acts h hlive rfl hstep ?_ rfl
      h.rdbNumbered h.publishedNumbered
    intro slot
    cases slot with
    | rustRdb key => exact .inr ⟨rfl, changesRegistrations_ofEntry (changesEntries_serveRdb key)⟩
    | _ => exact .inl rfl

theorem stepsSoundly_rustPublished (h : Sound world) (call : TableCall String Int)
    (service : Service) : StepsSoundly world (.rustPublished object call service) := by
  cases hlive : world.live .rustHelper object with
  | none => exact stepsSoundly_of_same h (by simp only [World.step, hlive])
  | some subscriber =>
    have hstep : world.step (.rustPublished object call service) = ({ world with
        rustPublished := servePublished subscriber object call service world.rustPublished }, []) := by
      simp only [World.step, hlive]
    refine stepsSoundly_of_acts h hlive rfl hstep ?_ rfl
      h.rdbNumbered h.publishedNumbered
    intro slot
    cases slot with
    | rustPublished key =>
      exact .inr ⟨rfl, changesRegistrations_ofEntry (changesEntries_servePublished key)⟩
    | _ => exact .inl rfl

/-! ## Creation and destruction -/

theorem live_append (o : Object) (n : ℕ) (i : ℕ) :
    World.live { world with objects := world.objects ++ [o], nextHelperId := n } kind i =
      if i = world.objects.length then
        if o.kind = kind ∧ o.alive = true then some o.subscriber else none
      else world.live kind i := by
  unfold World.live
  dsimp only
  by_cases hi : i = world.objects.length
  · rw [if_pos hi, hi, List.getElem?_concat_length, Option.bind_some]
  · rw [if_neg hi, List.getElem?_append]
    split
    · rfl
    · next hlt =>
      have hnone : [o][i - world.objects.length]? = none := List.getElem?_eq_none (by simp; omega)
      rw [hnone, List.getElem?_eq_none (by omega)]

theorem lt_of_live {i : ℕ} (h : world.live kind i = some subscriber) : i < world.objects.length := by
  obtain ⟨o, ho, -⟩ := Option.bind_eq_some_iff.mp h
  exact (List.getElem?_eq_some_iff.mp ho).1

/-- An object is created with a subscriber that no living object of its kind has. -/
theorem Sound.append (h : Sound world) {o : Object} (n : ℕ)
    (hnew : ∀ i, world.live o.kind i ≠ some o.subscriber) :
    Sound { world with objects := world.objects ++ [o], nextHelperId := n } where
  owned := by
    intro slot r hr
    obtain ⟨i, howner, hi⟩ := h.owned slot r hr
    refine ⟨i, howner, ?_⟩
    rw [live_append, if_neg (lt_of_live hi).ne, hi]
  distinct := by
    intro kind i j subscriber hi hj
    rw [live_append] at hi hj
    split at hi
    · next hlast =>
      split at hj
      · next hlast' => rw [hlast, hlast']
      · obtain ⟨⟨rfl, -⟩, hs⟩ := Option.ite_none_right_eq_some.mp hi
        obtain rfl := Option.some_inj.mp hs
        exact absurd hj (hnew j)
    · split at hj
      · obtain ⟨⟨rfl, -⟩, hs⟩ := Option.ite_none_right_eq_some.mp hj
        obtain rfl := Option.some_inj.mp hs
        exact absurd hi (hnew i)
      · exact h.distinct kind i j subscriber hi hj
  rdbNumbered := h.rdbNumbered
  publishedNumbered := h.publishedNumbered

theorem Sound.create (h : Sound world) (hkind : kind ≠ .rustHelper) (address : ℕ) :
    Sound (world.create kind address) := by
  unfold World.create
  split
  · exact h
  · next hfree =>
    refine h.append world.nextHelperId fun i hi => hfree ?_
    obtain ⟨o, ho, hlive⟩ := Option.bind_eq_some_iff.mp hi
    obtain ⟨⟨hk, halive⟩, hs⟩ := Option.ite_none_right_eq_some.mp hlive
    exact ⟨o, List.mem_of_getElem? ho, halive, hk ▸ hkind, Option.some_inj.mp hs⟩

theorem objects_destroy (rdbService publishedService : Service) :
    (world.destroy object rdbService publishedService).objects =
      world.objects.modify object fun o => { o with alive := false } := by
  unfold World.destroy
  dsimp only
  split <;> rfl

theorem live_destroy (rdbService publishedService : Service) (i : ℕ) :
    (world.destroy object rdbService publishedService).live kind i =
      if i = object then none else world.live kind i := by
  unfold World.live
  rw [objects_destroy, List.getElem?_modify]
  by_cases hi : i = object
  · rw [if_pos hi, hi]
    cases world.objects[object]? with
    | none => rfl
    | some o => simp
  · rw [if_neg hi]
    cases world.objects[i]? with
    | none => rfl
    | some o => simp [Ne.symm hi]

/-- What is left of a destroyed object is its place. -/
theorem Sound.destroy (h : Sound world) {rdbService publishedService : Service}
    (howned : ∀ slot, ∀ r ∈ (world.destroy object rdbService publishedService).registrations slot,
      (∃ i, r.owner = some i ∧ world.live slot.kind i = some r.subscriber) ∧ r.owner ≠ some object)
    (hrdb : (world.destroy object rdbService publishedService).rdb.Numbered)
    (hpublished : (world.destroy object rdbService publishedService).published.Numbered) :
    Sound (world.destroy object rdbService publishedService) where
  owned := by
    intro slot r hr
    obtain ⟨⟨i, howner, hi⟩, hne⟩ := howned slot r hr
    have hother : i ≠ object := by
      rintro rfl
      exact hne howner
    exact ⟨i, howner, by rw [live_destroy, if_neg hother, hi]⟩
  distinct := by
    intro kind i j subscriber hi hj
    rw [live_destroy] at hi hj
    exact h.distinct kind i j subscriber (Option.ite_none_left_eq_some.mp hi).2
      (Option.ite_none_left_eq_some.mp hj).2
  rdbNumbered := hrdb
  publishedNumbered := hpublished

theorem acts_destroy (h : Sound world) (hlive : world.live .silentHelper object = some subscriber)
    (rdbService publishedService : Service) :
    Acts .silentHelper object subscriber world (world.destroy object rdbService publishedService) := by
  simp only [World.destroy, hlive]
  intro slot
  cases slot with
  | rdb key =>
    exact .inr ⟨rfl, NativeTable.changesRegistrations_serve h.rdbNumbered (h.known (.rdb key))⟩
  | published key =>
    exact .inr ⟨rfl, NativeTable.changesRegistrations_serve h.publishedNumbered
      (h.known (.published key))⟩
  | _ => exact .inl rfl

/-- The destructor of a helper deletes its nodes, where it has any. -/
theorem gone_destroy (h : Sound world) (hlive : world.live .silentHelper object = some subscriber)
    {rdbService publishedService : Service}
    (hclean : Clean world (.destroy object rdbService publishedService)) (slot : Slot) :
    ∀ r ∈ (world.destroy object rdbService publishedService).registrations slot,
      r.owner ≠ some object := by
  have howned := h.owned_of_acts hlive (acts_destroy h hlive rdbService publishedService) slot
  have hother (hslot : slot.kind = .silentHelper) {r : Registration}
      (hr : r ∈ (world.destroy object rdbService publishedService).registrations slot)
      (hs : r.subscriber ≠ subscriber) : r.owner ≠ some object := by
    intro howner
    obtain ⟨i, hi, hsub⟩ := howned r hr
    obtain rfl := Option.some_inj.mp (hi.symm.trans howner)
    rw [hslot, hlive] at hsub
    exact hs (Option.some_inj.mp hsub).symm
  obtain ⟨hrdb, hpublished, hproxyData, hrustRdb, hrustPublished⟩ := hclean
  intro r hr
  cases slot with
  | rdb key =>
    cases rdbService with
    | none =>
      simp only [World.destroy, hlive] at hr
      exact (hrdb key).resolve_left (fun h => absurd h.2 (by simp)) r hr
    | some answer =>
      refine hother rfl hr ?_
      simp only [World.destroy, hlive] at hr
      exact NativeTable.gone_of_unsubscribe rfl r hr
  | published key =>
    cases publishedService with
    | none =>
      simp only [World.destroy, hlive] at hr
      exact (hpublished key).resolve_left (fun h => absurd h.2 (by simp)) r hr
    | some answer =>
      refine hother rfl hr ?_
      simp only [World.destroy, hlive] at hr
      exact NativeTable.gone_of_unsubscribe rfl r hr
  | proxyData uri =>
    simp only [World.destroy, hlive] at hr
    exact hproxyData uri r hr
  | rustRdb key =>
    simp only [World.destroy, hlive] at hr
    exact hrustRdb key r hr
  | rustPublished key =>
    simp only [World.destroy, hlive] at hr
    exact hrustPublished key r hr

theorem rid_of_clean {rdbService publishedService : Service}
    (hlive : world.live .silentHelper object = none)
    (hclean : Clean world (.destroy object rdbService publishedService)) (slot : Slot) :
    world.Rid object slot := by
  obtain ⟨hrdb, hpublished, hproxyData, hrustRdb, hrustPublished⟩ := hclean
  rw [hlive] at hrdb hpublished
  cases slot with
  | rdb key => exact (hrdb key).resolve_left fun h => absurd h.1 (by simp)
  | published key => exact (hpublished key).resolve_left fun h => absurd h.1 (by simp)
  | proxyData uri => exact hproxyData uri
  | rustRdb key => exact hrustRdb key
  | rustPublished key => exact hrustPublished key

theorem stepsSoundly_destroy (h : Sound world) {rdbService publishedService : Service}
    (hclean : Clean world (.destroy object rdbService publishedService)) :
    StepsSoundly world (.destroy object rdbService publishedService) := by
  have hsilent : ∀ owner ∈ (world.step (.destroy object rdbService publishedService)).2,
      ∃ kind i subscriber, owner = some i ∧ world.live kind i = some subscriber :=
    fun owner howner => absurd howner List.not_mem_nil
  cases hlive : world.live .silentHelper object with
  | none =>
    have hworld : world.destroy object rdbService publishedService = { world with
        objects := world.objects.modify object fun o => { o with alive := false } } := by
      simp only [World.destroy, hlive]
    have hregistrations (slot : Slot) :
        (world.destroy object rdbService publishedService).registrations slot =
          world.registrations slot := by
      rw [hworld]
      rfl
    refine ⟨h.destroy (fun slot r hr => ?_) ?_ ?_, hsilent, ?_⟩
    · rw [hregistrations] at hr
      exact ⟨h.owned slot r hr, rid_of_clean hlive hclean slot r hr⟩
    · rw [hworld]
      exact h.rdbNumbered
    · rw [hworld]
      exact h.publishedNumbered
    · intro _ _ slot
      exact congrArg (List.filter _) (hregistrations slot)
  | some subscriber =>
    have hacts := acts_destroy h hlive rdbService publishedService
    refine ⟨h.destroy (fun slot r hr => ⟨h.owned_of_acts hlive hacts slot r hr,
      gone_destroy h hlive hclean slot r hr⟩) ?_ ?_, hsilent, ?_⟩
    · simp only [World.destroy, hlive]
      exact NativeTable.numbered_serve h.rdbNumbered
    · simp only [World.destroy, hlive]
      exact NativeTable.numbered_serve h.publishedNumbered
    · rintro _ ⟨⟩
      exact h.apart_of_acts hlive hacts

/-! ## Changes -/

/-- What a change does not touch. -/
def Registration.held (r : Registration) : Option ℕ × ℕ :=
  (r.owner, r.subscriber)

theorem mem_callsTo {α : Type} {observer : ℕ} {calls : List (ℕ × α)} {a : α} :
    a ∈ callsTo observer calls ↔ (observer, a) ∈ calls := by
  unfold callsTo
  constructor
  · intro h
    obtain ⟨call, hcall, rfl⟩ := List.mem_map.mp h
    obtain ⟨hmem, hobserver⟩ := List.mem_filter.mp hcall
    obtain rfl : call.1 = observer := of_decide_eq_true hobserver
    exact hmem
  · exact fun h => List.mem_map.mpr ⟨_, List.mem_filter.mpr ⟨h, decide_eq_true rfl⟩, rfl⟩

/-- A change keeps what is registered, and calls observers of what is. -/
structure Calls (world world' : World δ) (called : List (Option ℕ)) : Prop where
  objects : world'.objects = world.objects
  held : ∀ slot, (world'.registrations slot).map Registration.held =
    (world.registrations slot).map Registration.held
  called : ∀ owner ∈ called, ∃ slot, ∃ r ∈ world.registrations slot, r.owner = owner
  rdbNumbered : world.rdb.Numbered → world'.rdb.Numbered
  publishedNumbered : world.published.Numbered → world'.published.Numbered

theorem stepsSoundly_of_calls {event : Event δ} (h : Sound world) (hactor : event.actor = none)
    (hcalls : Calls world (world.step event).1 (world.step event).2) : StepsSoundly world event where
  sound :=
    { owned := by
        intro slot r hr
        have hheld : r.held ∈ (world.registrations slot).map Registration.held :=
          hcalls.held slot ▸ List.mem_map_of_mem hr
        obtain ⟨old, hold, heq⟩ := List.mem_map.mp hheld
        obtain ⟨howner, hsubscriber⟩ := Prod.ext_iff.mp heq
        obtain ⟨i, hi, hlive⟩ := h.owned slot old hold
        rw [live_congr hcalls.objects]
        exact ⟨i, howner.symm.trans hi, hlive.trans (congrArg some hsubscriber)⟩
      distinct := by
        rw [live_congr hcalls.objects]
        exact h.distinct
      rdbNumbered := hcalls.rdbNumbered h.rdbNumbered
      publishedNumbered := hcalls.publishedNumbered h.publishedNumbered }
  silent := by
    intro owner howner
    obtain ⟨slot, r, hr, rfl⟩ := hcalls.called owner howner
    obtain ⟨i, hi, hlive⟩ := h.owned slot r hr
    exact ⟨slot.kind, i, r.subscriber, hi, hlive⟩
  apart := by
    rw [hactor]
    exact fun object hobject => absurd hobject (by simp)

section Held

variable {ω : Type} {number : ω → ℕ} {owners : List ℕ}

theorem held_map_ofNode {f : ObserverNode ℕ ω → ObserverNode ℕ ω}
    (hf : ∀ node, (f node).observer = node.observer ∧ (f node).subscriber = node.subscriber)
    (nodes : List (ObserverNode ℕ ω)) :
    ((nodes.map f).map (ofNode number owners)).map Registration.held =
      (nodes.map (ofNode number owners)).map Registration.held := by
  simp only [List.map_map]
  refine List.map_congr_left fun node _ => ?_
  simp only [Function.comp_apply, Registration.held, ofNode, hf node]

theorem held_map_ofEntry {f : Rust.SubscriberEntry ℕ → Rust.SubscriberEntry ℕ}
    (hf : ∀ entry, (f entry).observer = entry.observer ∧ (f entry).subscriber = entry.subscriber)
    (entries : List (Rust.SubscriberEntry ℕ)) :
    ((entries.map f).map ofEntry).map Registration.held =
      (entries.map ofEntry).map Registration.held := by
  simp only [List.map_map]
  refine List.map_congr_left fun entry _ => ?_
  simp only [Function.comp_apply, Registration.held, ofEntry, hf entry]

theorem exists_node_of_enabledObservers {nodes : List (ObserverNode ℕ ω)} {observer : ω}
    (h : observer ∈ enabledObservers nodes) : ∃ node ∈ nodes, node.observer = some observer := by
  obtain ⟨node, hnode, hobserver⟩ := List.mem_filterMap.mp h
  exact ⟨node, hnode, (Option.ite_none_right_eq_some.mp hobserver).2⟩

end Held

theorem calls_emitRdb (changeNode : Cpp.RdbChangeNode δ) :
    Calls world (world.step (.emitRdb changeNode)).1 (world.step (.emitRdb changeNode)).2 where
  objects := rfl
  held := by
    intro slot
    cases slot with
    | rdb key =>
      change ((nodesAt (CallbacksManager.getObserversAndSetNotifiedOn changeNode.key
        world.rdb.manager.callbacks).1 key).map (ofNode id world.rdb.owners)).map _ = _
      rw [CallbacksManager.nodesAt_getObserversAndSetNotifiedOn]
      split
      · refine held_map_ofNode (fun node => ?_) _
        exact ⟨rfl, rfl⟩
      · rfl
    | _ => rfl
  called := by
    intro owner howner
    obtain ⟨called, hcalled, rfl⟩ := List.mem_map.mp howner
    obtain ⟨observer, hobserver, rfl⟩ := List.mem_map.mp hcalled
    have henabled : observer ∈
        enabledObservers (nodesAt world.rdb.manager.callbacks changeNode.key) := by
      unfold CallbacksManager.getObserversAndSetNotifiedOn at hobserver
      split at hobserver
      · exact absurd hobserver List.not_mem_nil
      · next nodes hfind =>
        rw [CallbacksManager.nodesAt_of_find? hfind]
        exact hobserver
    obtain ⟨node, hnode, hnumber⟩ := exists_node_of_enabledObservers henabled
    refine ⟨.rdb changeNode.key, _, List.mem_map_of_mem hnode, ?_⟩
    rw [ofNode, hnumber]
    rfl
  rdbNumbered := id
  publishedNumbered := id

theorem calls_emitPublished (changeNode : Cpp.PublishedDataChangeNode δ) :
    Calls world (world.step (.emitPublished changeNode)).1
      (world.step (.emitPublished changeNode)).2 where
  objects := rfl
  held := by
    intro slot
    cases slot with
    | published key =>
      have hnodes := Cpp.PublishedDataSubscriberManager.nodesAt_emitItems changeNode.ownerBundleName
        key changeNode.datas ⟨world.published.manager.callbacks,
          world.published.manager.lastChangeNodeMap, .empty⟩
      refine (congrArg (fun nodes => (nodes.map (ofNode id world.published.owners)).map
        Registration.held) hnodes).trans ?_
      dsimp only
      split
      · refine held_map_ofNode (fun node => ?_) _
        split
        · exact ⟨rfl, rfl⟩
        · exact ⟨rfl, rfl⟩
      · rfl
    | _ => rfl
  called := by
    intro owner howner
    obtain ⟨called, hcalled, rfl⟩ := List.mem_map.mp howner
    obtain ⟨observer, node⟩ := called
    have hmem : node ∈ callsTo observer (Cpp.PublishedDataSubscriberManager.emit changeNode
        world.published.manager).2 := mem_callsTo.mpr hcalled
    rw [Cpp.PublishedDataSubscriberManager.callsTo_emit, joined] at hmem
    split at hmem
    · exact absurd hmem List.not_mem_nil
    · next hitems =>
      rw [List.isEmpty_iff] at hitems
      obtain ⟨data, hdata⟩ := List.exists_mem_of_ne_nil _ hitems
      obtain ⟨item, -, hitem⟩ := List.mem_flatMap.mp (mem_callsTo.mp hdata)
      obtain ⟨enabled, henabled, heq⟩ := List.mem_map.mp hitem
      obtain rfl : enabled = observer := congrArg Prod.fst heq
      rw [CallbacksManager.getEnabledObservers_eq] at henabled
      obtain ⟨found, hfound, hnumber⟩ := exists_node_of_enabledObservers henabled
      refine ⟨.published item.mapKey, _, List.mem_map_of_mem hfound, ?_⟩
      rw [ofNode, hnumber]
      rfl
  rdbNumbered := id
  publishedNumbered := id

theorem calls_emitProxyData (changeInfo : List Cpp.DataProxyChangeInfo) :
    Calls world (world.step (.emitProxyData changeInfo)).1
      (world.step (.emitProxyData changeInfo)).2 where
  objects := rfl
  held := fun _ => rfl
  called := by
    intro owner howner
    obtain ⟨called, hcalled, rfl⟩ := List.mem_map.mp howner
    obtain ⟨observer, infos⟩ := called
    have hmem := mem_callsTo.mpr hcalled
    rw [Cpp.ProxyDataSubscriberManager.callsTo_emit] at hmem
    split at hmem
    · exact absurd hmem List.not_mem_nil
    · next hinfos =>
      obtain ⟨info, hinfo⟩ := List.exists_mem_of_ne_nil _ hinfos
      obtain ⟨data, -, hdata⟩ := List.mem_flatMap.mp (mem_callsTo.mp hinfo)
      obtain ⟨enabled, henabled, heq⟩ := List.mem_map.mp hdata
      obtain rfl : enabled.1 = observer := congrArg Prod.fst heq
      have henabled := (List.mem_filter.mp henabled).1
      unfold Cpp.ProxyDataSubscriberManager.getEnabledProxyDataObserverNodes at henabled
      rw [OrderedMap.find?_mapValues _ fun _ => rfl] at henabled
      obtain ⟨value, hvalue, hnumber⟩ := List.mem_filterMap.mp henabled
      obtain ⟨node, hnode, rfl⟩ : ∃ node ∈ nodesAt world.proxyData.callbacks data.uri,
          ProxyDataTable.proxyNode node = value := by
        unfold nodesAt
        cases hfind : world.proxyData.callbacks.find? data.uri with
        | none => simp [hfind] at hvalue
        | some nodes =>
          rw [hfind, Option.map_some, Option.getD_some] at hvalue
          exact List.mem_map.mp hvalue
      obtain ⟨number, hobserver, rfl⟩ :=
        Option.map_eq_some_iff.mp (Option.ite_none_right_eq_some.mp hnumber).2
      obtain ⟨registered, hregistered, rfl⟩ := Option.map_eq_some_iff.mp hobserver
      refine ⟨.proxyData data.uri, _, List.mem_map_of_mem hnode, ?_⟩
      rw [ofNode, hregistered]
      rfl
  rdbNumbered := id
  publishedNumbered := id

theorem calls_emitRustRdb (changeNode : Rust.RdbChangeNode δ) :
    Calls world (world.step (.emitRustRdb changeNode)).1
      (world.step (.emitRustRdb changeNode)).2 where
  objects := rfl
  held := by
    intro slot
    cases slot with
    | rustRdb key =>
      change ((Rust.RdbSubscriberManager.entriesOfKey key
        (Rust.RdbSubscriberManager.emit changeNode world.rustRdb).manager).map ofEntry).map _ = _
      rw [Rust.RdbSubscriberManager.entriesOfKey_emit]
      split
      · refine held_map_ofEntry (fun entry => ?_) _
        exact ⟨rfl, rfl⟩
      · rfl
    | _ => rfl
  called := by
    intro owner howner
    obtain ⟨object, hobject, rfl⟩ := List.mem_map.mp howner
    obtain ⟨key, -, hkey⟩ := List.mem_flatMap.mp hobject
    obtain ⟨entry, hentry, rfl⟩ := List.mem_map.mp hkey
    exact ⟨.rustRdb key, _, List.mem_map_of_mem (List.mem_of_mem_filter hentry), rfl⟩
  rdbNumbered := id
  publishedNumbered := id

theorem held_recorded (ownerBundleName : String) (datas : List (Rust.PublishedDataItem δ))
    (self : Rust.PublishedDataSubscriberManager ℕ δ) (key : Rust.PublishedObserverMapKey) :
    ((Rust.PublishedDataSubscriberManager.entriesOfKey key (datas.foldl
        (Rust.PublishedDataSubscriberManager.recordItem ownerBundleName) self)).map ofEntry).map
          Registration.held =
      ((Rust.PublishedDataSubscriberManager.entriesOfKey key self).map ofEntry).map
        Registration.held := by
  refine List.foldlRecOn (motive := fun manager =>
    ((Rust.PublishedDataSubscriberManager.entriesOfKey key manager).map ofEntry).map
      Registration.held = _) datas _ rfl ?_
  intro manager ih data _
  rcases Rust.PublishedDataSubscriberManager.entriesOfKey_recordItem key manager ownerBundleName
    data with hflagged | hsame
  · rw [hflagged, ← ih]
    refine held_map_ofEntry (fun entry => ?_) _
    split
    · exact ⟨rfl, rfl⟩
    · exact ⟨rfl, rfl⟩
  · rw [hsame, ih]

theorem calls_emitRustPublished (changeNode : Rust.PublishedDataChangeNode δ) :
    Calls world (world.step (.emitRustPublished changeNode)).1
      (world.step (.emitRustPublished changeNode)).2 where
  objects := rfl
  held := by
    intro slot
    cases slot with
    | rustPublished key => exact held_recorded _ _ _ _
    | _ => rfl
  called := by
    intro owner howner
    obtain ⟨called, hcalled, rfl⟩ := List.mem_map.mp howner
    obtain ⟨data, -, hdata⟩ := List.mem_flatMap.mp hcalled
    obtain ⟨observer, hobserver, rfl⟩ := List.mem_map.mp hdata
    obtain ⟨entry, hentry, rfl⟩ := List.mem_map.mp hobserver
    have hheld := List.mem_map_of_mem (f := Registration.held)
      (List.mem_map_of_mem (f := ofEntry) (List.mem_of_mem_filter hentry))
    rw [← Rust.PublishedDataSubscriberManager.entriesOfKey, held_recorded] at hheld
    obtain ⟨old, hold, heq⟩ := List.mem_map.mp hheld
    exact ⟨.rustPublished data.mapKey, old, hold, congrArg Prod.fst heq⟩
  rdbNumbered := id
  publishedNumbered := id

/-! ## Runs -/

theorem stepsSoundly_of_clean (h : Sound world) {event : Event δ} (hclean : Clean world event) :
    StepsSoundly world event := by
  cases event with
  | createHelper address =>
    exact ⟨h.create (by simp) address, fun _ ho => absurd ho List.not_mem_nil, fun _ ho => absurd ho
      (by simp [Event.actor])⟩
  | createHandle address =>
    exact ⟨h.create (by simp) address, fun _ ho => absurd ho List.not_mem_nil, fun _ ho => absurd ho
      (by simp [Event.actor])⟩
  | createRustHelper =>
    exact ⟨h.append _ hclean, fun _ ho => absurd ho List.not_mem_nil, fun _ ho => absurd ho
      (by simp [Event.actor])⟩
  | destroy object rdbService publishedService => exact stepsSoundly_destroy h hclean
  | rdb object call service => exact stepsSoundly_rdb h call service
  | published object call service => exact stepsSoundly_published h call service
  | proxyData object call service => exact stepsSoundly_proxyData h call service
  | rustRdb object call service => exact stepsSoundly_rustRdb h call service
  | rustPublished object call service => exact stepsSoundly_rustPublished h call service
  | emitRdb changeNode => exact stepsSoundly_of_calls h rfl (calls_emitRdb changeNode)
  | emitPublished changeNode => exact stepsSoundly_of_calls h rfl (calls_emitPublished changeNode)
  | emitProxyData changeInfo => exact stepsSoundly_of_calls h rfl (calls_emitProxyData changeInfo)
  | emitRustRdb changeNode => exact stepsSoundly_of_calls h rfl (calls_emitRustRdb changeNode)
  | emitRustPublished changeNode =>
    exact stepsSoundly_of_calls h rfl (calls_emitRustPublished changeNode)

theorem sound_worldAfter {events : List (Event δ)} (h : AllowedRun World.step Clean .initial events) :
    Sound (worldAfter events) :=
  h.invariant (P := fun world _ => Sound world) sound_initial
    fun _ _ _ hclean hsound => (stepsSoundly_of_clean hsound hclean).sound

/-- In a run of clean steps no node outlives its owner. -/
theorem nodes_end_with_owners (events : List (Event δ))
    (h : AllowedRun World.step Clean .initial events) : EndWithOwners events where
  gone := by
    rintro before after rfl object hdestroyed slot r hr howner
    obtain ⟨i, hi, hlive⟩ := (sound_worldAfter h.of_append.1).owned slot r hr
    obtain rfl := Option.some_inj.mp (hi.symm.trans howner)
    exact not_destroyed_of_live hlive hdestroyed
  silent := by
    intro before event after hevents object hdestroyed hcalled
    have hsound := sound_worldAfter (hevents ▸ h).of_append.1
    obtain ⟨kind, i, subscriber, hi, hlive⟩ :=
      (stepsSoundly_of_clean hsound (h before event after hevents)).silent _ hcalled
    obtain rfl := Option.some_inj.mp hi
    exact not_destroyed_of_live hlive hdestroyed
  apart := by
    intro before event after hevents object hobject slot
    have hsound := sound_worldAfter (hevents ▸ h).of_append.1
    exact (stepsSoundly_of_clean hsound (h before event after hevents)).apart object hobject slot

/-! ### Two helpers at one address -/

/-- A service that accepts every request. -/
def accepting : Service :=
  some fun _ => .replied errOk

/-- A helper subscribes to `u`, is destroyed, and another one gets its address. -/
def reusedAddress (rdbService : Service) : List (Event ℕ) :=
  [.createHelper 100, .rdb 0 (.subscribe [[117]] Cpp.RdbSubscriberManager.someTemplate) accepting,
    .destroy 0 rdbService accepting, .createHelper 100]

theorem nodes_end_with_owners_reusedAddress : EndWithOwners (reusedAddress accepting) := by
  refine nodes_end_with_owners _ ?_
  show AllowedRun _ _ _ ([] ++ [_] ++ [_] ++ [_] ++ [_])
  refine allowedRun_concat.mpr ⟨allowedRun_concat.mpr ⟨allowedRun_concat.mpr
    ⟨allowedRun_concat.mpr ⟨allowedRun_nil, trivial⟩, trivial⟩, ?_⟩, trivial⟩
  exact ⟨fun _ => .inl ⟨rfl, rfl⟩, fun _ => .inl ⟨rfl, rfl⟩,
    fun _ _ h => absurd h List.not_mem_nil, fun _ _ h => absurd h List.not_mem_nil,
    fun _ _ h => absurd h List.not_mem_nil⟩

/-- Without the proxy the node stays, enabled, at an address that another helper has now. -/
theorem nodes_outlive_owners : ¬ EndWithOwners (reusedAddress none) := by
  intro h
  refine h.gone _ [] (List.append_nil _).symm 0 ⟨⟨.silentHelper, 100, false⟩, rfl, rfl⟩
    (.rdb (.new [117] Cpp.RdbSubscriberManager.someTemplate)) ⟨some 0, 100, true, false⟩ ?_ rfl
  decide +kernel

end SubscriptionOwners

end DataShare
