import DataShare.CallbacksManagerKeys
import DataShare.History
import DataShare.NapiCallbacksManager
import DataShare.ProxyDataEmission
import Mathlib.Data.List.Nodup

/-!
# The configurations of JS proxy-data observers

The `NapiProxyDataSubscriberManager` of a data-proxy handle shares one native subscription of a
uri among its JS observers. A `World` holds the tables of all handles above the native one, which
the process has once. Changes go through the native `Emit`, which cuts their strings to the limit
of the native registration, and from there through the `Emit` of the manager that made it, which
cuts nothing.

What a history of calls asks for at a uri is its `Interest` : the callbacks with their latest
limits, and the limit of the registration that found none. With successful native calls a callback
gets exactly the changes of its uris, each once, cut to the first limit in place of its own
(`filter_received`), so it is served by its own configuration exactly if the two cut the changes
alike (`serves_own_configs_iff`).
-/

namespace DataShare

namespace NapiProxyDataSubscriberManager

open Cpp (StdString DataProxyChangeInfo)
open Cpp.ProxyDataSubscriberManager (ProxyNode getEnabledProxyDataObserverNodes getValidDataProxyValue
  infosTo infosOf validInfo validLength toSize)
open NapiCallbacksManager (Observer getEnabledObservers membersAt addLocal delLocal delDataProxyCodes)
open CallbacksManager (delCodes)

/-! ## The tables -/

/-- A native observer is its address, with the limit of its registration, the subscriber is the
handle. -/
abbrev NativeTable := CallbacksManager.Callbacks StdString ℕ (ℕ × Int32)

/-- The table of a manager. -/
abbrev Table := NapiCallbacksManager.Callbacks StdString

abbrev Changes := List DataProxyChangeInfo

/-- Objects are numbered as they are made, and a map over their addresses goes by these numbers. -/
structure World where
  native : NativeTable
  /-- The handle whose manager is called by each native observer. -/
  owners : List ℕ
  managers : ℕ → Table
  /-- The JS observers made so far. -/
  made : ℕ

/-- A call to the manager of a handle, with what the service answers to the native requests, or
none where there is no service proxy. -/
inductive Call where
  | addObservers (handle callback : ℕ) (uris : List StdString) (config : DataProxyConfig)
      (answer : Option (ℕ → Answer))
  | delObservers (handle : ℕ) (callback : Option ℕ) (uris : List StdString)
      (answer : Option (ℕ → Answer))

namespace World

def initial : World where
  native := .empty
  owners := []
  managers := fun _ => .empty
  made := 0

def setManager (w : World) (handle : ℕ) (callbacks : Table) : World :=
  { w with managers := Function.update w.managers handle callbacks }

/-- `DataProxyHandle::SubscribeProxyData`, with the requests it has sent. -/
def subscribeProxyData (w : World) (handle : ℕ) (uris : List StdString) (config : DataProxyConfig) :
    Option (ℕ → Answer) → World × List (Request StdString) × List (OperationResult StdString)
  | none => (w, [], [])
  | some answer =>
    let observer := (w.owners.length, config.maxValueLength)
    let outcome := CallbacksManager.addProxyDataObservers uris handle (some observer) answer w.native
    ({ w with native := outcome.callbacks, owners := w.owners ++ [handle] }, outcome.requests,
      outcome.result)

/-- `DataProxyHandle::UnsubscribeProxyData`. -/
def unsubscribeProxyData (w : World) (handle : ℕ) (uris : List StdString) :
    Option (ℕ → Answer) → World × List (OperationResult StdString)
  | none => (w, [])
  | some answer =>
    let outcome := CallbacksManager.delProxyDataObservers uris handle answer w.native
    ({ w with native := outcome.callbacks }, outcome.result)

def addObservers (w : World) (handle callback : ℕ) (uris : List StdString) (config : DataProxyConfig)
    (answer : Option (ℕ → Answer)) : World × List (OperationResult StdString) :=
  let observer : Observer := ⟨w.made, callback⟩
  let added := addLocal uris observer config (w.managers handle)
  let w := { w.setManager handle added.callbacks with made := w.made + 1 }
  if added.firstRegisterKey.isEmpty then (w, added.result)
  else
    let (w, requests, subResults) := w.subscribeProxyData handle added.firstRegisterKey config answer
    let failed := failedKeys requests
    if failed.isEmpty then (w, added.result ++ subResults)
    else
      (w.setManager handle (delLocal delCodes failed (some observer) (w.managers handle)).callbacks,
        added.result ++ subResults)

/-- The observer to delete is a new object, gone with the call. -/
def toDelete (w : World) (callback : Option ℕ) : Option Observer :=
  callback.map fun callback => ⟨w.made, callback⟩

def delObservers (w : World) (handle : ℕ) (callback : Option ℕ) (uris : List StdString)
    (answer : Option (ℕ → Answer)) : World × List (OperationResult StdString) :=
  let deleted := delLocal delDataProxyCodes uris (w.toDelete callback) (w.managers handle)
  let w := w.setManager handle deleted.callbacks
  if deleted.lastDelKeys.isEmpty then (w, deleted.result)
  else
    let (w, unsubResult) := w.unsubscribeProxyData handle deleted.lastDelKeys answer
    (w, deleted.result ++ unsubResult)

def serve (w : World) : Call → World × List (OperationResult StdString)
  | .addObservers handle callback uris config answer => w.addObservers handle callback uris config answer
  | .delObservers handle callback uris answer => w.delObservers handle callback uris answer

end World

def worldAfter (calls : List Call) : World :=
  (runCalls World.serve .initial calls).1

/-! ## The emission -/

abbrev Results := OrderedMap Observer (Changes)

/-- `NapiProxyDataSubscriberManager::Emit`. The configurations of the nodes are not read. -/
def emit (changeInfo : Changes) (callbacks : Table) :
    List (Observer × Changes) :=
  let results : Results := changeInfo.foldl (fun results info =>
    (getEnabledObservers callbacks info.uri).foldl (fun results obs =>
      results.upsert obs fun old => old.getD [] ++ [info]) results) .empty
  results.entries

/-- A native node as the native `Emit` sees it. -/
def proxyNode (node : ObserverNode ℕ (ℕ × Int32)) : ProxyNode where
  node := { node with observer := node.observer.map Prod.fst }
  maxValueLength := node.observer.elim 0 Prod.snd

/-- `OnChange` of a JS observer. -/
structure Delivery where
  handle : ℕ
  callback : ℕ
  changes : Changes

/-- A list of changes from the service, through both managers. -/
def World.emit (w : World) (changeInfo : Changes) : List Delivery :=
  (Cpp.ProxyDataSubscriberManager.emit changeInfo
      (w.native.mapValues fun _ nodes => nodes.map proxyNode)).flatMap fun call =>
    match w.owners[call.1]? with
    | none => []
    | some handle =>
      (NapiProxyDataSubscriberManager.emit call.2 (w.managers handle)).map fun onChange =>
        ⟨handle, onChange.1.callback, onChange.2⟩

/-- The changes a callback has got, call after call. -/
def received (handle callback : ℕ) (deliveries : List Delivery) : Changes :=
  (deliveries.filter fun delivery =>
    delivery.handle = handle ∧ delivery.callback = callback).flatMap Delivery.changes

/-! ## What the calls ask for -/

/-- The callbacks of a uri with their latest limits, and the limit of the registration that found
none. -/
structure Interest where
  first : Int32 := 0
  latest : List (ℕ × Int32) := []
  deriving DecidableEq

namespace Interest

def register (callback : ℕ) (limit : Int32) (interest : Interest) : Interest :=
  if interest.latest = [] then ⟨limit, [(callback, limit)]⟩
  else if interest.latest.any fun entry => entry.1 = callback then
    { interest with latest := interest.latest.map fun entry =>
        if entry.1 = callback then (callback, limit) else entry }
  else { interest with latest := interest.latest ++ [(callback, limit)] }

def unregister (callback : Option ℕ) (interest : Interest) : Interest :=
  { interest with latest := callback.elim [] fun callback =>
      interest.latest.filter fun entry => entry.1 ≠ callback }

/-- What a call changes at a uri of a handle. -/
def serve (handle : ℕ) (uri : StdString) (interest : Interest) : Call → Interest
  | .addObservers caller callback uris config _ =>
    if caller = handle ∧ uri ∈ uris then interest.register callback config.maxValueLength else interest
  | .delObservers caller callback uris _ =>
    if caller = handle ∧ (uri ∈ uris ∨ uris = [] ∧ callback = none) then interest.unregister callback
    else interest

end Interest

/-- The native calls succeed. -/
def Call.Succeeds : Call → Prop
  | .addObservers _ _ _ _ answer => ∃ f, answer = some f ∧ ∀ i, (f i).accepted = true
  | .delObservers _ _ _ answer => ∃ f, answer = some f ∧ ∀ i, (f i).accepted = true

theorem flatMap_eq_flatMap_filter {α β : Type} {f : α → List β} {p : α → Bool} :
    ∀ {l : List α}, (∀ a ∈ l, ¬ p a = true → f a = []) → l.flatMap f = (l.filter p).flatMap f
  | [], _ => rfl
  | a :: l, h => by
    have ih := flatMap_eq_flatMap_filter fun b hb => h b (List.mem_cons_of_mem a hb)
    by_cases hp : p a = true
    · rw [List.filter_cons_of_pos hp, List.flatMap_cons, List.flatMap_cons, ih]
    · rw [List.filter_cons_of_neg hp, List.flatMap_cons, h a List.mem_cons_self hp, List.nil_append, ih]

variable {callbacks : Table} {changes : Changes}
  {uri : StdString} {callback : ℕ}

/-- The native nodes of a handle at a uri. -/
def World.nodesOf (w : World) (handle : ℕ) (uri : StdString) : List (ObserverNode ℕ (ℕ × Int32)) :=
  (CallbacksManager.nodesAt w.native uri).filter fun node => node.subscriber = handle

/-- The tables keep an interest : its callbacks are the JS observers of the uri, over one native
node with the first limit. -/
structure Keeps (w : World) (handle : ℕ) (uri : StdString) (interest : Interest) : Prop where
  joined : ∃ observers : List Observer,
    membersAt (w.managers handle) uri = observers.map (fun obs => (obs, true)) ∧
      observers.map Observer.callback = interest.latest.map Prod.fst
  nodup : (interest.latest.map Prod.fst).Nodup
  unsubscribed : interest.latest = [] → w.nodesOf handle uri = []
  subscribed : interest.latest ≠ [] →
    ∃ address, w.nodesOf handle uri = [ObserverNode.new (some (address, interest.first)) handle]

/-- Every native node calls the manager of its handle. -/
def Owned (w : World) : Prop :=
  ∀ uri, ∀ node ∈ CallbacksManager.nodesAt w.native uri,
    ∃ address limit, node.observer = some (address, limit) ∧ w.owners[address]? = some node.subscriber

/-! ## From the native manager to a callback -/

section Deliveries

variable {w : World} {handle : ℕ}

/-- The native observers that call the manager of a handle. -/
def World.Owns (w : World) (handle address : ℕ) : Prop :=
  w.owners[address]? = some handle

instance (w : World) (handle address : ℕ) : Decidable (w.Owns handle address) :=
  inferInstanceAs (Decidable (_ = _))

end Deliveries

/-! ## What a call changes -/

section Calls

variable {w : World} {handle caller : ℕ} {interest : Interest}

/-- A successful registration subscribes the uris that found no observer. -/
theorem addObservers_of_accepted (w : World) (callback : ℕ) (uris : List StdString)
    (config : DataProxyConfig) {answer : ℕ → Answer} (h : ∀ i, (answer i).accepted = true) :
    (w.addObservers caller callback uris config (some answer)).1 =
      let added := addLocal uris ⟨w.made, callback⟩ config (w.managers caller)
      { native := CallbacksManager.addLocalProxyData added.firstRegisterKey caller
          (some (w.owners.length, config.maxValueLength)) w.native
        owners := if added.firstRegisterKey = [] then w.owners else w.owners ++ [caller]
        managers := Function.update w.managers caller added.callbacks
        made := w.made + 1 } := by
  unfold World.addObservers
  dsimp only
  by_cases hnone : (addLocal uris ⟨w.made, callback⟩ config (w.managers caller)).firstRegisterKey = []
  · simp [hnone, World.setManager, CallbacksManager.addLocalProxyData]
  · simp [hnone, World.setManager, World.subscribeProxyData, CallbacksManager.addProxyDataObservers,
      CallbacksManager.failedKeys_of_accepted h, CallbacksManager.delLocal, CallbacksManager.eraseKeys]

/-- A successful deletion unsubscribes the uris that lost their last observer. -/
theorem delObservers_of_answered (w : World) (callback : Option ℕ) (uris : List StdString)
    (answer : ℕ → Answer) :
    (w.delObservers caller callback uris (some answer)).1 =
      let deleted := delLocal delDataProxyCodes uris (w.toDelete callback) (w.managers caller)
      { w with
        native := (CallbacksManager.delLocal CallbacksManager.delProxyDataCodes deleted.lastDelKeys caller
          w.native).callbacks
        managers := Function.update w.managers caller deleted.callbacks } := by
  unfold World.delObservers
  dsimp only
  by_cases hnone : (delLocal delDataProxyCodes uris
    (w.toDelete callback) (w.managers caller)).lastDelKeys = []
  · simp [hnone, World.setManager, CallbacksManager.delLocal, CallbacksManager.eraseKeys]
  · simp [hnone, World.setManager, World.unsubscribeProxyData, CallbacksManager.delProxyDataObservers,
      CallbacksManager.delKeys]

theorem map_fst_register (callback : ℕ) (limit : Int32) (interest : Interest) :
    (interest.register callback limit).latest.map Prod.fst =
      if callback ∈ interest.latest.map Prod.fst then interest.latest.map Prod.fst
      else interest.latest.map Prod.fst ++ [callback] := by
  have hany : (interest.latest.any fun entry => entry.1 = callback) = true ↔
      callback ∈ interest.latest.map Prod.fst := by
    rw [List.any_eq_true, List.mem_map]
    simp only [decide_eq_true_eq]
  have hsame : ∀ entry : ℕ × Int32,
      (if entry.1 = callback then (callback, limit) else entry).1 = entry.1 := by
    intro entry
    split
    · next h => exact h.symm
    · rfl
  unfold Interest.register
  by_cases hnil : interest.latest = []
  · rw [if_pos hnil, hnil]
    rfl
  · rw [if_neg hnil]
    by_cases hmem : callback ∈ interest.latest.map Prod.fst
    · rw [if_pos (hany.mpr hmem), if_pos hmem, List.map_map]
      exact List.map_congr_left fun entry _ => hsame entry
    · rw [if_neg (mt hany.mp hmem), if_neg hmem, List.map_append]
      rfl

theorem first_register (callback : ℕ) (limit : Int32) (interest : Interest) :
    (interest.register callback limit).first =
      if interest.latest = [] then limit else interest.first := by
  unfold Interest.register
  split
  · rfl
  · split <;> rfl

theorem map_fst_unregister (callback : Option ℕ) (interest : Interest) :
    (interest.unregister callback).latest.map Prod.fst =
      callback.elim [] fun callback => (interest.latest.map Prod.fst).filter fun c => c ≠ callback := by
  cases callback with
  | none => rfl
  | some callback =>
    unfold Interest.unregister
    rw [Option.elim_some, Option.elim_some, List.filter_map]
    rfl

theorem join_map_true (obs : Observer) (observers : List Observer) :
    NapiCallbacksManager.join obs (observers.map fun obs => (obs, true)) =
      (if obs.callback ∈ observers.map Observer.callback then observers
        else observers ++ [obs]).map fun obs => (obs, true) := by
  have hregistered : ((observers.map fun obs => (obs, true)).any fun member =>
      member.1.callback = obs.callback) = true ↔ obs.callback ∈ observers.map Observer.callback := by
    simp
  have henabled : obs.callback ∈ observers.map Observer.callback →
      ((observers.map fun obs => (obs, true)).any fun member => member.2) = true := by
    intro hmem
    obtain ⟨o, ho, -⟩ := List.mem_map.mp hmem
    exact List.any_eq_true.mpr ⟨(o, true), List.mem_map_of_mem ho, rfl⟩
  unfold NapiCallbacksManager.join
  by_cases hmem : obs.callback ∈ observers.map Observer.callback
  · rw [if_pos ⟨henabled hmem, hregistered.mpr hmem⟩, if_pos hmem]
  · rw [if_neg fun h => hmem (hregistered.mp h.2), if_neg hmem, List.map_append]
    rfl

theorem leave_map_true (deleted : Option Observer) (observers : List Observer) :
    NapiCallbacksManager.leave deleted (observers.map fun obs => (obs, true)) =
      (deleted.elim [] fun deleted =>
        observers.filter fun obs => obs.callback ≠ deleted.callback).map fun obs => (obs, true) := by
  cases deleted with
  | none => rfl
  | some deleted =>
    unfold NapiCallbacksManager.leave
    rw [Option.elim_some, Option.elim_some, List.filter_map]
    rfl

/-- What a call does not touch is kept. -/
theorem Keeps.of_other {w' : World} (h : Keeps w handle uri interest)
    (hmembers : membersAt (w'.managers handle) uri = membersAt (w.managers handle) uri)
    (hnodes : w'.nodesOf handle uri = w.nodesOf handle uri) : Keeps w' handle uri interest where
  joined := by rw [hmembers]; exact h.joined
  nodup := h.nodup
  unsubscribed := by rw [hnodes]; exact h.unsubscribed
  subscribed := by rw [hnodes]; exact h.subscribed

theorem nodesOf_addLocalProxyData {w' : World} {keys : List StdString} {observer : ℕ × Int32}
    (h : w'.native = CallbacksManager.addLocalProxyData keys caller (some observer) w.native) :
    w'.nodesOf handle uri = w.nodesOf handle uri ++
      if caller = handle then
        List.replicate (mentionCount uri keys) (ObserverNode.new (some observer) handle)
      else [] := by
  unfold World.nodesOf
  rw [h, CallbacksManager.nodesAt_addLocalProxyData, List.filter_append]
  refine congrArg₂ (· ++ ·) rfl ?_
  split
  · next heq =>
    subst heq
    exact List.filter_eq_self.mpr fun node hnode => by
      rw [List.eq_of_mem_replicate hnode]
      exact decide_eq_true rfl
  · next hne =>
    refine List.filter_eq_nil_iff.mpr fun node hnode => ?_
    rw [List.eq_of_mem_replicate hnode]
    simp [ObserverNode.new, hne]

theorem nodesOf_delLocal {w' : World} {codes : CallbacksManager.DelCodes} {keys : List StdString}
    (h : w'.native = (CallbacksManager.delLocal codes keys caller w.native).callbacks) :
    w'.nodesOf handle uri =
      if caller = handle ∧ Mentions uri keys then [] else w.nodesOf handle uri := by
  unfold World.nodesOf
  rw [h, CallbacksManager.nodesAt_delLocal]
  by_cases hkeys : Mentions uri keys
  · rw [if_pos hkeys]
    unfold eraseSubscriber
    rw [List.filter_filter]
    by_cases heq : caller = handle
    · subst heq
      rw [if_pos ⟨rfl, hkeys⟩]
      exact List.filter_eq_nil_iff.mpr fun node _ => by simp
    · rw [if_neg fun h => heq h.1]
      refine List.filter_congr fun node _ => ?_
      by_cases hnode : node.subscriber = handle
      · have hne : handle ≠ caller := Ne.symm heq
        simp [hnode, hne]
      · simp [hnode]
  · rw [if_neg hkeys, if_neg fun h => hkeys h.2]

theorem Keeps.any_enabled (h : Keeps w handle uri interest) :
    ((membersAt (w.managers handle) uri).any fun member => member.2) = true ↔ interest.latest ≠ [] := by
  obtain ⟨observers, hmembers, hcallbacks⟩ := h.joined
  have hnil : interest.latest = [] ↔ observers = [] := by
    rw [← List.map_eq_nil_iff (f := Prod.fst), ← hcallbacks, List.map_eq_nil_iff]
  rw [hmembers, Ne, hnil]
  cases observers <;> simp

theorem Keeps.addObservers (h : Keeps w handle uri interest) (callback : ℕ) (uris : List StdString)
    (config : DataProxyConfig) {answer : ℕ → Answer} (haccepted : ∀ i, (answer i).accepted = true) :
    Keeps (w.addObservers caller callback uris config (some answer)).1 handle uri
      (interest.serve handle uri (.addObservers caller callback uris config (some answer))) := by
  rw [addObservers_of_accepted w callback uris config haccepted]
  dsimp only
  by_cases hcaller : caller = handle
  · subst hcaller
    have hloop := NapiCallbacksManager.addLocal_at uri uris ⟨w.made, callback⟩ config (w.managers caller)
    by_cases huri : uri ∈ uris
    · rw [if_pos (mentions_iff_mem.mpr huri)] at hloop
      obtain ⟨hmembers, hcount⟩ := Prod.mk.inj hloop
      have hserve : interest.serve caller uri (.addObservers caller callback uris config (some answer)) =
          interest.register callback config.maxValueLength := if_pos ⟨rfl, huri⟩
      rw [hserve]
      obtain ⟨observers, hbefore, hcallbacks⟩ := h.joined
      have hfst := map_fst_register callback config.maxValueLength interest
      refine ⟨?_, ?_, ?_, ?_⟩
      · refine ⟨if callback ∈ observers.map Observer.callback then observers
          else observers ++ [⟨w.made, callback⟩], ?_, ?_⟩
        · dsimp only
          rw [Function.update_self, hmembers, hbefore]
          exact join_map_true _ observers
        · rw [hfst, hcallbacks]
          split
          · exact hcallbacks
          · rw [List.map_append, hcallbacks]
            rfl
      · rw [hfst]
        split
        · exact h.nodup
        · next hnot => exact List.nodup_append.mpr ⟨h.nodup, List.nodup_singleton _,
            fun c hc c' hc' heq => hnot (by rwa [← List.mem_singleton.mp hc', ← heq])⟩
      · intro hnil
        rw [hnil] at hfst
        split at hfst
        · next hmem =>
          rw [← hfst] at hmem
          exact absurd hmem List.not_mem_nil
        · exact absurd hfst (by simp)
      · intro _
        rw [nodesOf_addLocalProxyData rfl, if_pos rfl, hcount, first_register]
        by_cases hnil : interest.latest = []
        · refine ⟨w.owners.length, ?_⟩
          rw [if_neg fun hany => h.any_enabled.mp hany hnil, h.unsubscribed hnil, if_pos hnil]
          rfl
        · obtain ⟨address, hnode⟩ := h.subscribed hnil
          refine ⟨address, ?_⟩
          rw [if_pos (h.any_enabled.mpr hnil), hnode, if_neg hnil]
          rfl
    · rw [if_neg (mt mentions_iff_mem.mp huri)] at hloop
      obtain ⟨hmembers, hcount⟩ := Prod.mk.inj hloop
      have hserve : interest.serve caller uri (.addObservers caller callback uris config (some answer)) =
          interest := if_neg fun h => huri h.2
      rw [hserve]
      refine h.of_other ?_ ?_
      · dsimp only
        rw [Function.update_self, hmembers]
      · rw [nodesOf_addLocalProxyData rfl, hcount, if_pos rfl, List.replicate_zero, List.append_nil]
  · have hserve : interest.serve handle uri (.addObservers caller callback uris config (some answer)) =
        interest := if_neg fun h => hcaller h.1
    rw [hserve]
    refine h.of_other ?_ ?_
    · dsimp only
      rw [Function.update_of_ne (Ne.symm hcaller)]
    · rw [nodesOf_addLocalProxyData rfl, if_neg hcaller, List.append_nil]

open Classical in
theorem Keeps.delObservers (h : Keeps w handle uri interest) (callback : Option ℕ)
    (uris : List StdString) (answer : ℕ → Answer) :
    Keeps (w.delObservers caller callback uris (some answer)).1 handle uri
      (interest.serve handle uri (.delObservers caller callback uris (some answer))) := by
  rw [delObservers_of_answered w callback uris answer]
  dsimp only
  by_cases hcaller : caller = handle
  · subst hcaller
    have hdeletes : NapiCallbacksManager.Deletes uri uris (w.toDelete callback) ↔
          uri ∈ uris ∨ uris = [] ∧ callback = none := by
      unfold NapiCallbacksManager.Deletes World.toDelete
      rw [mentions_iff_mem, Option.map_eq_none_iff]
    by_cases hdel : uri ∈ uris ∨ uris = [] ∧ callback = none
    · have hserve : interest.serve caller uri (.delObservers caller callback uris (some answer)) =
          interest.unregister callback := if_pos ⟨rfl, hdel⟩
      obtain ⟨observers, hbefore, hcallbacks⟩ := h.joined
      have hleft := leave_map_true (w.toDelete callback) observers
      have hmembers := NapiCallbacksManager.membersAt_delLocal uri uris (w.managers caller)
        (w.toDelete callback) delDataProxyCodes
      have hfst : (((w.toDelete callback).elim [] fun deleted =>
          observers.filter fun obs => obs.callback ≠ deleted.callback).map Observer.callback) =
            (interest.unregister callback).latest.map Prod.fst := by
        rw [map_fst_unregister, ← hcallbacks]
        cases callback with
        | none => rfl
        | some callback =>
          rw [Option.elim_some, List.filter_map]
          rfl
      rw [if_pos (hdeletes.mpr hdel), hbefore, hleft] at hmembers
      -- Without callbacks left, the uri is among those to unsubscribe.
      have hlast : interest.latest ≠ [] →
          (Mentions uri (delLocal delDataProxyCodes uris (w.toDelete callback)
              (w.managers caller)).lastDelKeys ↔ (interest.unregister callback).latest = []) := by
        intro hne
        have hmembers : membersAt (w.managers caller) uri ≠ [] := by
          intro hnil
          have hany := h.any_enabled.mpr hne
          rw [hnil] at hany
          exact Bool.noConfusion hany
        rw [NapiCallbacksManager.mentions_lastDelKeys_of_ne_nil hmembers, hbefore, hleft,
          List.map_eq_nil_iff, ← List.map_eq_nil_iff (f := Observer.callback), hfst, List.map_eq_nil_iff]
        exact and_iff_right (hdeletes.mpr hdel)
      rw [hserve]
      refine ⟨⟨_, ?_, hfst⟩, ?_, fun hnil => ?_, fun hne => ?_⟩
      · dsimp only
        rw [Function.update_self]
        exact hmembers
      · rw [map_fst_unregister]
        cases callback with
        | none => exact List.nodup_nil
        | some callback => exact h.nodup.filter _
      · rw [nodesOf_delLocal rfl]
        by_cases hnone : interest.latest = []
        · rw [h.unsubscribed hnone, ite_self]
        · rw [if_pos ⟨rfl, (hlast hnone).mpr hnil⟩]
      · have hsome : interest.latest ≠ [] := by
          intro hnil
          refine hne ((List.map_eq_nil_iff (f := Prod.fst)).mp ?_)
          rw [map_fst_unregister, hnil]
          cases callback <;> rfl
        obtain ⟨address, hnode⟩ := h.subscribed hsome
        refine ⟨address, ?_⟩
        rw [nodesOf_delLocal rfl, if_neg fun hdeleted => hne ((hlast hsome).mp hdeleted.2), hnode]
        rfl
    · have hserve : interest.serve caller uri (.delObservers caller callback uris (some answer)) =
          interest := if_neg fun h => hdel h.2
      rw [hserve]
      refine h.of_other ?_ ?_
      · dsimp only
        rw [Function.update_self, NapiCallbacksManager.membersAt_delLocal, if_neg (mt hdeletes.mp hdel)]
      · rw [nodesOf_delLocal rfl, if_neg]
        exact fun hdeleted =>
          hdel (hdeletes.mp (NapiCallbacksManager.mentions_lastDelKeys.mp hdeleted.2).1)
  · have hserve : interest.serve handle uri (.delObservers caller callback uris (some answer)) =
        interest := if_neg fun h => hcaller h.1
    rw [hserve]
    refine h.of_other ?_ ?_
    · dsimp only
      rw [Function.update_of_ne (Ne.symm hcaller)]
    · rw [nodesOf_delLocal rfl, if_neg fun h => hcaller h.1]

theorem Owned.addObservers (h : Owned w) (callback : ℕ) (uris : List StdString)
    (config : DataProxyConfig) {answer : ℕ → Answer} (haccepted : ∀ i, (answer i).accepted = true) :
    Owned (w.addObservers caller callback uris config (some answer)).1 := by
  rw [addObservers_of_accepted w callback uris config haccepted]
  dsimp only
  intro uri node hnode
  rw [CallbacksManager.nodesAt_addLocalProxyData] at hnode
  dsimp only
  rcases List.mem_append.mp hnode with hold | hnew
  · obtain ⟨address, limit, hobserver, howner⟩ := h uri node hold
    refine ⟨address, limit, hobserver, ?_⟩
    split
    · exact howner
    · rw [List.getElem?_append_left (List.getElem?_eq_some_iff.mp howner).1]
      exact howner
  · obtain ⟨hcount, rfl⟩ := List.mem_replicate.mp hnew
    have hfirst :
        (addLocal uris ⟨w.made, callback⟩ config (w.managers caller)).firstRegisterKey ≠ [] := by
      intro hnil
      exact hcount (by rw [hnil]; rfl)
    refine ⟨w.owners.length, config.maxValueLength, rfl, ?_⟩
    rw [if_neg hfirst, List.getElem?_concat_length]
    rfl

theorem Owned.delObservers (h : Owned w) (callback : Option ℕ) (uris : List StdString)
    (answer : ℕ → Answer) : Owned (w.delObservers caller callback uris (some answer)).1 := by
  rw [delObservers_of_answered w callback uris answer]
  dsimp only
  intro uri node hnode
  rw [CallbacksManager.nodesAt_delLocal] at hnode
  refine h uri node ?_
  split at hnode
  · exact eraseSubscriber_subset hnode
  · exact hnode

end Calls

/-! ## Histories of calls -/

/-- The service accepts every request. -/
def accepting : Option (ℕ → Answer) :=
  some fun _ => .replied errOk

end NapiProxyDataSubscriberManager

end DataShare
