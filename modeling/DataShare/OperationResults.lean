import DataShare.SubscriptionLedger
import Mathlib.Data.List.Perm.Basic

/-!
# Results of the callbacks manager

Each loop of the callbacks manager answers a key itself or collects it for its callback, which is
to append one result for every key it is given (`OneEach`). The turns of `AddObservers`,
`DelObservers` and `DisableObservers` do one or the other, so every key gets one result. A turn of
`EnableObservers` that enables a node of a key with other enabled observers does neither
(`Silent`), and its key is left without an answer (`one_result_each_iff`).

What a deletion reports for a key is the code for a key that keeps observers, or the answer of the
service to the key's requests. The two variants differ in that code, and the call without keys
goes over all keys of the table (`deletion_reports_iff`).
-/

namespace DataShare

namespace CallbacksManager

variable {κ σ ω : Type} [Ord κ] [Std.TransOrd κ] [DecidableEq σ]

/-! ## One result a key -/

/-- What a callback to the service appends for the keys it is given. -/
abbrev ServiceCallback (κ : Type) := List κ → List (OperationResult κ)

/-- It appends exactly one result for each key. -/
def OneEach (callback : ServiceCallback κ) : Prop :=
  ∀ keys, ((callback keys).map OperationResult.key).Perm keys

/-- A service that accepts everything. -/
def acceptAll : ServiceCallback κ :=
  List.map fun key => ⟨key, errOk⟩

omit [Ord κ] [Std.TransOrd κ] in
theorem oneEach_acceptAll : OneEach (acceptAll : ServiceCallback κ) := fun keys => by
  simp [acceptAll, Function.comp_def]

inductive Operation (ω : Type) where
  | add (observer : Option ω)
  | del
  | enable
  | disable

/-- The results an operation returns. -/
def Operation.results (op : Operation ω) (keys : List κ) (subscriber : σ)
    (callback : ServiceCallback κ) (callbacks : Callbacks κ σ ω) : List (OperationResult κ) :=
  match op with
  | .add observer =>
    let added := addLocal keys subscriber observer callbacks
    added.result ++ callback added.firstRegisterKey
  | .del =>
    let deleted := delLocal delCodes keys subscriber callbacks
    if deleted.lastDelKeys.isEmpty then deleted.result
    else deleted.result ++ callback deleted.lastDelKeys
  | .enable =>
    let enabled := enableLocal keys subscriber callbacks
    enabled.result ++ callback enabled.sendServiceKeys
  | .disable =>
    let disabled := disableLocal keys subscriber callbacks
    disabled.result ++ callback disabled.lastDisabledKeys

def Operation.kind : Operation ω → RequestKind
  | .add _ => .subscribe
  | .del => .unsubscribe
  | .enable => .enable
  | .disable => .disable

/-- The operation with its service calls. -/
def Operation.outcome (op : Operation ω) (keys : List κ) (subscriber : σ) (answer : ℕ → Answer)
    (callbacks : Callbacks κ σ ω) : Outcome κ σ ω :=
  match op with
  | .add observer => addObservers keys subscriber observer answer callbacks
  | .del => delObservers keys subscriber answer callbacks
  | .enable => enableObservers keys subscriber answer callbacks
  | .disable => disableObservers keys subscriber answer callbacks

/-- The subscriber's first node is disabled, and another observer of the key is enabled. -/
def Silent (subscriber : σ) (nodes : List (ObserverNode σ ω)) : Prop :=
  FirstDisabled subscriber nodes ∧ HasEnabled nodes

section Loops

omit [Ord κ] [Std.TransOrd κ] in
/-- A loop that answers or collects its key in each turn. -/
theorem perm_foldl {α : Type} (f : α → κ → α) (out : α → List κ)
    (h : ∀ acc key, (out (f acc key)).Perm (out acc ++ [key])) :
    ∀ (keys : List κ) (acc : α), (out (keys.foldl f acc)).Perm (out acc ++ keys)
  | [], acc => by simp
  | key :: keys, acc => by
    have hrest := perm_foldl f out h keys (f acc key)
    rw [List.foldl_cons, List.append_cons]
    exact hrest.trans ((h acc key).append_right keys)

omit [Ord κ] [Std.TransOrd κ] in
/-- One more result, for the key of the turn. -/
theorem perm_answered (result : List (OperationResult κ)) (collected : List κ) (key : κ)
    (errCode : Int) :
    ((result ++ [(⟨key, errCode⟩ : OperationResult κ)]).map OperationResult.key ++ collected).Perm
      (result.map OperationResult.key ++ collected ++ [key]) := by
  rw [List.map_append, List.append_assoc, List.append_assoc]
  exact (List.perm_append_comm).append_left _

omit [DecidableEq σ] in
theorem perm_addLocal (keys : List κ) (subscriber : σ) (observer : Option ω)
    (callbacks : Callbacks κ σ ω) :
    ((addLocal keys subscriber observer callbacks).result.map OperationResult.key ++
      (addLocal keys subscriber observer callbacks).firstRegisterKey).Perm keys := by
  refine perm_foldl (addObserver subscriber observer)
    (fun acc => acc.result.map OperationResult.key ++ acc.firstRegisterKey) (fun acc key => ?_) keys
    ⟨callbacks, [], [], []⟩
  unfold addObserver
  dsimp only
  split
  · rw [← List.append_assoc]
  · exact perm_answered _ _ key _

theorem perm_delLocal (codes : DelCodes) (keys : List κ) (subscriber : σ)
    (callbacks : Callbacks κ σ ω) :
    ((delLocal codes keys subscriber callbacks).result.map OperationResult.key ++
      (delLocal codes keys subscriber callbacks).lastDelKeys).Perm keys := by
  refine perm_foldl (delLocalObservers codes subscriber)
    (fun acc => acc.result.map OperationResult.key ++ acc.lastDelKeys) (fun acc key => ?_) keys
    ⟨callbacks, [], []⟩
  unfold delLocalObservers
  split
  · exact perm_answered _ _ key _
  · dsimp only
    split
    · rw [← List.append_assoc]
    · exact perm_answered _ _ key _

theorem perm_disableLocal (keys : List κ) (subscriber : σ) (callbacks : Callbacks κ σ ω) :
    ((disableLocal keys subscriber callbacks).result.map OperationResult.key ++
      (disableLocal keys subscriber callbacks).lastDisabledKeys).Perm keys := by
  refine perm_foldl (disableObserver subscriber)
    (fun acc => acc.result.map OperationResult.key ++ acc.lastDisabledKeys) (fun acc key => ?_) keys
    ⟨callbacks, [], []⟩
  unfold disableObserver
  dsimp only
  split
  · exact perm_answered _ _ key _
  · split
    · exact perm_answered _ _ key _
    · split
      · exact perm_answered _ _ key _
      · split
        · rw [← List.append_assoc]
        · exact perm_answered _ _ key _

instance (subscriber : σ) (nodes : List (ObserverNode σ ω)) :
    Decidable (FirstDisabled subscriber nodes) :=
  decidable_of_iff ((nodeToEnable subscriber nodes).isSome = true) <| by
    rw [Option.isSome_iff_exists]
    exact exists_congr fun node => nodeToEnable_eq_some

instance (subscriber : σ) (nodes : List (ObserverNode σ ω)) : Decidable (Silent subscriber nodes) :=
  inferInstanceAs (Decidable (_ ∧ _))

/-- A turn of `EnableObservers` is silent on a key another observer of which is enabled. -/
theorem perm_enableObserver (subscriber : σ) (acc : Enabled κ σ ω) (key : κ) :
    ((enableObserver subscriber acc key).result.map OperationResult.key ++
      (enableObserver subscriber acc key).sendServiceKeys).Perm
      (acc.result.map OperationResult.key ++ acc.sendServiceKeys ++
        if Silent subscriber (nodesAt acc.callbacks key) then [] else [key]) := by
  unfold enableObserver
  cases hfind : acc.callbacks.find? key with
  | none =>
    have hnot : ¬ Silent subscriber (nodesAt acc.callbacks key) := by
      rintro ⟨⟨node, hnode, -⟩, -⟩
      rw [nodesAt, hfind] at hnode
      simp at hnode
    rw [if_neg hnot]
    exact perm_answered _ _ key _
  | some nodes =>
    rw [nodesAt_of_find? hfind]
    dsimp only
    cases hfirst : nodes.find? fun node => node.subscriber = subscriber with
    | none =>
      have hnot : ¬ Silent subscriber nodes := by
        rintro ⟨⟨node, hnode, -⟩, -⟩
        exact absurd (hfirst.symm.trans hnode) (by simp)
      rw [if_neg hnot]
      exact perm_answered _ _ key _
    | some node =>
      dsimp only
      by_cases henabled : node.enabled = true
      · have hnot : ¬ Silent subscriber nodes := by
          rintro ⟨⟨node', hnode, hdis⟩, -⟩
          obtain rfl := Option.some_inj.mp (hfirst.symm.trans hnode)
          exact absurd (henabled.symm.trans hdis) (by simp)
        rw [if_pos henabled, if_neg hnot]
        exact perm_answered _ _ key _
      · have hdis : FirstDisabled subscriber nodes := ⟨node, hfirst, by simpa using henabled⟩
        rw [if_neg henabled]
        dsimp only
        simp only [isEmpty_getEnabledObservers, nodesAt_of_find? hfind]
        by_cases hE : HasEnabled nodes
        · rw [if_neg (not_not.mpr hE), if_pos (show Silent subscriber nodes from ⟨hdis, hE⟩),
            List.append_nil]
        · rw [if_pos hE, if_neg fun h : Silent subscriber nodes => hE h.2, ← List.append_assoc]

theorem perm_enableLoop (subscriber : σ) : ∀ {keys : List κ},
    keys.Pairwise (fun a b => compare a b ≠ .eq) →
    ∀ acc : Enabled κ σ ω,
    ((keys.foldl (enableObserver subscriber) acc).result.map OperationResult.key ++
      (keys.foldl (enableObserver subscriber) acc).sendServiceKeys).Perm
      (acc.result.map OperationResult.key ++ acc.sendServiceKeys ++
        keys.filter fun key => ¬ Silent subscriber (nodesAt acc.callbacks key))
  | [], _, acc => by simp
  | key :: keys, h, acc => by
    obtain ⟨hkey, hkeys⟩ := List.pairwise_cons.mp h
    have hrest := perm_enableLoop subscriber hkeys (enableObserver subscriber acc key)
    have hsame : ∀ k ∈ keys, nodesAt (enableObserver subscriber acc key).callbacks k =
        nodesAt acc.callbacks k := by
      intro k hk
      have hne : ¬ compare k key = .eq := fun heq => hkey k hk (Std.OrientedCmp.eq_symm heq)
      have hturn := enableObserver_turnAt subscriber acc key (k := k)
      rwa [if_neg hne] at hturn
    have hfilter : (keys.filter fun key' => ¬ Silent subscriber
          (nodesAt (enableObserver subscriber acc key).callbacks key')) =
        keys.filter fun key' => ¬ Silent subscriber (nodesAt acc.callbacks key') :=
      List.filter_congr fun k hk => by rw [hsame k hk]
    rw [hfilter] at hrest
    rw [List.foldl_cons]
    refine hrest.trans ?_
    have hturn := (perm_enableObserver subscriber acc key).append_right
      (keys.filter fun key' => ¬ Silent subscriber (nodesAt acc.callbacks key'))
    by_cases hsilent : Silent subscriber (nodesAt acc.callbacks key)
    · rw [if_pos hsilent, List.append_nil] at hturn
      rwa [List.filter_cons_of_neg (by simpa using hsilent)]
    · rw [if_neg hsilent, ← List.append_cons] at hturn
      rwa [List.filter_cons_of_pos (by simpa using hsilent)]

end Loops

/-- Every key gets exactly one result, but for the keys `EnableObservers` is silent on : a node
it enables there is neither answered nor sent to the service. -/
theorem one_result_each_iff (op : Operation ω) (keys : List κ) (subscriber : σ)
    (callback : ServiceCallback κ) (callbacks : Callbacks κ σ ω)
    (hdistinct : keys.Pairwise fun a b => compare a b ≠ .eq) (hone : OneEach callback) :
    ((op.results keys subscriber callback callbacks).map OperationResult.key).Perm keys ↔
      (op = .enable → ∀ key ∈ keys, ¬ Silent subscriber (nodesAt callbacks key)) := by
  have hall {result : List (OperationResult κ)} {collected : List κ}
      (h : (result.map OperationResult.key ++ collected).Perm keys) :
      ((result ++ callback collected).map OperationResult.key).Perm keys := by
    rw [List.map_append]
    exact ((hone collected).append_left _).trans h
  cases op with
  | add observer =>
    exact iff_of_true (hall (perm_addLocal keys subscriber observer callbacks)) (by simp)
  | del =>
    refine iff_of_true ?_ (by simp)
    unfold Operation.results
    dsimp only
    have hdel := perm_delLocal delCodes keys subscriber callbacks
    split
    · next hnil =>
      rwa [List.isEmpty_iff.mp hnil, List.append_nil] at hdel
    · exact hall hdel
  | disable => exact iff_of_true (hall (perm_disableLocal keys subscriber callbacks)) (by simp)
  | enable =>
    have hloop : ((enableLocal keys subscriber callbacks).result.map OperationResult.key ++
        (enableLocal keys subscriber callbacks).sendServiceKeys).Perm
        (keys.filter fun key => ¬ Silent subscriber (nodesAt callbacks key)) :=
      perm_enableLoop subscriber hdistinct _
    have hresults : ((Operation.enable.results keys subscriber callback callbacks).map
        OperationResult.key).Perm
        (keys.filter fun key => ¬ Silent subscriber (nodesAt callbacks key)) := by
      unfold Operation.results
      rw [List.map_append]
      exact ((hone _).append_left _).trans hloop
    have hfilter : (keys.filter fun key => ¬ Silent subscriber (nodesAt callbacks key)).Perm keys ↔
        ∀ key ∈ keys, ¬ Silent subscriber (nodesAt callbacks key) := by
      refine ⟨fun h => ?_, fun h => ?_⟩
      · intro key hkey
        simpa using List.of_mem_filter (h.mem_iff.mpr hkey)
      · rw [List.filter_eq_self.mpr (by simpa using h)]
    constructor
    · exact fun h _ => hfilter.mp (hresults.symm.trans h)
    · exact fun h => hresults.trans (hfilter.mpr (h rfl))

/-- Subscribers 1 and 2 of a key. -/
def twoSubscribers : Callbacks ℕ ℕ ℕ :=
  (addLocal [0] 2 (some 20) (addLocal [0] 1 (some 10) .empty).callbacks).callbacks

/-- Subscriber 1 has another key for itself. -/
def sharedAndOwnKey : Callbacks ℕ ℕ ℕ :=
  (addLocal [5] 1 (some 30) twoSubscribers).callbacks

/-- Deleting the key of its own and enabling it again go to the service, the rest is answered here. -/
theorem one_result_each_of_shared_and_own_key :
    ((Operation.del.results [0, 5, 9] 1 acceptAll sharedAndOwnKey).map OperationResult.key).Perm
      [0, 5, 9] ∧
    ((Operation.enable.results [5, 9] 1 acceptAll (disableLocal [5] 1 sharedAndOwnKey).callbacks).map
      OperationResult.key).Perm [5, 9] := by
  refine ⟨(one_result_each_iff .del [0, 5, 9] 1 acceptAll sharedAndOwnKey (by simp)
      oneEach_acceptAll).mpr (by simp),
    (one_result_each_iff .enable [5, 9] 1 acceptAll (disableLocal [5] 1 sharedAndOwnKey).callbacks
      (by simp) oneEach_acceptAll).mpr fun _ key hkey hsilent => ?_⟩
  have hnone : ∀ key ∈ [5, 9], ¬ HasEnabled
      (nodesAt (disableLocal [5] 1 sharedAndOwnKey).callbacks key) := by decide
  exact hnone key hkey hsilent.2

/-- The first of them disabled. -/
def oneOfTwoDisabled : Callbacks ℕ ℕ ℕ :=
  (disableLocal [0] 1 twoSubscribers).callbacks

/-- `EnableObservers` enables the node of subscriber 1 and returns no result. -/
theorem enable_without_result :
    ¬ ∀ (op : Operation ℕ) (keys : List ℕ) (subscriber : ℕ) (callback : ServiceCallback ℕ)
      (callbacks : Callbacks ℕ ℕ ℕ), keys.Pairwise (fun a b => compare a b ≠ .eq) →
      OneEach callback →
      ((op.results keys subscriber callback callbacks).map OperationResult.key).Perm keys := by
  intro hall
  have hperm := hall .enable [0] 1 acceptAll oneOfTwoDisabled (by simp) oneEach_acceptAll
  have hresults : Operation.enable.results [0] 1 acceptAll oneOfTwoDisabled = [] := rfl
  rw [hresults] at hperm
  exact absurd hperm (by simp)

/-! ## The results of a deletion -/

/-- The keys of a call, or no keys for all of the subscriber's registrations. -/
inductive Requested (κ : Type) where
  | these (keys : List κ)
  | all

def Requested.list (requested : Requested κ) (callbacks : Callbacks κ σ ω) : List κ :=
  match requested with
  | .these keys => keys
  | .all => callbacks.keys

/-- `DelObservers` and `DelProxyDataObservers`, with and without keys. -/
def deletion (codes : DelCodes) (requested : Requested κ) (subscriber : σ) (answer : ℕ → Answer)
    (callbacks : Callbacks κ σ ω) : Outcome κ σ ω :=
  delKeys codes (requested.list callbacks) subscriber answer callbacks

/-- The subscriber has a node among those of the key. -/
def Owns (subscriber : σ) (nodes : List (ObserverNode σ ω)) : Prop :=
  ∃ node ∈ nodes, node.subscriber = subscriber

instance (subscriber : σ) (nodes : List (ObserverNode σ ω)) : Decidable (Owns subscriber nodes) :=
  inferInstanceAs (Decidable (∃ node ∈ nodes, _))

/-- A call takes a node of the subscriber from the key. -/
def Removes (subscriber : σ) (before after : Callbacks κ σ ω) (k : κ) : Prop :=
  ∃ node ∈ nodesAt before k, node.subscriber = subscriber ∧ node ∉ nodesAt after k

/-- Something is reported for the key, and it is the success code. -/
def Succeeds (k : κ) (results : List (OperationResult κ)) : Prop :=
  (∃ r ∈ results, compare k r.key = .eq) ∧ ∀ r ∈ results, compare k r.key = .eq → r.errCode = errOk

/-- The keys among `keys` which lose their last node : all of their nodes are the subscriber's. -/
def lastKeys (subscriber : σ) (callbacks : Callbacks κ σ ω) (keys : List κ) : List κ :=
  keys.filter fun key =>
    (callbacks.find? key).any fun nodes => (eraseSubscriber subscriber nodes).isEmpty

section Deletion

variable {subscriber : σ} {codes : DelCodes} {k : κ}

/-- The result of a turn that does not collect its key. -/
def localResult (codes : DelCodes) (subscriber : σ) (callbacks : Callbacks κ σ ω) (key : κ) :
    Option (OperationResult κ) :=
  match callbacks.find? key with
  | none => some ⟨key, codes.missing⟩
  | some nodes =>
    if (eraseSubscriber subscriber nodes).isEmpty then none else some ⟨key, codes.remaining⟩

/-- What is left at a key is the same before and after a turn, of this key or another. -/
theorem left_delLocalObservers (acc : Deleted κ σ ω) (key k : κ) :
    ((delLocalObservers codes subscriber acc key).callbacks.find? k).map (eraseSubscriber subscriber) =
      (acc.callbacks.find? k).map (eraseSubscriber subscriber) := by
  have hturnAt : TurnAt k (delLocalObservers codes subscriber)
      (fun acc : Deleted κ σ ω => acc.callbacks.find? k) _ := delLocalObservers_turnAt codes
  have hturn := hturnAt acc key
  dsimp only at hturn
  rw [hturn]
  split
  · rw [Option.map_map]
    congr 1
    ext1 nodes
    exact eraseSubscriber_idem
  · rfl

omit [Std.TransOrd κ] in
theorem localResult_congr {callbacks callbacks' : Callbacks κ σ ω} {key : κ}
    (h : (callbacks.find? key).map (eraseSubscriber subscriber) =
      (callbacks'.find? key).map (eraseSubscriber subscriber)) :
    localResult codes subscriber callbacks key = localResult codes subscriber callbacks' key := by
  unfold localResult
  cases hfind : callbacks.find? key with
  | none =>
    rw [hfind, Option.map_none, eq_comm, Option.map_eq_none_iff] at h
    rw [h]
  | some nodes =>
    rw [hfind, Option.map_some, eq_comm] at h
    obtain ⟨nodes', hfind', hleft⟩ := Option.map_eq_some_iff.mp h
    rw [hfind']
    dsimp only
    rw [hleft]

omit [Std.TransOrd κ] in
theorem lastKeys_congr {callbacks callbacks' : Callbacks κ σ ω} {keys : List κ}
    (h : ∀ key, (callbacks.find? key).map (eraseSubscriber subscriber) =
      (callbacks'.find? key).map (eraseSubscriber subscriber)) :
    lastKeys subscriber callbacks keys = lastKeys subscriber callbacks' keys := by
  unfold lastKeys
  have hany (callbacks : Callbacks κ σ ω) (key : κ) :
      ((callbacks.find? key).any fun nodes => (eraseSubscriber subscriber nodes).isEmpty) =
        ((callbacks.find? key).map (eraseSubscriber subscriber)).any List.isEmpty := by
    rw [Option.any_map]
  simp only [hany, h]

/-- The loop answers a key by what is left of it, or collects it. -/
theorem foldl_delLocalObservers : ∀ (keys : List κ) (acc : Deleted κ σ ω),
    (keys.foldl (delLocalObservers codes subscriber) acc).result =
      acc.result ++ keys.filterMap (localResult codes subscriber acc.callbacks) ∧
    (keys.foldl (delLocalObservers codes subscriber) acc).lastDelKeys =
      acc.lastDelKeys ++ lastKeys subscriber acc.callbacks keys
  | [], acc => by simp [lastKeys]
  | key :: keys, acc => by
    obtain ⟨hresult, hlast⟩ := foldl_delLocalObservers keys (delLocalObservers codes subscriber acc key)
    have hleft : ∀ k, ((delLocalObservers codes subscriber acc key).callbacks.find? k).map
          (eraseSubscriber subscriber) =
        (acc.callbacks.find? k).map (eraseSubscriber subscriber) := left_delLocalObservers acc key
    have hlocal : localResult codes subscriber (delLocalObservers codes subscriber acc key).callbacks =
        localResult codes subscriber acc.callbacks := by
      ext1 key'
      exact localResult_congr (hleft key')
    rw [List.foldl_cons, hresult, hlast, lastKeys_congr hleft, hlocal]
    have hturn : (delLocalObservers codes subscriber acc key).result =
          acc.result ++ (localResult codes subscriber acc.callbacks key).toList ∧
        (delLocalObservers codes subscriber acc key).lastDelKeys =
          acc.lastDelKeys ++ lastKeys subscriber acc.callbacks [key] := by
      unfold delLocalObservers localResult lastKeys
      cases hfind : acc.callbacks.find? key with
      | none => simp [hfind]
      | some nodes =>
        by_cases hnil : (eraseSubscriber subscriber nodes).isEmpty = true
        · simp [hfind, hnil]
        · simp [hfind, hnil]
    rw [hturn.1, hturn.2, List.append_assoc, List.append_assoc]
    refine ⟨?_, ?_⟩
    · rw [List.filterMap_cons]
      cases localResult codes subscriber acc.callbacks key <;> rfl
    · unfold lastKeys
      rw [← List.filter_append]
      rfl

/-- The service's reply to the unsubscription of the keys that lose their last node. -/
def lastReplies (subscriber : σ) (answer : ℕ → Answer) (callbacks : Callbacks κ σ ω)
    (keys : List κ) : List (OperationResult κ) :=
  replies (sendRequests .unsubscribe (lastKeys subscriber callbacks keys) answer)

variable {keys : List κ} {answer : ℕ → Answer} {callbacks : Callbacks κ σ ω}

theorem mem_result_delKeys {r : OperationResult κ} :
    r ∈ (delKeys codes keys subscriber answer callbacks).result ↔
      (∃ key ∈ keys, localResult codes subscriber callbacks key = some r) ∨
        r ∈ lastReplies subscriber answer callbacks keys := by
  obtain ⟨hresult, hlast⟩ :
      (keys.foldl (delLocalObservers codes subscriber) ⟨callbacks, [], []⟩).result = _ ∧ _ :=
    foldl_delLocalObservers keys _
  have hdel : (delKeys codes keys subscriber answer callbacks).result =
      keys.filterMap (localResult codes subscriber callbacks) ++
        lastReplies subscriber answer callbacks keys := by
    unfold delKeys delLocal lastReplies
    dsimp only
    rw [hresult, hlast]
    rfl
  rw [hdel, List.mem_append, List.mem_filterMap]

omit [Std.TransOrd κ] in
theorem key_of_localResult {key : κ} {r : OperationResult κ}
    (h : localResult codes subscriber callbacks key = some r) : r.key = key := by
  unfold localResult at h
  split at h
  · rw [← Option.some_inj.mp h]
  · split at h
    · exact absurd h (by simp)
    · rw [← Option.some_inj.mp h]

omit [Ord κ] [Std.TransOrd κ] [DecidableEq σ] in
theorem key_mem_of_mem_replies {r : OperationResult κ} {kind : RequestKind} {keys : List κ}
    (h : r ∈ replies (sendRequests kind keys answer)) : r.key ∈ keys := by
  obtain ⟨sent, hsent, hr⟩ := List.mem_filterMap.mp h
  obtain ⟨i, hi, rfl⟩ := List.mem_mapIdx.mp hsent
  dsimp only at hr
  split at hr
  · rw [← Option.some_inj.mp hr]
    exact List.getElem_mem hi
  · exact absurd hr (by simp)

theorem nodesAt_delKeys : nodesAt (delKeys codes keys subscriber answer callbacks).callbacks k =
    if Mentions k keys then eraseSubscriber subscriber (nodesAt callbacks k)
    else nodesAt callbacks k :=
  nodesAt_delLocal

/-- A deletion takes all nodes of the subscriber from its keys. -/
theorem removes_delKeys :
    Removes subscriber callbacks (delKeys codes keys subscriber answer callbacks).callbacks k ↔
      Mentions k keys ∧ Owns subscriber (nodesAt callbacks k) := by
  unfold Removes Owns
  rw [nodesAt_delKeys]
  constructor
  · rintro ⟨node, hnode, hown, hgone⟩
    refine ⟨?_, node, hnode, hown⟩
    by_contra hk
    rw [if_neg hk] at hgone
    exact hgone hnode
  · rintro ⟨hk, node, hnode, hown⟩
    refine ⟨node, hnode, hown, ?_⟩
    rw [if_pos hk]
    simp [eraseSubscriber, hown]

/-- The result for a key that lost a node : the code of the call if other nodes remain, and the
answer of the service if it was the last one. -/
theorem succeeds_delKeys (hk : Mentions k keys) (hown : Owns subscriber (nodesAt callbacks k)) :
    Succeeds k (delKeys codes keys subscriber answer callbacks).result ↔
      if eraseSubscriber subscriber (nodesAt callbacks k) = [] then
        Succeeds k (lastReplies subscriber answer callbacks keys)
      else codes.remaining = errOk := by
  obtain ⟨node, hnode, -⟩ := hown
  have hfound {key : κ} (hkey : compare k key = .eq) :
      callbacks.find? key = some (nodesAt callbacks k) := by
    rw [← nodesAt_congr hkey]
    rw [← nodesAt_congr hkey] at hnode
    unfold nodesAt at hnode ⊢
    cases hfind : callbacks.find? key with
    | none => simp [hfind] at hnode
    | some nodes => rfl
  split
  · next hnil =>
    have hlocal {key : κ} (hkey : compare k key = .eq) :
        localResult codes subscriber callbacks key = none := by
      unfold localResult
      rw [hfound hkey]
      simp [hnil]
    have hmem {r : OperationResult κ} (hr : compare k r.key = .eq) :
        r ∈ (delKeys codes keys subscriber answer callbacks).result ↔
          r ∈ lastReplies subscriber answer callbacks keys := by
      rw [mem_result_delKeys]
      refine or_iff_right ?_
      rintro ⟨key, -, hsome⟩
      rw [key_of_localResult hsome] at hr
      exact absurd ((hlocal hr).symm.trans hsome) (by simp)
    unfold Succeeds
    grind
  · next hleft =>
    have hlocal {key : κ} (hkey : compare k key = .eq) :
        localResult codes subscriber callbacks key = some ⟨key, codes.remaining⟩ := by
      unfold localResult
      rw [hfound hkey]
      simp [hleft]
    have hmem {r : OperationResult κ} (hr : compare k r.key = .eq) :
        r ∈ (delKeys codes keys subscriber answer callbacks).result ↔
          r.key ∈ keys ∧ r.errCode = codes.remaining := by
      rw [mem_result_delKeys]
      constructor
      · rintro (⟨key, hkey, hsome⟩ | hlast)
        · obtain rfl := key_of_localResult hsome
          rw [hlocal hr] at hsome
          exact ⟨hkey, congrArg OperationResult.errCode (Option.some_inj.mp hsome).symm⟩
        · have hempty := List.of_mem_filter (key_mem_of_mem_replies hlast)
          rw [hfound hr] at hempty
          exact absurd (List.isEmpty_iff.mp hempty) hleft
      · rintro ⟨hkey, hcode⟩
        exact .inl ⟨r.key, hkey, (hlocal hr).trans (by rw [← hcode])⟩
    constructor
    · rintro ⟨⟨r, hr, hcmp⟩, hall⟩
      rw [← ((hmem hcmp).mp hr).2, hall r hr hcmp]
    · intro hok
      obtain ⟨key, hkey, hcmp⟩ := hk
      refine ⟨⟨⟨key, codes.remaining⟩, (hmem hcmp).mpr ⟨hkey, rfl⟩, hcmp⟩, fun r hr hcmp => ?_⟩
      rw [((hmem hcmp).mp hr).2, hok]

/-- An unsubscribe-all reports every key of the table, but for an empty entry the service does
not answer. -/
theorem owned_results_delAll :
    (∀ r ∈ (delKeys codes callbacks.keys subscriber answer callbacks).result,
      Owns subscriber (nodesAt callbacks r.key)) ↔
    ∀ key ∈ callbacks.keys, Owns subscriber (nodesAt callbacks key) ∨
      nodesAt callbacks key = [] ∧
        ∀ r ∈ lastReplies subscriber answer callbacks callbacks.keys, compare key r.key ≠ .eq := by
  have hself (k : κ) : compare k k = .eq := Std.ReflCmp.compare_self
  constructor
  · intro hall key hkey
    by_cases hown : Owns subscriber (nodesAt callbacks key)
    · exact .inl hown
    refine .inr ⟨?_, fun r hr hcmp => ?_⟩
    · obtain ⟨nodes, hfind⟩ := Option.isSome_iff_exists.mp
        (OrderedMap.isSome_find?_iff.mpr ⟨key, hkey, hself key⟩)
      have hleft : eraseSubscriber subscriber nodes = nodes := by
        refine List.filter_eq_self.mpr fun node hnode => ?_
        rw [nodesAt_of_find? hfind] at hown
        simpa using fun h => hown ⟨node, hnode, h⟩
      rw [nodesAt_of_find? hfind]
      by_contra hne
      have hlocal : localResult codes subscriber callbacks key = some ⟨key, codes.remaining⟩ := by
        unfold localResult
        rw [hfind]
        simp [hleft, hne]
      exact hown (hall _ (mem_result_delKeys.mpr (.inl ⟨key, hkey, hlocal⟩)))
    · have hr' := hall r (mem_result_delKeys.mpr (.inr hr))
      rw [nodesAt_congr hcmp] at hr'
      exact hown hr'
  · intro hall r hr
    rcases mem_result_delKeys.mp hr with ⟨key, hkey, hsome⟩ | hlast
    · obtain rfl := key_of_localResult hsome
      refine (hall r.key hkey).resolve_right fun h => ?_
      obtain ⟨nodes, hfind⟩ := Option.isSome_iff_exists.mp
        (OrderedMap.isSome_find?_iff.mpr ⟨r.key, hkey, hself r.key⟩)
      rw [nodesAt_of_find? hfind] at h
      unfold localResult at hsome
      rw [hfind, h.1] at hsome
      exact absurd hsome (by simp [eraseSubscriber])
    · have hkey := List.mem_of_mem_filter (key_mem_of_mem_replies hlast)
      exact (hall r.key hkey).resolve_right fun h => h.2 r hlast (hself r.key)

end Deletion

/-- The deletions report success for what they removed exactly if the code for a key with other
observers is the success code, where there is one, and the service accepts the other keys. An
unsubscribe-all reports only the subscriber's keys exactly if the table has no others. -/
theorem deletion_reports_iff (codes : DelCodes) (requested : Requested κ) (subscriber : σ)
    (answer : ℕ → Answer) (callbacks : Callbacks κ σ ω) :
    ((∀ k, Removes subscriber callbacks
        (deletion codes requested subscriber answer callbacks).callbacks k →
        Succeeds k (deletion codes requested subscriber answer callbacks).result) ∧
      (requested = .all → ∀ r ∈ (deletion codes requested subscriber answer callbacks).result,
        Owns subscriber (nodesAt callbacks r.key))) ↔
    (∀ k, Mentions k (requested.list callbacks) → Owns subscriber (nodesAt callbacks k) →
      if eraseSubscriber subscriber (nodesAt callbacks k) = [] then
        Succeeds k (lastReplies subscriber answer callbacks (requested.list callbacks))
      else codes.remaining = errOk) ∧
    (requested = .all → ∀ key ∈ callbacks.keys, Owns subscriber (nodesAt callbacks key) ∨
      nodesAt callbacks key = [] ∧
        ∀ r ∈ lastReplies subscriber answer callbacks callbacks.keys, compare key r.key ≠ .eq) := by
  refine and_congr (forall_congr' fun k => ?_) (forall_congr' fun hall => ?_)
  · unfold deletion
    rw [removes_delKeys, and_imp]
    exact forall_congr' fun hk => forall_congr' fun hown => succeeds_delKeys hk hown
  · subst hall
    exact owned_results_delAll

theorem deletion_reports_to_two_subscribers :
    Succeeds 0
      (deletion delCodes (.these [0]) 1 (fun _ => .replied errOk) twoSubscribers).result := by
  have hreports := deletion_reports_iff delCodes (.these [0]) 1 (fun _ => .replied errOk)
    twoSubscribers
  refine (hreports.mpr ⟨fun k hk hown => ?_, fun hall => absurd hall (by simp)⟩).1 0
    (removes_delKeys.mpr ⟨by decide +kernel, by decide +kernel⟩)
  obtain ⟨key, hkey, hcmp⟩ := hk
  rw [List.mem_singleton.mp hkey] at hcmp
  obtain rfl := Std.LawfulEqOrd.eq_of_compare hcmp
  rw [if_neg (by decide +kernel)]
  rfl

/-- Subscriber 1 leaves and is told `INNER_ERROR`. -/
theorem delProxyDataObservers_reports_error :
    ¬ ∀ (codes : DelCodes), codes = delCodes ∨ codes = delProxyDataCodes →
      ∀ (requested : Requested ℕ) (subscriber : ℕ) (answer : ℕ → Answer)
        (callbacks : Callbacks ℕ ℕ ℕ),
      (∀ k, Removes subscriber callbacks
        (deletion codes requested subscriber answer callbacks).callbacks k →
        Succeeds k (deletion codes requested subscriber answer callbacks).result) ∧
      (requested = .all → ∀ r ∈ (deletion codes requested subscriber answer callbacks).result,
        Owns subscriber (nodesAt callbacks r.key)) := by
  intro hall
  have hdel := (hall delProxyDataCodes (.inr rfl) (.these [0]) 1 (fun _ => .replied errOk)
    twoSubscribers).1 0 (removes_delKeys.mpr ⟨by decide +kernel, by decide +kernel⟩)
  exact absurd (hdel.2 ⟨0, innerError⟩ (by exact List.mem_singleton.mpr rfl) rfl) (by decide)

end CallbacksManager

end DataShare
