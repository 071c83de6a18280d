import DataShare.PublishedKeyProtocol

/-!
# Interleaved emits and enables of published data

When all calls on a key are over, an observer that is enabled, and was registered before the last
`Emit` began, was called with its item since (`got_last_item`). The item is owed to the observer from
where the emit collects : a callback with it is pending, or the observer is flagged and disabled, or its
enable is about to read the last change (`Owed`).

Two of the windows between the locks of `Emit` are left out by `Undisturbed`. An observer that is
disabled after the emit flags, and before it collects, is neither called nor flagged ; one that is
enabled after the emit collects, and reads before it stores, loses its flag for an older change, or
for none (`lost_in_windows`). An observer that has got the item is not called with it again when it
is disabled and enabled (`not_deliveredSinceDisable`).
-/

namespace DataShare

namespace Cpp

namespace PublishedDataSubscriberManager

open CallbacksManager (nodeToEnable nodeToEnable_eq_some)

variable {δ : Type}

/-! ## Delivery -/

/-- The observer is called with the item. -/
def Got (observer : ℕ) (data : PublishedDataItem δ) (callbacks : List (Callback δ)) : Prop :=
  ∃ callback ∈ callbacks, callback.1 = observer ∧ data ∈ callback.2.datas

instance [DecidableEq δ] (observer : ℕ) (data : PublishedDataItem δ) (callbacks : List (Callback δ)) :
    Decidable (Got observer data callbacks) :=
  inferInstanceAs (Decidable (∃ callback ∈ callbacks, _ ∧ _))

/-- No item is emitted in `events`. -/
def NoEmit (events : List (KeyEvent δ)) : Prop :=
  ∀ ownerBundleName data, .start (.emit ownerBundleName data) ∉ events

/-- The callbacks a call has settled on. -/
def Progress.pending : Progress δ → List (Callback δ)
  | .storing _ _ results => results
  | .calling left => left
  | _ => []

/-- The observer of the node was called with the item, will be, or missed it. An enable that started
after the first `since` calls reads the item, if its observer was flagged. -/
def Owed (since observer : ℕ) (data : PublishedDataItem δ) (node : ObserverNode ℕ ℕ)
    (threads : List (Progress δ)) (log : List (Callback δ)) : Prop :=
  Got observer data log ∨ (∃ thread ∈ threads, Got observer data thread.pending) ∨
    (∃ i, since ≤ i ∧ threads[i]? = some (.reading (some observer) true)) ∨
    node.enabled = false ∧ node.isNotifyOnEnabled = true

/-- The observer of the `i`-th node is called with the item in time. -/
structure OwedAt (since i observer : ℕ) (data : PublishedDataItem δ) (pool : KeyPool δ)
    (log : List (Callback δ)) : Prop where
  registered : i < pool.shared.nodes.length
  owed : ∀ node, pool.shared.nodes[i]? = some node → node.observer = some observer →
    Owed since observer data node pool.threads log

/-- An enable that started after the first `since` calls finds the change, if it missed one. -/
def ReadsLast (since observer : ℕ) (change : PublishedDataChangeNode δ) (pool : KeyPool δ) :
    KeyEvent δ → Prop
  | .start _ => True
  | .advance i => since ≤ i → pool.threads[i]? = some (.reading (some observer) true) →
    pool.shared.lastChangeNode = some change

instance [DecidableEq δ] (since observer : ℕ) (change : PublishedDataChangeNode δ) (pool : KeyPool δ) :
    ∀ event, Decidable (ReadsLast since observer change pool event)
  | .start _ => .isTrue trivial
  | .advance _ => inferInstanceAs (Decidable (_ → _ → _))

/-! ## Steps -/

section Steps

variable {since observer i : ℕ} {data : PublishedDataItem δ} {node : ObserverNode ℕ ℕ}
  {threads : List (Progress δ)} {log : List (Callback δ)} {pool : KeyPool δ} {state : KeyState δ}

theorem Got.append_left {callbacks : List (Callback δ)} (h : Got observer data callbacks)
    (more : List (Callback δ)) : Got observer data (callbacks ++ more) := by
  obtain ⟨callback, hmem, hgot⟩ := h
  exact ⟨callback, List.mem_append_left _ hmem, hgot⟩

theorem Got.append_right {callbacks : List (Callback δ)} (h : Got observer data callbacks)
    (before : List (Callback δ)) : Got observer data (before ++ callbacks) := by
  obtain ⟨callback, hmem, hgot⟩ := h
  exact ⟨callback, List.mem_append_right _ hmem, hgot⟩

/-- Every observer that an emit collects is called with the item. -/
theorem got_collected {observers : List ℕ} (h : observer ∈ observers) (ownerBundleName : StdString) :
    Got observer data (collected ownerBundleName data observers) := by
  obtain ⟨e, he, hobs, hdata⟩ :=
    (OrderedMap.exists_mem_entries_group id fun _ => data).mpr ⟨observer, h, rfl, rfl⟩
  exact ⟨(e.1, ⟨ownerBundleName, e.2⟩), List.mem_map.mpr ⟨e, he, rfl⟩, hobs, hdata⟩

theorem got_replay (ownerBundleName : StdString) : Got observer data
    (replay (some ⟨ownerBundleName, [data]⟩) (some observer) true) :=
  ⟨(observer, ⟨ownerBundleName, [data]⟩), List.mem_singleton_self _, rfl, List.mem_singleton_self _⟩

theorem Owed.more (h : Owed since observer data node threads log) (thread : Progress δ) :
    Owed since observer data node (threads ++ [thread]) log := by
  rcases h with h | ⟨other, hother, h⟩ | ⟨i, hi, h⟩ | h
  · exact .inl h
  · exact .inr (.inl ⟨other, List.mem_append_left _ hother, h⟩)
  · refine .inr (.inr (.inl ⟨i, hi, ?_⟩))
    rw [List.getElem?_append_left (List.getElem?_eq_some_iff.mp h).1, h]
  · exact .inr (.inr (.inr h))

/-- A callback is only dropped by making it. -/
theorem Got.nextStep (state : KeyState δ) {thread : Progress δ}
    (h : Got observer data thread.pending) :
    Got observer data (nextStep state thread).2.2 ∨
      Got observer data (nextStep state thread).2.1.pending := by
  obtain ⟨callback, hmem, hgot⟩ := h
  rcases thread with ⟨owner, item⟩ | ⟨owner, item, results⟩ | obs | ⟨obs, flag⟩ |
    ⟨_ | ⟨first, left⟩⟩
  · exact absurd hmem List.not_mem_nil
  · exact .inr ⟨callback, hmem, hgot⟩
  · exact absurd hmem List.not_mem_nil
  · exact absurd hmem List.not_mem_nil
  · exact absurd hmem List.not_mem_nil
  · rcases List.mem_cons.mp hmem with rfl | hleft
    · exact .inl ⟨callback, List.mem_cons_self, hgot⟩
    · exact .inr ⟨callback, hleft, hgot⟩

/-- The step of a call under way makes good what it owes. -/
theorem Owed.advance (ownerBundleName : StdString) {j : ℕ} {thread : Progress δ}
    (h : Owed since observer data node threads log) (hj : threads[j]? = some thread)
    (hreads : since ≤ j → thread = .reading (some observer) true →
      state.lastChangeNode = some ⟨ownerBundleName, [data]⟩) :
    Owed since observer data node
      (threads.set j (PublishedDataSubscriberManager.nextStep state thread).2.1)
      (log ++ (PublishedDataSubscriberManager.nextStep state thread).2.2) := by
  have hlt : j < threads.length := (List.getElem?_eq_some_iff.mp hj).1
  rcases h with h | ⟨other, hother, h⟩ | ⟨i, hi, h⟩ | h
  · exact .inl (h.append_left _)
  · rcases Protocol.mem_set_of_mem (PublishedDataSubscriberManager.nextStep state thread).2.1 hj
      hother with rfl | hstay
    · rcases h.nextStep state with hmade | hleft
      · exact .inl (hmade.append_right _)
      · exact .inr (.inl ⟨_, List.mem_set hlt _, hleft⟩)
    · exact .inr (.inl ⟨other, hstay, h⟩)
  · by_cases hij : j = i
    · subst hij
      obtain rfl := Option.some_inj.mp (hj.symm.trans h)
      refine .inr (.inl ⟨_, List.mem_set hlt _, ?_⟩)
      change Got observer data (replay state.lastChangeNode (some observer) true)
      rw [hreads hi rfl]
      exact got_replay ownerBundleName
    · exact .inr (.inr (.inl ⟨i, hi, (List.getElem?_set_ne hij).trans h⟩))
  · exact .inr (.inr (.inr h))

/-- Enabling a subscriber touches its first node only. -/
theorem getElem?_enableFirst (subscriber : ℕ) : ∀ {nodes : List (ObserverNode ℕ ℕ)} {i : ℕ}
    {node : ObserverNode ℕ ℕ}, nodes[i]? = some node →
      (enableFirst subscriber nodes)[i]? = some node ∨
        nodes.find? (fun node => node.subscriber = subscriber) = some node ∧
          (enableFirst subscriber nodes)[i]? = some { node with enabled := true }
  | first :: nodes, i, node, h => by
    unfold enableFirst
    by_cases hsub : first.subscriber = subscriber
    · rw [if_pos hsub, List.find?_cons_of_pos (by simpa using hsub)]
      rcases i with _ | i
      · obtain rfl := Option.some_inj.mp h
        exact .inr ⟨rfl, rfl⟩
      · exact .inl h
    · rw [if_neg hsub, List.find?_cons_of_neg (by simpa using hsub)]
      rcases i with _ | i
      · exact .inl h
      · exact getElem?_enableFirst subscriber (i := i) h

/-- What a call other than an emit does to a node : a disabled one it leaves as it is, or enables to
read the last change for it. -/
theorem getElem?_startCall {call : KeyCall δ} (hemit : ∀ owner item, call ≠ .emit owner item)
    (h : state.nodes[i]? = some node) :
    ∃ node', (startCall state call).1.nodes[i]? = some node' ∧ node'.observer = node.observer ∧
      (node.enabled = false → node' = node ∨
        (startCall state call).2 = .reading node.observer node.isNotifyOnEnabled) := by
  cases call with
  | emit owner item => exact absurd rfl (hemit owner item)
  | addObservers subscriber obs =>
    refine ⟨node, ?_, rfl, fun _ => .inl rfl⟩
    exact (List.getElem?_append_left (List.getElem?_eq_some_iff.mp h).1).trans h
  | disableObservers subscriber =>
    unfold startCall disableEnabled
    dsimp only
    split
    · have hmap : (disableSubscriber subscriber state.nodes)[i]? =
          some (if node.subscriber = subscriber ∧ node.enabled then
            { node with enabled := false, isNotifyOnEnabled := false } else node) := by
        rw [disableSubscriber, List.getElem?_map, h]
        rfl
      refine ⟨_, hmap, ?_, fun hdisabled => .inl ?_⟩
      · split <;> rfl
      · exact if_neg (by simp [hdisabled])
    · exact ⟨node, h, rfl, fun _ => .inl rfl⟩
  | enableObservers subscriber =>
    rcases hnode : nodeToEnable subscriber state.nodes with _ | first
    · rw [startCall_enable_of_none hnode]
      exact ⟨node, h, rfl, fun _ => .inl rfl⟩
    · rw [startCall_enable_of_some hnode]
      rcases getElem?_enableFirst subscriber h with hsame | ⟨hfirst, henabled⟩
      · exact ⟨node, hsame, rfl, fun _ => .inl rfl⟩
      · have heq := (nodeToEnable_eq_some.mp hnode).1
        obtain rfl := Option.some_inj.mp (heq.symm.trans hfirst)
        exact ⟨_, henabled, rfl, fun _ => .inr rfl⟩

/-- A call that starts, and is no emit, keeps what is owed. -/
theorem OwedAt.start {call : KeyCall δ} (h : OwedAt since i observer data pool log)
    (hsince : since ≤ pool.threads.length) (hemit : ∀ owner item, call ≠ .emit owner item) :
    OwedAt since i observer data (keyProtocol.step pool (.start call)).1 log := by
  rw [step_start]
  obtain ⟨old, hold⟩ : ∃ old, pool.shared.nodes[i]? = some old :=
    ⟨_, List.getElem?_eq_getElem h.registered⟩
  obtain ⟨node', hnode', hsame, hdisabled⟩ := getElem?_startCall hemit hold
  refine ⟨(List.getElem?_eq_some_iff.mp hnode').1, fun node hnode hobs => ?_⟩
  obtain rfl := Option.some_inj.mp (hnode'.symm.trans hnode)
  have hobs' : old.observer = some observer := hsame.symm.trans hobs
  rcases (h.owed old hold hobs').more (startCall pool.shared call).2 with
    hgot | hpending | hreading | ⟨hoff, hflag⟩
  · exact .inl hgot
  · exact .inr (.inl hpending)
  · exact .inr (.inr (.inl hreading))
  · rcases hdisabled hoff with rfl | henables
    · exact .inr (.inr (.inr ⟨hoff, hflag⟩))
    · rw [hobs', hflag] at henables
      refine .inr (.inr (.inl ⟨pool.threads.length, hsince, ?_⟩))
      rw [henables, List.getElem?_concat_length]

theorem OwedAt.step {ownerBundleName : StdString} {event : KeyEvent δ}
    (h : OwedAt since i observer data pool log) (hsince : since ≤ pool.threads.length)
    (hemit : ∀ owner item, event ≠ .start (.emit owner item))
    (hreads : ReadsLast since observer ⟨ownerBundleName, [data]⟩ pool event) :
    OwedAt since i observer data (keyProtocol.step pool event).1
      (log ++ (keyProtocol.step pool event).2) := by
  rcases event with call | j
  · have hstart := h.start hsince fun owner item heq => hemit owner item (congrArg _ heq)
    rwa [step_start, List.append_nil] at *
  · rcases hj : pool.threads[j]? with _ | thread
    · rw [Protocol.step_advance_of_none hj, List.append_nil]
      exact h
    · rw [step_advance hj]
      have hnodes := nodes_nextStep pool.shared thread
      refine ⟨hnodes ▸ h.registered, fun node hnode hobs => ?_⟩
      refine (h.owed node (hnodes ▸ hnode) hobs).advance ownerBundleName hj ?_
      exact fun hle heq => hreads hle (heq ▸ hj)

theorem threads_step (pool : KeyPool δ) (event : KeyEvent δ) :
    pool.threads.length ≤ (keyProtocol.step pool event).1.threads.length := by
  rcases event with call | j
  · rw [step_start, List.length_append]
    exact Nat.le_add_right _ _
  · rcases hj : pool.threads[j]? with _ | thread
    · rw [Protocol.step_advance_of_none hj]
    · rw [step_advance hj, List.length_set]

/-- No call removes a node. -/
theorem registered_step (h : i < pool.shared.nodes.length) (event : KeyEvent δ) :
    i < (keyProtocol.step pool event).1.shared.nodes.length := by
  rcases event with call | j
  · rw [step_start]
    by_cases hemit : ∃ owner item, call = .emit owner item
    · obtain ⟨owner, item, rfl⟩ := hemit
      exact (List.length_map _).symm ▸ h
    · have hnot : ∀ owner item, call ≠ .emit owner item :=
        fun owner item heq => hemit ⟨owner, item, heq⟩
      obtain ⟨node', hnode', -⟩ := getElem?_startCall hnot (List.getElem?_eq_getElem h)
      exact (List.getElem?_eq_some_iff.mp hnode').1
  · rcases hj : pool.threads[j]? with _ | thread
    · rwa [Protocol.step_advance_of_none hj]
    · rwa [step_advance hj, nodes_nextStep]

/-- An emit that collects owes its item to every observer it finds enabled or flagged. -/
theorem owedAt_collect (since observer : ℕ) {ownerBundleName : StdString} {j : ℕ}
    (hj : pool.threads[j]? = some (.collecting ownerBundleName data))
    (hi : i < pool.shared.nodes.length)
    (hfound : ∀ node ∈ pool.shared.nodes[i]?, node.enabled = true ∨ node.isNotifyOnEnabled = true) :
    OwedAt since i observer data (keyProtocol.step pool (.advance j)).1 [] := by
  rw [step_advance hj]
  refine ⟨hi, fun node hnode hobs => ?_⟩
  have hlt : j < pool.threads.length := (List.getElem?_eq_some_iff.mp hj).1
  cases henabled : node.enabled with
  | false => exact .inr (.inr (.inr ⟨henabled, (hfound node hnode).resolve_left (by simp [henabled])⟩))
  | true =>
    have hmem : observer ∈ enabledObservers pool.shared.nodes := by
      refine List.mem_filterMap.mpr ⟨node, List.mem_of_getElem? hnode, ?_⟩
      rw [if_pos henabled, hobs]
    exact .inr (.inl ⟨_, List.mem_set hlt _, got_collected hmem ownerBundleName⟩)

end Steps

/-! ## Runs -/

section Runs

variable {state : KeyState δ} {before after : List (KeyEvent δ)} {ownerBundleName : StdString}
  {data : PublishedDataItem δ} {i observer : ℕ} {node : ObserverNode ℕ ℕ}

/-- The number of the call that starts next. -/
def nextCall (state : KeyState δ) (before : List (KeyEvent δ)) : ℕ :=
  (poolAfter state before).threads.length

/-- The two windows of an emit. At its second step it finds the `i`-th node enabled or flagged, and the
enables that start later find its change, if their observer was flagged. -/
structure Undisturbed (state : KeyState δ) (before after : List (KeyEvent δ))
    (ownerBundleName : StdString) (data : PublishedDataItem δ) (i observer : ℕ) : Prop where
  found : ∀ mid rest, after = mid ++ (.advance (nextCall state before) : KeyEvent δ) :: rest →
    (.advance (nextCall state before) : KeyEvent δ) ∉ mid →
      ∀ node ∈ (poolAfter state (before ++
        (.start (.emit ownerBundleName data) : KeyEvent δ) :: mid)).shared.nodes[i]?,
        node.enabled = true ∨ node.isNotifyOnEnabled = true
  read : ∀ mid rest, after = mid ++ (.advance (nextCall state before) : KeyEvent δ) :: rest →
    (.advance (nextCall state before) : KeyEvent δ) ∉ mid →
      AllowedRun keyProtocol.step
        (ReadsLast (nextCall state (before ++
          (.start (.emit ownerBundleName data) : KeyEvent δ) :: mid)) observer
          ⟨ownerBundleName, [data]⟩)
        (poolAfter state (before ++ (.start (.emit ownerBundleName data) : KeyEvent δ) :: (mid ++
          ([.advance (nextCall state before)] : List (KeyEvent δ))))) rest

theorem poolAfter_append (events : List (KeyEvent δ)) : poolAfter state (before ++ events) =
    (keyProtocol.run (poolAfter state before) events).1 :=
  runCalls_append_fst _ _ _ _

theorem registered_run {pool : KeyPool δ} (h : i < pool.shared.nodes.length)
    (events : List (KeyEvent δ)) : i < (keyProtocol.run pool events).1.shared.nodes.length := by
  induction events using List.reverseRecOn with
  | nil => exact h
  | append_singleton events event ih =>
    unfold Protocol.run at ih ⊢
    rw [runCalls_concat]
    exact registered_step ih event

/-- The run goes on after its first events. -/
theorem callbacksOf_append (first rest : List (KeyEvent δ)) :
    callbacksOf state before (first ++ rest) =
      callbacksOf state before first ++ (keyProtocol.run (poolAfter state (before ++ first)) rest).2 := by
  rw [poolAfter_append]
  exact congrArg Prod.snd (runCalls_append _ _ first rest)

/-- Until its second step an emit is about to collect. -/
theorem collecting_after (ownerBundleName : StdString) (data : PublishedDataItem δ)
    {mid : List (KeyEvent δ)} (h : .advance (nextCall state before) ∉ mid) :
    (poolAfter state (before ++ .start (.emit ownerBundleName data) :: mid)).threads[
      nextCall state before]? = some (.collecting ownerBundleName data) := by
  rw [List.append_cons, poolAfter_append]
  refine Protocol.getElem?_run_of_not_advanced ?_ h
  rw [poolAfter_append]
  exact List.getElem?_concat_length

/-- What is owed stays owed to the end. -/
theorem OwedAt.run {since : ℕ} {pool : KeyPool δ} {rest : List (KeyEvent δ)}
    (h : OwedAt since i observer data pool []) (hsince : since ≤ pool.threads.length)
    (hlast : NoEmit rest) (hreads : AllowedRun keyProtocol.step
      (ReadsLast since observer ⟨ownerBundleName, [data]⟩) pool rest) :
    OwedAt since i observer data (keyProtocol.run pool rest).1 (keyProtocol.run pool rest).2 := by
  have hallowed : AllowedRun keyProtocol.step (fun pool event =>
      (∀ owner item, event ≠ .start (.emit owner item)) ∧
        ReadsLast since observer ⟨ownerBundleName, [data]⟩ pool event) pool rest :=
    fun early event late heq => ⟨fun owner item hevent => hlast owner item (by simp [heq, hevent]),
      hreads early event late heq⟩
  have hkept := hallowed.invariant
    (P := fun pool log => since ≤ pool.threads.length ∧ OwedAt since i observer data pool log)
    ⟨hsince, h⟩ fun pool log event hevent hpool =>
      ⟨hpool.1.trans (threads_step pool event), hpool.2.step hpool.1 hevent.1 hevent.2⟩
  exact hkept.2

/-- At the end, what is owed to an enabled observer was delivered. -/
theorem OwedAt.got {since : ℕ} {pool : KeyPool δ} {log : List (Callback δ)}
    (h : OwedAt since i observer data pool log) (hfinished : Finished pool)
    (hnode : pool.shared.nodes[i]? = some node) (hobserver : node.observer = some observer)
    (henabled : node.enabled = true) : Got observer data log := by
  rcases h.owed node hnode hobserver with hgot | ⟨thread, hthread, hpending⟩ | ⟨j, -, hj⟩ | hmissed
  · exact hgot
  · rw [hfinished thread hthread] at hpending
    obtain ⟨callback, hmem, -⟩ := hpending
    exact absurd hmem List.not_mem_nil
  · exact absurd (hfinished _ (List.mem_of_getElem? hj)) (by simp)
  · rw [hmissed.1] at henabled
    exact absurd henabled Bool.false_ne_true

/-- An observer that is enabled when all calls are over, and was registered before the last emit, was
called with its item since. -/
theorem got_last_item (hlast : NoEmit after)
    (hfinished : Finished (poolAfter state (before ++ .start (.emit ownerBundleName data) :: after)))
    (hregistered : i < (poolAfter state before).shared.nodes.length)
    (hundisturbed : Undisturbed state before after ownerBundleName data i observer)
    (hnode : (poolAfter state (before ++ .start (.emit ownerBundleName data) :: after)).shared.nodes[i]? =
      some node) (hobserver : node.observer = some observer) (henabled : node.enabled = true) :
    Got observer data (callbacksOf state before (.start (.emit ownerBundleName data) :: after)) := by
  have hadvances : .advance (nextCall state before) ∈ after := by
    by_contra hnot
    have hthread := collecting_after ownerBundleName data hnot
    exact absurd (hfinished _ (List.mem_of_getElem? hthread)) (by simp)
  obtain ⟨mid, rest, rfl, hmid⟩ := List.eq_append_cons_of_mem hadvances
  have hcollecting := collecting_after ownerBundleName data hmid
  have hfound := hundisturbed.found mid rest rfl hmid
  have hreads := hundisturbed.read mid rest rfl hmid
  have hstill : i <
      (poolAfter state (before ++ .start (.emit ownerBundleName data) :: mid)).shared.nodes.length := by
    rw [poolAfter_append]
    exact registered_run hregistered _
  have howed := owedAt_collect (nextCall state (before ++ .start (.emit ownerBundleName data) :: mid))
    observer hcollecting hstill hfound
  -- The run is cut after the step in which the emit collects.
  have hcollect : poolAfter state (before ++ .start (.emit ownerBundleName data) ::
      (mid ++ [.advance (nextCall state before)])) = (keyProtocol.step
        (poolAfter state (before ++ .start (.emit ownerBundleName data) :: mid))
          (.advance (nextCall state before))).1 := by
    rw [← List.cons_append, ← List.append_assoc, poolAfter_append]
    rfl
  have hcut : (.start (.emit ownerBundleName data) :: (mid ++ .advance (nextCall state before) :: rest) :
      List (KeyEvent δ)) = (.start (.emit ownerBundleName data) ::
        (mid ++ [.advance (nextCall state before)])) ++ rest := by
    simp
  rw [← hcollect] at howed
  have hsince : nextCall state (before ++ .start (.emit ownerBundleName data) :: mid) ≤
      (poolAfter state (before ++ .start (.emit ownerBundleName data) ::
        (mid ++ [.advance (nextCall state before)]))).threads.length := by
    rw [hcollect]
    exact threads_step _ _
  have hend := howed.run hsince (fun owner item hmem => hlast owner item (by simp [hmem])) hreads
  rw [hcut, ← List.append_assoc, poolAfter_append] at hfinished hnode
  rw [hcut, callbacksOf_append]
  exact (hend.got hfinished hnode hobserver henabled).append_right _

end Runs

/-! ## Runs of one observer -/

def noObservers : KeyState ℕ :=
  ⟨[], none⟩

def someItem : PublishedDataItem ℕ :=
  ⟨[117], 1, 7⟩

/-- An observer is registered and disabled. -/
def disabledObserver : List (KeyEvent ℕ) :=
  [.start (.addObservers 1 10), .start (.disableObservers 1)]

/-- It misses an item, and is enabled again. -/
def enabledAgain : List (KeyEvent ℕ) :=
  [.advance 2, .advance 2, .start (.enableObservers 1), .advance 3, .advance 3]

/-- The observer that missed an item is called with it when it is enabled. -/
theorem got_missed_item : Got 10 someItem
    (callbacksOf noObservers disabledObserver (.start (.emit [98] someItem) :: enabledAgain)) := by
  have hsplit : ∀ mid rest, enabledAgain = mid ++ (.advance 2 : KeyEvent ℕ) :: rest →
      .advance 2 ∉ mid → mid = [] ∧
        rest = [.advance 2, .start (.enableObservers 1), .advance 3, .advance 3] := by
    rintro (_ | ⟨event, mid⟩) rest heq hmid
    · exact ⟨rfl, (List.cons_inj_right _).mp heq.symm⟩
    · obtain ⟨rfl, -⟩ := List.cons.inj heq
      exact absurd List.mem_cons_self hmid
  have hnode : (poolAfter noObservers (disabledObserver ++ .start (.emit [98] someItem) ::
      enabledAgain)).shared.nodes[0]? = some ⟨some 10, true, 1, true⟩ := rfl
  refine got_last_item ?_ (by decide +kernel) (by decide +kernel) ⟨?_, ?_⟩ hnode rfl rfl
  · simp [NoEmit, enabledAgain]
  · intro mid rest heq hmid
    obtain ⟨rfl, -⟩ := hsplit mid rest heq hmid
    decide +kernel
  · intro mid rest heq hmid
    obtain ⟨rfl, rfl⟩ := hsplit mid rest heq hmid
    exact throughout_iff_getElem.mpr (by decide +kernel)

/-- `late` starts with the last disable of the subscriber, or with the run if there is none. -/
def FromLastDisable (subscriber : ℕ) (early late : List (KeyEvent δ)) : Prop :=
  (∃ rest, late = .start (.disableObservers subscriber) :: rest ∧
    .start (.disableObservers subscriber) ∉ rest) ∨
    early = [] ∧ .start (.disableObservers subscriber) ∉ late

/-- When all calls are over, every observer that is enabled and was registered before the last emit has
been called with its item since its last disable. -/
def DeliveredSinceDisable (state : KeyState δ) (events : List (KeyEvent δ)) : Prop :=
  ∀ before ownerBundleName data after, events = before ++ .start (.emit ownerBundleName data) :: after →
    NoEmit after → Finished (poolAfter state events) →
    ∀ i < (poolAfter state before).shared.nodes.length,
    ∀ node, (poolAfter state events).shared.nodes[i]? = some node → node.enabled = true →
    ∀ observer, node.observer = some observer →
    ∀ early late, events = early ++ late → FromLastDisable node.subscriber early late →
      Got observer data (callbacksOf state early late)

/-- An observer is called with an item, and disabled and enabled after that. -/
def calledThenDisabled : List (KeyEvent ℕ) :=
  [.start (.addObservers 1 10), .start (.emit [98] someItem), .advance 1, .advance 1, .advance 1,
    .start (.disableObservers 1), .start (.enableObservers 1), .advance 3]

/-- It has missed nothing, and is not called again. -/
theorem not_deliveredSinceDisable : ¬ DeliveredSinceDisable noObservers calledThenDisabled := by
  intro h
  have hgot := h [.start (.addObservers 1 10)] [98] someItem _ rfl (by simp [NoEmit])
    (by decide +kernel) 0 (by decide +kernel) ⟨some 10, true, 1, false⟩ rfl rfl 10 rfl
    [.start (.addObservers 1 10), .start (.emit [98] someItem), .advance 1, .advance 1, .advance 1]
    _ rfl (.inl ⟨_, rfl, by decide⟩)
  exact absurd hgot (by decide +kernel)

/-- The observer is enabled after the emit collects, and reads before it stores. -/
def enabledTooEarly : List (KeyEvent ℕ) :=
  disabledObserver ++ ([.start (.emit [98] someItem), .advance 2, .start (.enableObservers 1),
    .advance 3, .advance 2] : List (KeyEvent ℕ))

/-- The observer is disabled after the emit flags, and before it collects. -/
def disabledBetween : List (KeyEvent ℕ) :=
  [.start (.addObservers 1 10), .start (.emit [98] someItem), .start (.disableObservers 1), .advance 1,
    .advance 1, .start (.enableObservers 1), .advance 3]

/-- In either window the observer ends up enabled, and is never called. -/
theorem lost_in_windows : ∀ events ∈ [enabledTooEarly, disabledBetween],
    (poolAfter noObservers events).shared.nodes.map ObserverNode.enabled = [true] ∧
      Finished (poolAfter noObservers events) ∧ callbacksOf noObservers [] events = [] := by
  decide +kernel

end PublishedDataSubscriberManager

end Cpp

end DataShare
