import DataShare.RdbEmission
import DataShare.Threads

/-!
# Interleaved emits and enables

The calls of `RdbSubscriberManager` as the sequences of the steps they make under one lock, for one
key. `emit` flags the entries, then stores its node, then makes its callbacks one by one ;
`enable_observers` enables and chooses the replays in one step, then makes them ;
`add_observers` pushes its entry, then replays the stored node ; `disable_observers` is one step.
Each of them alone is the sequential call (`emit_alone`, `enableObservers_turn`,
`disableObservers_turn`).

An update stays due to an entry while its callback is pending or the entry is disabled and flagged
(`Owed`). The steps keep this unless an enable reads something else than the node of the
last change, so at the end every enabled entry has been called with it (`called_with_last`).
`lost_between_flag_and_store` is the window of `emit` in which an enable does so.
-/

namespace DataShare

namespace Rust

namespace RdbSubscriberManager

variable {ω ν : Type}

/-! ## Steps -/

/-- The entries of the key and its cached node. -/
structure KeyState (ω ν : Type) where
  entries : List (SubscriberEntry ω)
  lastChangeNode : Option ν

inductive KeyCall (ω ν : Type) where
  | addObservers (subscriber : ℕ) (observer : ω)
  | emit (node : ν)
  | enableObservers (subscriber : ℕ)
  | disableObservers (subscriber : ℕ)
  deriving DecidableEq

/-- Where a call is : an emit about to store its node, a registration about to read it, or a call
with callbacks left to make. -/
inductive Progress (ω ν : Type) where
  | storing (node : ν) (toFire : List ω)
  | joining (observer : ω)
  | calling (left : List (ω × ν))
  deriving DecidableEq

def toFire (entries : List (SubscriberEntry ω)) : List ω :=
  (entries.filter SubscriberEntry.enabled).map SubscriberEntry.observer

/-- `enable_observers` under its two locks : the entries after it and the replays it chose. -/
def enableTurn (subscriber : ℕ) (state : KeyState ω ν) :
    List (SubscriberEntry ω) × List (ω × ν) :=
  if state.entries.any fun e => e.subscriber = subscriber ∧ e.enabled then (state.entries, [])
  else
    (enableEntries subscriber state.entries,
      (state.entries.filter fun e =>
        e.subscriber = subscriber ∧ e.enabled = false ∧ e.isNotifyOnEnabled).filterMap fun e =>
          state.lastChangeNode.map fun node => (e.observer, node))

/-- The first step of a call. -/
def startCall (state : KeyState ω ν) : KeyCall ω ν → KeyState ω ν × Progress ω ν
  | .addObservers subscriber observer =>
    ({ state with entries := state.entries ++ [⟨subscriber, observer, true, false⟩] },
      if anyEnabled state.entries then .joining observer else .calling [])
  | .emit node =>
    if state.entries.isEmpty then (state, .calling [])
    else
      ({ state with entries := notifyEntries state.entries }, .storing node (toFire state.entries))
  | .enableObservers subscriber =>
    let turn := enableTurn subscriber state
    ({ state with entries := turn.1 }, .calling turn.2)
  | .disableObservers subscriber =>
    ({ state with entries := disableEntries subscriber state.entries }, .calling [])

/-- The next step of a call, with the callbacks it makes. -/
def nextStep (state : KeyState ω ν) :
    Progress ω ν → KeyState ω ν × Progress ω ν × List (ω × ν)
  | .storing node toFire =>
    ({ state with lastChangeNode := some node }, .calling (toFire.map fun o => (o, node)), [])
  | .joining observer =>
    (state, .calling [], (state.lastChangeNode.map fun node => (observer, node)).toList)
  | .calling [] => (state, .calling [], [])
  | .calling (callback :: left) => (state, .calling left, [callback])

/-- The calls of a key, interleaved step by step. -/
def keyProtocol : Protocol (KeyState ω ν) (Progress ω ν) (KeyCall ω ν) (ω × ν) :=
  ⟨startCall, nextStep⟩

/-- The callbacks a call has settled on, with their node. -/
def Progress.pending : Progress ω ν → List (ω × ν)
  | .storing node toFire => toFire.map fun o => (o, node)
  | .joining _ => []
  | .calling left => left

/-- Every call has made its last step. -/
def Finished (pool : Pool (KeyState ω ν) (Progress ω ν)) : Prop :=
  ∀ thread ∈ pool.threads, thread = .calling []

/-! ## No lost update -/

/-- The entry has been called with the node, will be, or is disabled and flagged. -/
def Owed (node : ν) (entry : SubscriberEntry ω) (threads : List (Progress ω ν))
    (log : List (ω × ν)) : Prop :=
  (entry.observer, node) ∈ log ∨ (∃ thread ∈ threads, (entry.observer, node) ∈ thread.pending) ∨
    entry.enabled = false ∧ entry.isNotifyOnEnabled = true

/-- The first `count` entries are called with the node in time. -/
structure OwedTo (node : ν) (count : ℕ) (pool : Pool (KeyState ω ν) (Progress ω ν))
    (log : List (ω × ν)) : Prop where
  registered : count ≤ pool.shared.entries.length
  owed : ∀ i < count, ∀ entry, pool.shared.entries[i]? = some entry →
    Owed node entry pool.threads log

/-- An enable finds the node in the cache. -/
def StoredAtEnable (node : ν) (pool : Pool (KeyState ω ν) (Progress ω ν))
    (event : ThreadEvent (KeyCall ω ν)) : Prop :=
  ∀ subscriber, event = .start (.enableObservers subscriber) →
    pool.shared.lastChangeNode = some node

variable {node : ν} {count : ℕ} {pool : Pool (KeyState ω ν) (Progress ω ν)} {log : List (ω × ν)}
  {entry : SubscriberEntry ω} {threads : List (Progress ω ν)}

theorem Owed.more (h : Owed node entry threads log) (more : List (Progress ω ν))
    (messages : List (ω × ν)) : Owed node entry (threads ++ more) (log ++ messages) := by
  rcases h with h | ⟨thread, hthread, h⟩ | h
  · exact .inl (List.mem_append_left _ h)
  · exact .inr (.inl ⟨thread, List.mem_append_left _ hthread, h⟩)
  · exact .inr (.inr h)

/-- What is owed to an entry is owed to what a call makes of it, if it is where the entry missed
the change. -/
theorem Owed.keep {old : SubscriberEntry ω} (h : Owed node old threads log)
    (hobserver : entry.observer = old.observer)
    (hmissed : old.enabled = false → old.isNotifyOnEnabled = true → Owed node entry threads log) :
    Owed node entry threads log := by
  rcases h with h | h | ⟨hdisabled, hflag⟩
  · exact .inl (hobserver ▸ h)
  · exact .inr (.inl (hobserver ▸ h))
  · exact hmissed hdisabled hflag

/-- A step leaves the entries as they are, and a callback is only dropped by making it. -/
theorem entries_nextStep (state : KeyState ω ν) (thread : Progress ω ν) :
    (nextStep state thread).1.entries = state.entries := by
  rcases thread with ⟨node, fire⟩ | ⟨observer⟩ | ⟨_ | ⟨callback, left⟩⟩ <;> rfl

theorem pending_nextStep (state : KeyState ω ν) {thread : Progress ω ν} {callback : ω × ν}
    (h : callback ∈ thread.pending) : callback ∈ (nextStep state thread).2.2 ∨
      callback ∈ (nextStep state thread).2.1.pending := by
  rcases thread with ⟨node, fire⟩ | ⟨observer⟩ | ⟨_ | ⟨first, left⟩⟩
  · exact .inr h
  · exact absurd h List.not_mem_nil
  · exact absurd h List.not_mem_nil
  · rcases List.mem_cons.mp h with rfl | h
    · exact .inl List.mem_cons_self
    · exact .inr h

/-- The step of a call under way makes good what it owes. -/
theorem Owed.advance {state : KeyState ω ν} {i : ℕ} {thread : Progress ω ν}
    (h : Owed node entry threads log) (hi : threads[i]? = some thread) :
    Owed node entry (threads.set i (nextStep state thread).2.1)
      (log ++ (nextStep state thread).2.2) := by
  rcases h with h | ⟨other, hother, h⟩ | h
  · exact .inl (List.mem_append_left _ h)
  · rcases Protocol.mem_set_of_mem (nextStep state thread).2.1 hi hother with rfl | hstay
    · rcases pending_nextStep state h with hmade | hleft
      · exact .inl (List.mem_append_right _ hmade)
      · have hlt : i < threads.length := (List.getElem?_eq_some_iff.mp hi).1
        exact .inr (.inl ⟨_, List.mem_set hlt _, hleft⟩)
    · exact .inr (.inl ⟨other, hstay, h⟩)
  · exact .inr (.inr h)

/-- An enable settles on a callback with the cached node for each entry it lifts the flag of. -/
theorem mem_enableTurn {subscriber : ℕ} {state : KeyState ω ν}
    (hnode : state.lastChangeNode = some node) (hentry : entry ∈ state.entries)
    (hsub : entry.subscriber = subscriber) (hflag : entry.enabled = false ∧ entry.isNotifyOnEnabled)
    (hnone : ¬ state.entries.any fun e => e.subscriber = subscriber ∧ e.enabled) :
    (entry.observer, node) ∈ (enableTurn subscriber state).2 := by
  unfold enableTurn
  rw [if_neg hnone, hnode]
  refine List.mem_filterMap.mpr ⟨entry, List.mem_filter.mpr ⟨hentry, ?_⟩, rfl⟩
  simpa using ⟨hsub, hflag⟩

/-- A change is owed to every entry it finds. -/
theorem owedTo_emit (hcount : pool.shared.entries.length = count) :
    OwedTo node count (keyProtocol.step pool (.start (.emit node))).1 [] := by
  have hstep : (keyProtocol.step pool (.start (.emit node))).1 =
      ⟨(startCall pool.shared (.emit node)).1,
        pool.threads ++ [(startCall pool.shared (.emit node)).2]⟩ := rfl
  rw [hstep]
  by_cases hempty : pool.shared.entries = []
  · rw [hempty, List.length_nil] at hcount
    subst hcount
    exact ⟨Nat.zero_le _, fun i hi => absurd hi (Nat.not_lt_zero i)⟩
  · have hstart : startCall pool.shared (.emit node) =
        ({ pool.shared with entries := notifyEntries pool.shared.entries },
          .storing node (toFire pool.shared.entries)) := by
      exact if_neg (by simpa using hempty)
    rw [hstart]
    refine ⟨by simp [notifyEntries, hcount], fun i hi entry hentry => ?_⟩
    obtain ⟨old, hold, rfl⟩ : ∃ old, pool.shared.entries[i]? = some old ∧
        ({ old with isNotifyOnEnabled := !old.enabled } : SubscriberEntry ω) = entry := by
      simpa [notifyEntries] using hentry
    cases henabled : old.enabled with
    | false => exact .inr (.inr ⟨rfl, rfl⟩)
    | true =>
      refine .inr (.inl ⟨_, List.mem_append_right _ List.mem_cons_self, ?_⟩)
      refine List.mem_map.mpr ⟨old.observer, List.mem_map.mpr ⟨old, ?_, rfl⟩, rfl⟩
      exact List.mem_filter.mpr ⟨List.mem_of_getElem? hold, henabled⟩

/-- A call other than a change keeps what is owed, an enable if it finds the node in the cache. -/
theorem OwedTo.start {call : KeyCall ω ν} (h : OwedTo node count pool log)
    (hemit : ∀ other, call ≠ .emit other)
    (hstored : StoredAtEnable node pool (.start call)) :
    OwedTo node count ⟨(startCall pool.shared call).1,
      pool.threads ++ [(startCall pool.shared call).2]⟩ log := by
  have hmore {entry : SubscriberEntry ω} (thread : Progress ω ν)
      (howed : Owed node entry pool.threads log) :
      Owed node entry (pool.threads ++ [thread]) log := by
    simpa using howed.more [thread] []
  cases call with
  | emit other => exact absurd rfl (hemit other)
  | addObservers subscriber observer =>
    refine ⟨?_, fun i hi entry hentry => hmore _ (h.owed i hi entry ?_)⟩
    · simpa [startCall] using Nat.le_succ_of_le h.registered
    · have hi' : i < pool.shared.entries.length := Nat.lt_of_lt_of_le hi h.registered
      simpa [startCall, List.getElem?_append_left hi'] using hentry
  | disableObservers subscriber =>
    refine ⟨by simpa [startCall, disableEntries] using h.registered, fun i hi entry hentry => ?_⟩
    obtain ⟨old, hold, rfl⟩ : ∃ old, pool.shared.entries[i]? = some old ∧
        (if old.subscriber = subscriber ∧ old.enabled then
          { old with enabled := false, isNotifyOnEnabled := false } else old) = entry := by
      simpa [startCall, disableEntries] using hentry
    refine (hmore _ (h.owed i hi old hold)).keep (by split <;> rfl) fun hdisabled hflag => ?_
    rw [if_neg (by simp [hdisabled])]
    exact .inr (.inr ⟨hdisabled, hflag⟩)
  | enableObservers subscriber =>
    by_cases hany : pool.shared.entries.any fun e => e.subscriber = subscriber ∧ e.enabled
    · have hturn : enableTurn subscriber pool.shared = (pool.shared.entries, []) := if_pos hany
      simp only [startCall, hturn]
      exact ⟨h.registered, fun i hi entry hentry => hmore _ (h.owed i hi entry hentry)⟩
    · have hturn : (enableTurn subscriber pool.shared).1 =
          enableEntries subscriber pool.shared.entries := by
        unfold enableTurn
        rw [if_neg hany]
      simp only [startCall, hturn]
      refine ⟨by simpa [enableEntries] using h.registered, fun i hi entry hentry => ?_⟩
      obtain ⟨old, hold, rfl⟩ : ∃ old, pool.shared.entries[i]? = some old ∧
          (if old.subscriber = subscriber ∧ old.enabled = false then
            { old with enabled := true, isNotifyOnEnabled := false } else old) = entry := by
        simpa [enableEntries] using hentry
      refine (hmore _ (h.owed i hi old hold)).keep (by split <;> rfl) fun hdisabled hflag => ?_
      by_cases hsub : old.subscriber = subscriber
      · rw [if_pos ⟨hsub, hdisabled⟩]
        have hreplay : (old.observer, node) ∈ (enableTurn subscriber pool.shared).2 :=
          mem_enableTurn (hstored subscriber rfl) (List.mem_of_getElem? hold) hsub
            ⟨hdisabled, hflag⟩ hany
        exact .inr (.inl ⟨_, List.mem_append_right _ List.mem_cons_self, hreplay⟩)
      · rw [if_neg (by simp [hsub])]
        exact .inr (.inr ⟨hdisabled, hflag⟩)

theorem OwedTo.step {event : ThreadEvent (KeyCall ω ν)} (h : OwedTo node count pool log)
    (hemit : ∀ other, event ≠ .start (.emit other)) (hstored : StoredAtEnable node pool event) :
    OwedTo node count (keyProtocol.step pool event).1
      (log ++ (keyProtocol.step pool event).2) := by
  rcases event with call | i
  · have hstart := h.start (fun other heq => hemit other (by rw [heq])) hstored
    simpa [Protocol.step, keyProtocol] using hstart
  · cases hi : pool.threads[i]? with
    | none => simpa [Protocol.step_advance_of_none hi] using h
    | some thread =>
      rw [Protocol.step_advance_of_some hi]
      have hentries := entries_nextStep pool.shared thread
      refine ⟨hentries ▸ h.registered, fun j hj entry hentry => ?_⟩
      exact (h.owed j hj entry (hentries ▸ hentry)).advance hi

/-! ## Runs -/

/-- The key after `events`, from a state without calls under way. -/
def poolAfter (state : KeyState ω ν) (events : List (ThreadEvent (KeyCall ω ν))) :
    Pool (KeyState ω ν) (Progress ω ν) :=
  (keyProtocol.run ⟨state, []⟩ events).1

/-- The callbacks of `events`, made after `before`. -/
def callbacksOf (state : KeyState ω ν) (before events : List (ThreadEvent (KeyCall ω ν))) :
    List (ω × ν) :=
  (keyProtocol.run (poolAfter state before) events).2

section Splits

variable {state : KeyState ω ν} {before : List (ThreadEvent (KeyCall ω ν))} {call : KeyCall ω ν}

theorem poolAfter_start : poolAfter state (before ++ [.start call]) =
    (keyProtocol.step (poolAfter state before) (.start call)).1 := by
  unfold poolAfter Protocol.run
  rw [runCalls_concat]
  rfl

theorem poolAfter_append_start (after : List (ThreadEvent (KeyCall ω ν))) :
    poolAfter state (before ++ .start call :: after) =
      (runCalls keyProtocol.step (poolAfter state (before ++ [.start call])) after).1 := by
  unfold poolAfter Protocol.run
  rw [← runCalls_append_fst, List.append_assoc, List.singleton_append]

/-- No call makes a callback in its first step. -/
theorem callbacksOf_start (after : List (ThreadEvent (KeyCall ω ν))) :
    callbacksOf state before (.start call :: after) =
      (runCalls keyProtocol.step (poolAfter state (before ++ [.start call])) after).2 := by
  rw [poolAfter_start]
  unfold callbacksOf Protocol.run
  rw [← List.singleton_append, runCalls_append]
  rfl

end Splits

/-- Every entry of the key at the last change that is enabled when all calls are over has been
called with it since. -/
theorem called_with_last {state : KeyState ω ν} {before after : List (ThreadEvent (KeyCall ω ν))}
    {node : ν} (hlast : ∀ other, .start (.emit other) ∉ after)
    (hstored : AllowedRun keyProtocol.step (StoredAtEnable node)
      (poolAfter state (before ++ [.start (.emit node)])) after)
    (hfinished : Finished (poolAfter state (before ++ .start (.emit node) :: after)))
    {i : ℕ} (hregistered : i < (poolAfter state before).shared.entries.length)
    {entry : SubscriberEntry ω}
    (hentry : (poolAfter state (before ++ .start (.emit node) :: after)).shared.entries[i]? =
      some entry) (henabled : entry.enabled = true) :
    (entry.observer, node) ∈ callbacksOf state before (.start (.emit node) :: after) := by
  have hallowed : AllowedRun keyProtocol.step (fun pool event =>
      (∀ other, event ≠ .start (.emit other)) ∧ StoredAtEnable node pool event)
      (poolAfter state (before ++ [.start (.emit node)])) after := fun early event late heq =>
    ⟨fun other hevent => hlast other (by simp [heq, hevent]), hstored early event late heq⟩
  have howed : OwedTo node (poolAfter state before).shared.entries.length
      (poolAfter state (before ++ .start (.emit node) :: after))
      (callbacksOf state before (.start (.emit node) :: after)) := by
    rw [poolAfter_append_start, callbacksOf_start]
    refine hallowed.invariant ?_ fun pool log event hevent h => h.step hevent.1 hevent.2
    rw [poolAfter_start]
    exact owedTo_emit rfl
  rcases howed.owed i hregistered entry hentry with hcalled | ⟨thread, hthread, hpending⟩ | hmissed
  · exact hcalled
  · rw [hfinished thread hthread] at hpending
    exact absurd hpending List.not_mem_nil
  · rw [hmissed.1] at henabled
    exact absurd henabled Bool.false_ne_true

/-! ## One call alone

The steps of a call, made without another call in between, are the call of the sequential
manager. -/

section Alone

variable {δ : Type} {self : RdbSubscriberManager ω (RdbChange δ)} {subscriber : ℕ} {uri : String}
  {templateId : TemplateId}

/-- The part of the manager that is about the key. -/
def keyState (k : RdbObserverMapKey) (self : RdbSubscriberManager ω δ) :
    KeyState ω (RdbChangeNode δ) :=
  ⟨(self.callbacks.find? k).getD [], self.lastChangeNodeMap.find? k⟩

theorem run_callbacks (state : KeyState ω ν) : ∀ left : List (ω × ν),
    keyProtocol.run ⟨state, [.calling left]⟩ (List.replicate left.length (.advance 0)) =
      (⟨state, [.calling []]⟩, left)
  | [] => rfl
  | callback :: left => by
    have ih := run_callbacks state left
    unfold Protocol.run at ih ⊢
    rw [List.length_cons, List.replicate_succ, runCalls_cons]
    have hfirst : keyProtocol.step ⟨state, [.calling (callback :: left)]⟩ (.advance 0) =
        (⟨state, [.calling left]⟩, [callback]) := rfl
    rw [hfirst, ih]
    rfl

/-- An emit alone : it flags, stores and calls. -/
theorem run_emit (state : KeyState ω ν) (node : ν) (hentries : state.entries ≠ []) :
    keyProtocol.run ⟨state, []⟩ (.start (.emit node) :: .advance 0 ::
      List.replicate (toFire state.entries).length (.advance 0)) =
        (⟨⟨notifyEntries state.entries, some node⟩, [.calling []]⟩,
          (toFire state.entries).map fun o => (o, node)) := by
  have hcallbacks := run_callbacks ⟨notifyEntries state.entries, some node⟩
    ((toFire state.entries).map fun o => (o, node))
  rw [List.length_map] at hcallbacks
  have hstart : keyProtocol.step ⟨state, []⟩ (.start (.emit node)) =
      (⟨{ state with entries := notifyEntries state.entries },
        [.storing node (toFire state.entries)]⟩, []) := by
    simp [Protocol.step, keyProtocol, startCall, hentries]
  have hstore : keyProtocol.step ⟨{ state with entries := notifyEntries state.entries },
      [.storing node (toFire state.entries)]⟩ (.advance 0) =
        (⟨⟨notifyEntries state.entries, some node⟩,
          [.calling ((toFire state.entries).map fun o => (o, node))]⟩, []) := rfl
  unfold Protocol.run at hcallbacks ⊢
  rw [runCalls_cons, hstart, runCalls_cons, hstore, hcallbacks]
  rfl

/-- `emit` of the manager is an emit alone. -/
theorem run_emit_eq_emit {node : RdbChangeNode (RdbChange δ)} (hown : OnlyOwnTemplate self node)
    {entries : List (SubscriberEntry ω)} (hentries : entries ≠ [])
    (hfind : self.callbacks.find? (keyOf node) = some entries) :
    keyProtocol.run ⟨keyState (keyOf node) self, []⟩ (.start (.emit node) :: .advance 0 ::
      List.replicate (toFire entries).length (.advance 0)) =
        (⟨keyState (keyOf node) (emit node self).manager, [.calling []]⟩,
          (emit node self).delivered.map fun o => (o, node)) := by
  have hemit := emitsToOwnKey hown
  have hself : compare (keyOf node) (keyOf node) = .eq := Std.ReflCmp.compare_self
  have hstate : keyState (keyOf node) (emit node self).manager =
      ⟨notifyEntries entries, some node⟩ := by
    unfold keyState
    rw [hemit.flagged, hemit.cached, if_pos hself, hfind, if_pos ⟨hself, rfl⟩]
    rfl
  have hdelivered : (emit node self).delivered = toFire entries := by
    rw [hemit.delivered, enabledAt, hfind]
    rfl
  have hbefore : (keyState (keyOf node) self).entries = entries := by
    unfold keyState
    rw [hfind]
    rfl
  have hrun := run_emit (keyState (keyOf node) self) node (hbefore ▸ hentries)
  rw [hbefore] at hrun
  rw [hstate, hdelivered]
  exact hrun

/-- `enable_observers` of the manager enables and chooses as its turn does. -/
theorem enableObservers_turn {δ : Type} {self : RdbSubscriberManager ω δ}
    {entries : List (SubscriberEntry ω)} (answer : ℕ → Answer)
    (hfind : self.callbacks.find? (.new uri templateId) = some entries) :
    (keyState (.new uri templateId)
        (enableObservers subscriber [uri] templateId answer self).manager).entries =
        (enableTurn subscriber (keyState (.new uri templateId) self)).1 ∧
      (enableObservers subscriber [uri] templateId answer self).replays =
        (enableTurn subscriber (keyState (.new uri templateId) self)).2.map fun r =>
          ⟨.new uri templateId, r.1, r.2⟩ := by
  have hstate : keyState (.new uri templateId) self =
      ⟨entries, self.lastChangeNodeMap.find? (.new uri templateId)⟩ := by
    unfold keyState
    rw [hfind]
    rfl
  rw [hstate]
  unfold enableObservers keysOf keyState
  simp only [List.map_cons, List.map_nil, List.foldl_cons, List.foldl_nil, enableKey, hfind,
    enableTurn]
  by_cases hsub : entries.any fun e => e.subscriber = subscriber
  · rw [if_neg (by simpa using hsub)]
    by_cases hany : entries.any fun e => e.subscriber = subscriber ∧ e.enabled
    · rw [if_pos hany, if_pos hany]
      exact ⟨by simp [hfind], rfl⟩
    · rw [if_neg hany, if_neg hany]
      refine ⟨?_, ?_⟩
      · rw [OrderedMap.find?_assign, if_pos Std.ReflCmp.compare_self]
        rfl
      · rw [List.nil_append, List.map_filterMap]
        refine List.filterMap_congr fun e _ => ?_
        rw [Option.map_map]
        rfl
  · have hnot : ∀ e ∈ entries, e.subscriber ≠ subscriber := by simpa using hsub
    have hany : ¬ entries.any fun e => e.subscriber = subscriber ∧ e.enabled := by
      simpa using fun e he heq => absurd heq (hnot e he)
    have hnone : entries.filter (fun e =>
        e.subscriber = subscriber ∧ e.enabled = false ∧ e.isNotifyOnEnabled) = [] :=
      List.filter_eq_nil_iff.mpr fun e he h => hnot e he (by simpa using h : _ ∧ _ ∧ _).1
    have hsame : enableEntries subscriber entries = entries := by
      unfold enableEntries
      refine (List.map_congr_left fun e he => ?_).trans (List.map_id _)
      exact if_neg fun h => hnot e he h.1
    rw [if_pos (by simpa using hsub), if_neg hany, hnone, hsame]
    simp [hfind]

/-- `disable_observers` of the manager disables the entries of its subscriber. -/
theorem disableObservers_turn {δ : Type} {self : RdbSubscriberManager ω δ}
    {entries : List (SubscriberEntry ω)} (answer : ℕ → Answer)
    (hfind : self.callbacks.find? (.new uri templateId) = some entries) :
    (keyState (.new uri templateId)
      (disableObservers subscriber [uri] templateId answer self).manager).entries =
        disableEntries subscriber entries := by
  unfold disableObservers keysOf keyState
  simp only [List.map_cons, List.map_nil, List.foldl_cons, List.foldl_nil, disableKey, hfind]
  by_cases hany : anyEnabled entries
  · rw [if_neg (by simpa using hany)]
    by_cases hsub : entries.any fun e => e.subscriber = subscriber
    · rw [if_neg (by simpa using hsub)]
      split <;> simp [OrderedMap.find?_assign]
    · rw [if_pos (by simpa using hsub)]
      have hnot : ∀ e ∈ entries, e.subscriber ≠ subscriber := by simpa using hsub
      rw [disableEntries_eq_self fun e he h => hnot e he h.1]
      simp [hfind]
  · rw [if_pos (by simpa using hany)]
    have hnot : ∀ e ∈ entries, e.enabled = false := by simpa [anyEnabled] using hany
    rw [disableEntries_eq_self fun e he h => absurd h.2 (by simp [hnot e he])]
    simp [hfind]

end Alone

/-! ## Runs of one observer -/

def noEntries : KeyState ℕ ℕ :=
  ⟨[], none⟩

/-- An observer is registered and disabled. -/
def disabledObserver : List (ThreadEvent (KeyCall ℕ ℕ)) :=
  [.start (.addObservers 1 10), .start (.disableObservers 1)]

/-- The observer that missed a change is called with it when it is enabled. -/
theorem called_when_enabled :
    (10, 7) ∈ callbacksOf noEntries disabledObserver
      [.start (.emit 7), .advance 2, .start (.enableObservers 1), .advance 3] := by
  have hstored : AllowedRun keyProtocol.step (StoredAtEnable 7)
      (poolAfter noEntries (disabledObserver ++ [.start (.emit 7)]))
      [.advance 2, .start (.enableObservers 1), .advance 3] := by
    change AllowedRun _ _ _ ([] ++ [_] ++ [_] ++ [_])
    simp only [allowedRun_concat]
    refine ⟨⟨⟨allowedRun_nil, ?_⟩, fun _ _ => rfl⟩, ?_⟩
    · exact fun _ hevent => absurd hevent (by simp)
    · exact fun _ hevent => absurd hevent (by simp)
  have hentry : (poolAfter noEntries (disabledObserver ++ .start (.emit 7) ::
      [.advance 2, .start (.enableObservers 1), .advance 3])).shared.entries[0]? =
        some ⟨1, 10, true, false⟩ := rfl
  have hfinished : Finished (poolAfter noEntries (disabledObserver ++ .start (.emit 7) ::
      [.advance 2, .start (.enableObservers 1), .advance 3])) := by
    unfold Finished
    decide
  exact called_with_last (by simp) hstored hfinished (by decide) hentry rfl

/-- Every entry that is enabled at the end has been called with the last change since its
subscriber was last enabled. -/
def CalledSinceEnable (state : KeyState ω ν) (events : List (ThreadEvent (KeyCall ω ν))) : Prop :=
  ∀ before node after, events = before ++ .start (.emit node) :: after →
    (∀ other, .start (.emit other) ∉ after) → Finished (poolAfter state events) →
    ∀ i < (poolAfter state before).shared.entries.length,
    ∀ entry, (poolAfter state events).shared.entries[i]? = some entry → entry.enabled = true →
    ∀ early late, events = early ++ .start (.enableObservers entry.subscriber) :: late →
      .start (.enableObservers entry.subscriber) ∉ late →
      (entry.observer, node) ∈
        callbacksOf state early (.start (.enableObservers entry.subscriber) :: late)

/-- An observer that was called with a change is not called with it again when it has been
disabled and enabled since. -/
theorem not_called_again : ¬ CalledSinceEnable noEntries
    [.start (.addObservers 1 10), .start (.emit 7), .advance 1, .advance 1,
      .start (.disableObservers 1), .start (.enableObservers 1)] := by
  intro h
  have hcalled := h [.start (.addObservers 1 10)] 7 _ rfl (by simp) (by unfold Finished; decide) 0
    (by decide) ⟨1, 10, true, false⟩ rfl rfl
    [.start (.addObservers 1 10), .start (.emit 7), .advance 1, .advance 1,
      .start (.disableObservers 1)] [] rfl (by simp)
  exact absurd hcalled (by decide)

/-- The observer is enabled between the flag and the store of a change. -/
def enabledTooEarly : List (ThreadEvent (KeyCall ℕ ℕ)) :=
  [.start (.emit 7), .start (.enableObservers 1), .advance 2]

/-- The enable takes the flag and finds no node : the observer ends up enabled, and is never called
with the change. -/
theorem lost_between_flag_and_store :
    (poolAfter noEntries (disabledObserver ++ enabledTooEarly)).shared.entries.map
        SubscriberEntry.enabled = [true] ∧
      Finished (poolAfter noEntries (disabledObserver ++ enabledTooEarly)) ∧
      callbacksOf noEntries disabledObserver enabledTooEarly = [] := by
  unfold Finished
  decide

end RdbSubscriberManager

end Rust

end DataShare
