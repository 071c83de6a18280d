import DataShare.CppConnection

/-!
# Observers across reconnections

`ReRegisterObserverExtProvider` moves the stored observers out of the connection, registers each at
the new proxy and stores back those it accepted. One that is refused, or all if there is no proxy,
are gone from then on ; and an observer that is unregistered meanwhile is stored, or even
registered, again (`observers_lost_or_resurrected`). The first callback that asks `isReconnect_`
registers nothing, even if it is not that of the first connection.

For one observer and URI, `Alone` asks that no two threads work on it at a time (`Thread.worksOn`),
that a re-registration of it succeeds, and that a connection is accepted while it is stored only
after a callback has asked `isReconnect_`. Then the store holds it exactly if its registration was
the last thing acknowledged (`Agrees`, `Thread.Keeps`). So the callback of every later reconnection
registers it again (`Returning`), and the provider does not know it once its unregistration was
acknowledged (`observers_survive_reconnection`).
-/

namespace DataShare

namespace Cpp

open DataShareConnection

/-! ## One observer and URI -/

section Pair

variable (dataObserver : ℕ) (uri : StdString)

/-- The entry is about the observer and URI. -/
def concerns (entry : ℕ × Param) : Bool :=
  entry.1 = dataObserver && entry.2.uri = uri

def Use.concerns : Use → Bool
  | .request => false
  | .registerObserverExtProvider u o _ => o = dataObserver && u = uri
  | .unregisterObserverExtProvider u o => o = dataObserver && u = uri

/-- The observer is stored for the URI. -/
def Stored (observers : ObserverExts) : Prop :=
  ∃ param ∈ (observers.find? dataObserver).getD [], param.uri = uri

/-- Whether the registration is what the user knows of, after one message more. -/
def acknowledges (before : Bool) : Message → Bool
  | .registered o u => before || (o = dataObserver && u = uri)
  | .unregistered o u => before && !(o = dataObserver && u = uri)
  | _ => before

/-- The last of the pair's calls to return `E_OK` was a registration. -/
def acknowledged (log : List Message) : Bool :=
  log.foldl (acknowledges dataObserver uri) false

/-- The thread works on the pair : a user's call that has its proxy, or a re-registration until it has
stored the pair back. While it has yet to clear the store it works on every pair. -/
def Thread.worksOn : Thread → Bool
  | .clearObservers _ => true
  | .loadProxy entries | .reRegister _ entries => entries.any (concerns dataObserver uri)
  | .storeBack _ entry entries => (entry :: entries).any (concerns dataObserver uri)
  | .call _ use | .record use => use.concerns dataObserver uri
  | _ => false

/-- Nobody works on the pair. -/
def Untouched (pool : ConnectionPool) : Prop :=
  ∀ thread ∈ pool.threads, thread.worksOn dataObserver uri = false

instance : DecidablePred (Stored dataObserver uri) := fun _ =>
  inferInstanceAs (Decidable (∃ _ ∈ _, _))

/-- Work on the pair is begun when nobody works on it, and a re-registration of it succeeds. A
connection that is accepted while the pair is stored is not the first whose callback asks whether it
is. -/
def Alone (pool : ConnectionPool) : ConnectionEvent → Prop
  | .outside (.connectDone n true) =>
    n ∈ pool.shared.ams.connecting →
      Stored dataObserver uri pool.shared.connection.observerExtsProvider →
        pool.shared.connection.isReconnect = true
  | .outside _ => True
  | .advance i reply =>
    match pool.threads[i]? with
    | some .moveObservers => Untouched dataObserver uri pool
    | some (.findProxy _ use) | some (.awaitProxy use) =>
      use.concerns dataObserver uri = true → Untouched dataObserver uri pool
    | some (.loadProxy entries) =>
      entries.any (concerns dataObserver uri) = true →
        pool.shared.connection.dataShareProxy ≠ none
    | some (.reRegister proxy (entry :: _)) =>
      concerns dataObserver uri entry = true → pool.shared.answers proxy reply = true
    | _ => True

instance : DecidableRel (Alone dataObserver uri) := fun pool event => by
  cases event with
  | outside event =>
    cases event with
    | connectDone n accepted => cases accepted <;> unfold Alone <;> infer_instance
    | _ => unfold Alone; infer_instance
  | advance i reply =>
    unfold Alone Untouched
    dsimp only
    split <;> infer_instance

/-- The store and the provider agree with what the user knows. -/
structure Agrees (world : World) (log : List Message) : Prop where
  stored : Stored dataObserver uri world.connection.observerExtsProvider ↔
    acknowledged dataObserver uri log = true
  gone : acknowledged dataObserver uri log = false →
    (dataObserver, uri) ∉ world.provider.registrations

/-- What holds where the thread that works on the pair stands. -/
def Thread.Keeps (world : World) (log : List Message) : Thread → Prop
  | .clearObservers entries =>
    entries.any (concerns dataObserver uri) = acknowledged dataObserver uri log ∧
      (acknowledged dataObserver uri log = false →
        (dataObserver, uri) ∉ world.provider.registrations)
  | .loadProxy _ | .reRegister _ _ | .storeBack _ _ _ => acknowledged dataObserver uri log = true
  | .record (.registerObserverExtProvider _ _ _) =>
    Stored dataObserver uri world.connection.observerExtsProvider ↔
      acknowledged dataObserver uri log = true
  | .record (.unregisterObserverExtProvider _ _) =>
    (Stored dataObserver uri world.connection.observerExtsProvider ↔
      acknowledged dataObserver uri log = true) ∧
      (dataObserver, uri) ∉ world.provider.registrations
  | _ => Agrees dataObserver uri world log

/-- The store, the provider and the user agree, as far as the one who works on the pair has got. -/
def Recorded (pool : ConnectionPool) (log : List Message) : Prop :=
  OneWorker (Thread.worksOn dataObserver uri) (Agrees dataObserver uri pool.shared log)
    (Thread.Keeps dataObserver uri pool.shared log) pool.threads

end Pair

variable {dataObserver : ℕ} {uri : StdString} {world : World} {log : List Message}
  {thread : Thread}

/-! ## The store -/

theorem stored_empty : ¬ Stored dataObserver uri .empty := by
  simp [Stored]

theorem stored_update {connection : DataShareConnection} {u : StdString} {o : ℕ}
    {isDescendants : Bool} : Stored dataObserver uri
        (connection.UpdateObserverExtsProviderMap u o isDescendants).observerExtsProvider ↔
      Stored dataObserver uri connection.observerExtsProvider ∨ o = dataObserver ∧ u = uri := by
  unfold Stored UpdateObserverExtsProviderMap
  rw [OrderedMap.find?_upsert]
  by_cases ho : dataObserver = o
  · subst ho
    simp [or_and_right, exists_or]
  · have hne : compare dataObserver o ≠ .eq := fun h => ho (Std.LawfulEqOrd.eq_of_compare h)
    rw [if_neg hne]
    simp [Ne.symm ho]

theorem stored_delete {connection : DataShareConnection} {u : StdString} {o : ℕ} :
    Stored dataObserver uri (connection.DeleteObserverExtsProviderMap u o).observerExtsProvider ↔
      Stored dataObserver uri connection.observerExtsProvider ∧
        ¬ (o = dataObserver ∧ u = uri) := by
  have hfind : ((connection.DeleteObserverExtsProviderMap u o).observerExtsProvider.find?
      dataObserver).getD [] = if dataObserver = o then
        ((connection.observerExtsProvider.find? o).getD []).filter fun param => u ≠ param.uri
      else (connection.observerExtsProvider.find? dataObserver).getD [] := by
    unfold DeleteObserverExtsProviderMap
    by_cases ho : dataObserver = o
    · subst ho
      dsimp only
      split
      case isTrue hempty =>
        rw [OrderedMap.find?_erase, if_pos Std.ReflCmp.compare_self, if_pos rfl]
        exact (List.isEmpty_iff.mp hempty).symm
      case isFalse => rw [OrderedMap.find?_assign, if_pos Std.ReflCmp.compare_self, if_pos rfl]; rfl
    · have hne : compare dataObserver o ≠ .eq := fun h => ho (Std.LawfulEqOrd.eq_of_compare h)
      dsimp only
      split
      · rw [OrderedMap.find?_erase, if_neg hne]
      · rw [OrderedMap.find?_assign, if_neg hne]
  unfold Stored
  rw [hfind]
  by_cases ho : dataObserver = o
  · subst ho
    simp only [if_true, List.mem_filter, decide_eq_true_eq, true_and]
    constructor
    · rintro ⟨param, ⟨hparam, hne⟩, rfl⟩
      exact ⟨⟨param, hparam, rfl⟩, hne⟩
    · rintro ⟨⟨param, hparam, rfl⟩, hne⟩
      exact ⟨param, ⟨hparam, hne⟩, rfl⟩
  · simp [ho, Ne.symm ho]

/-- The pair is stored if an entry of `ForEach` is about it. -/
theorem any_entriesOf {observers : ObserverExts} :
    (entriesOf observers).any (concerns dataObserver uri) = true ↔
      Stored dataObserver uri observers := by
  unfold entriesOf Stored
  rw [List.any_eq_true]
  constructor
  · rintro ⟨entry, hentry, hconcerns⟩
    obtain ⟨⟨o, value⟩, hvalue, hmem⟩ := List.mem_flatMap.mp hentry
    obtain ⟨param, hparam, rfl⟩ := List.mem_map.mp hmem
    simp only [concerns, Bool.and_eq_true, decide_eq_true_eq] at hconcerns
    obtain ⟨rfl, hu⟩ := hconcerns
    rw [OrderedMap.mem_entries_iff.mp hvalue]
    exact ⟨param, hparam, hu⟩
  · rintro ⟨param, hparam, hu⟩
    rcases hfind : observers.find? dataObserver with _ | value
    · simp [hfind] at hparam
    · rw [hfind] at hparam
      refine ⟨(dataObserver, param), ?_, by simp [concerns, hu]⟩
      exact List.mem_flatMap.mpr ⟨(dataObserver, value), OrderedMap.mem_entries_iff.mpr hfind,
        List.mem_map.mpr ⟨param, hparam, rfl⟩⟩

theorem acknowledged_append (log sent : List Message) : acknowledged dataObserver uri (log ++ sent) =
    sent.foldl (acknowledges dataObserver uri) (acknowledged dataObserver uri log) := by
  unfold acknowledged
  rw [List.foldl_append]

/-! ## Steps of the others -/

/-- The pair is stored and acknowledged as before, and not newly registered. -/
structure LeavesPair (dataObserver : ℕ) (uri : StdString) (world world' : World)
    (log log' : List Message) : Prop where
  stored : Stored dataObserver uri world'.connection.observerExtsProvider ↔
    Stored dataObserver uri world.connection.observerExtsProvider
  registered : (dataObserver, uri) ∈ world'.provider.registrations →
    (dataObserver, uri) ∈ world.provider.registrations
  acknowledged : acknowledged dataObserver uri log' = acknowledged dataObserver uri log

theorem Agrees.of_leaves {world' : World} {log' : List Message}
    (h : Agrees dataObserver uri world log)
    (hleaves : LeavesPair dataObserver uri world world' log log') :
    Agrees dataObserver uri world' log' where
  stored := by rw [hleaves.stored, hleaves.acknowledged]; exact h.stored
  gone := by
    rw [hleaves.acknowledged]
    exact fun hack hmem => h.gone hack (hleaves.registered hmem)

theorem Thread.Keeps.of_leaves {world' : World} {log' : List Message}
    (h : thread.Keeps dataObserver uri world log)
    (hleaves : LeavesPair dataObserver uri world world' log log') :
    thread.Keeps dataObserver uri world' log' := by
  cases thread with
  | clearObservers entries =>
    simp only [Thread.Keeps, hleaves.acknowledged]
    exact ⟨h.1, fun hack hmem => h.2 hack (hleaves.registered hmem)⟩
  | loadProxy | reRegister | storeBack => exact hleaves.acknowledged.trans h
  | record use =>
    cases use with
    | registerObserverExtProvider =>
      simp only [Thread.Keeps, hleaves.acknowledged, hleaves.stored]
      exact h
    | unregisterObserverExtProvider =>
      simp only [Thread.Keeps, hleaves.acknowledged, hleaves.stored]
      exact ⟨h.1, fun hmem => h.2 (hleaves.registered hmem)⟩
    | request => exact Agrees.of_leaves h hleaves
  | _ => exact Agrees.of_leaves h hleaves

theorem leavesPair_rfl : LeavesPair dataObserver uri world world log (log ++ []) :=
  ⟨.rfl, id, by rw [List.append_nil]⟩

/-- The answers to a user's call. -/
def Message.isReply : Message → Bool
  | .registered _ _ | .unregistered _ _ => true
  | _ => false

theorem acknowledged_append_of_not_isReply {sent : List Message}
    (h : ∀ message ∈ sent, message.isReply = false) :
    acknowledged dataObserver uri (log ++ sent) = acknowledged dataObserver uri log := by
  rw [acknowledged_append]
  refine List.foldlRecOn sent (acknowledges dataObserver uri)
    (motive := (· = acknowledged dataObserver uri log)) rfl ?_
  rintro before rfl message hmessage
  have := h message hmessage
  cases message <;> simp [Message.isReply] at this <;> rfl

theorem leavesPair_of_same {move : ConnectionMove}
    (hobservers : move.shared.connection.observerExtsProvider =
      world.connection.observerExtsProvider)
    (hprovider : move.shared.provider = world.provider)
    (hsent : ∀ message ∈ move.sent, message.isReply = false) :
    LeavesPair dataObserver uri world move.shared log (log ++ move.sent) :=
  ⟨by rw [hobservers], fun hmem => hprovider ▸ hmem, acknowledged_append_of_not_isReply hsent⟩

/-- A thread that does not work on the pair leaves it alone, unless it moves all observers out. -/
theorem leavesPair_of_not_worksOn (world : World) (reply : Bool) (log : List Message)
    (h : thread.worksOn dataObserver uri = false)
    (hmove : thread ≠ .moveObservers) : LeavesPair dataObserver uri world
      (world.next thread reply).shared log (log ++ (world.next thread reply).sent) := by
  cases thread with
  | moveObservers => exact absurd rfl hmove
  | clearObservers => simp [Thread.worksOn] at h
  | storeProxy n remote =>
    cases remote <;> exact leavesPair_of_same rfl rfl (by simp [World.next, World.pass, World.become])
  | loadProxy entries =>
    simp only [World.next]
    split <;> exact leavesPair_rfl
  | reRegister proxy entries =>
    cases entries with
    | nil => exact leavesPair_rfl
    | cons entry entries =>
      simp only [World.next]
      split
      case isFalse => exact leavesPair_rfl
      case isTrue =>
        refine ⟨.rfl, fun hmem => ?_, acknowledged_append_of_not_isReply (by simp [Message.isReply])⟩
        refine (List.mem_cons.mp hmem).resolve_left fun heq => ?_
        obtain ⟨rfl, rfl⟩ := Prod.mk.inj heq
        simp [Thread.worksOn, Cpp.concerns] at h
  | storeBack proxy entry entries =>
    refine ⟨?_, id, by simp [World.next, World.become]⟩
    have hother : ¬ (entry.1 = dataObserver ∧ entry.2.uri = uri) := by
      rintro ⟨rfl, rfl⟩
      simp [Thread.worksOn, Cpp.concerns] at h
    exact stored_update.trans (or_iff_left hother)
  | connectNow uri | connect uri use =>
    simp only [World.next]
    split
    · exact leavesPair_of_same rfl rfl (by simp [World.connected, Message.isReply])
    · exact leavesPair_rfl
  | task due uri =>
    simp only [World.next]
    split
    · exact leavesPair_rfl
    · split
      · exact leavesPair_of_same rfl rfl (by simp [World.connected, Message.isReply])
      · exact leavesPair_rfl
  | findProxy uri use =>
    simp only [World.next]
    split <;> exact leavesPair_rfl
  | call proxy use =>
    cases use with
    | request => exact leavesPair_rfl
    | registerObserverExtProvider u o isDescendants =>
      simp only [World.next]
      split
      case isFalse => exact leavesPair_rfl
      case isTrue =>
        refine ⟨.rfl, fun hmem => ?_, by rw [List.append_nil]⟩
        refine (List.mem_cons.mp hmem).resolve_left fun heq => ?_
        obtain ⟨rfl, rfl⟩ := Prod.mk.inj heq
        simp [Thread.worksOn, Use.concerns] at h
    | unregisterObserverExtProvider u o =>
      simp only [World.next]
      split
      case isFalse => exact leavesPair_rfl
      case isTrue =>
        exact ⟨.rfl, fun hmem => (List.mem_filter.mp hmem).1, by rw [List.append_nil]⟩
  | record use =>
    cases use with
    | request => exact leavesPair_rfl
    | registerObserverExtProvider u o isDescendants =>
      have hother : ¬ (o = dataObserver ∧ u = uri) := by
        rintro ⟨rfl, rfl⟩
        simp [Thread.worksOn, Use.concerns] at h
      refine ⟨stored_update.trans (or_iff_left hother), id, ?_⟩
      simp only [World.next, World.become, acknowledged_append, List.foldl_cons, List.foldl_nil,
        acknowledges]
      simp [hother]
    | unregisterObserverExtProvider u o =>
      have hother : ¬ (o = dataObserver ∧ u = uri) := by
        rintro ⟨rfl, rfl⟩
        simp [Thread.worksOn, Use.concerns] at h
      refine ⟨stored_delete.trans (and_iff_left hother), id, ?_⟩
      simp only [World.next, World.become, acknowledged_append, List.foldl_cons, List.foldl_nil,
        acknowledges]
      simp [not_and_or.mp hother]
  | clearUri =>
    simp only [World.next]
    split <;> exact leavesPair_of_same rfl rfl (by simp [World.become, Message.isReply])
  | disconnectReleased =>
    exact leavesPair_of_same rfl rfl (by simp [World.next, World.disconnected, Message.isReply])
  | _ =>
    exact leavesPair_of_same rfl rfl
      (by simp [World.next, World.become, World.pass, World.disconnected])

/-- A thread that does not work on the pair begins to by getting a proxy for a call about it, or by
moving all observers out. -/
theorem worksOn_next (world : World) (reply : Bool) (h : thread.worksOn dataObserver uri = false)
    (hmove : thread ≠ .moveObservers) :
    (∀ t ∈ (world.next thread reply).started, t.worksOn dataObserver uri = false) ∧
      ((world.next thread reply).thread.worksOn dataObserver uri = true →
        (∃ proxy use, (world.next thread reply).thread = .call proxy use) ∧
        ∃ use, use.concerns dataObserver uri = true ∧
          (thread = .awaitProxy use ∨ ∃ u, thread = .findProxy u use)) := by
  have hgot : ∀ proxy use, (World.got proxy use).worksOn dataObserver uri = true →
      (∃ proxy' use', World.got proxy use = .call proxy' use') ∧
        use.concerns dataObserver uri = true := by
    intro proxy use hworks
    cases use <;> cases proxy <;>
      first | (simp [World.got, Thread.worksOn] at hworks; done) | exact ⟨⟨_, _, rfl⟩, hworks⟩
  cases thread with
  | moveObservers => exact absurd rfl hmove
  | clearObservers => simp [Thread.worksOn] at h
  | storeProxy n remote =>
    cases remote <;> simp [World.next, World.pass, World.become, Thread.worksOn]
  | loadInvalid n | exchangeReconnect | clearProxy | reconnect =>
    simp only [World.next]
    split <;> simp [World.pass, World.become, Thread.worksOn]
  | loadProxy entries =>
    simp only [World.next]
    split
    · simp [World.pass, Thread.worksOn]
    · simp only [Thread.worksOn] at h
      simp [World.pass, Thread.worksOn, h]
  | reRegister proxy entries =>
    cases entries with
    | nil => simp [World.next, World.pass, Thread.worksOn]
    | cons entry entries =>
      simp only [Thread.worksOn] at h
      have hrest := (Bool.or_eq_false_iff.mp (List.any_cons.symm.trans h)).2
      simp only [World.next]
      split <;> simp [World.pass, Thread.worksOn, h, hrest]
  | storeBack proxy entry entries =>
    simp only [Thread.worksOn] at h
    have hrest := (Bool.or_eq_false_iff.mp (List.any_cons.symm.trans h)).2
    simp [World.next, World.become, Thread.worksOn, hrest]
  | connectNow u | connect u use =>
    simp only [World.next]
    split <;> simp [World.pass, World.connected, Thread.worksOn]
  | delayConnect u =>
    simp only [World.next]
    split <;> simp [World.become, Thread.worksOn]
  | task due u =>
    simp only [World.next]
    split
    · simp [World.pass, Thread.worksOn]
    · split <;> simp [World.pass, World.connected, Thread.worksOn]
  | findProxy u use =>
    simp only [World.next]
    split
    · refine ⟨by simp [World.pass], fun hworks => ?_⟩
      obtain ⟨hcall, hconcerns⟩ := hgot _ _ hworks
      exact ⟨hcall, use, hconcerns, .inr ⟨u, rfl⟩⟩
    · simp [World.pass, Thread.worksOn]
  | awaitProxy use =>
    refine ⟨by simp [World.next, World.pass], fun hworks => ?_⟩
    obtain ⟨hcall, hconcerns⟩ := hgot _ _ hworks
    exact ⟨hcall, use, hconcerns, .inl rfl⟩
  | call proxy use =>
    cases use with
    | request => simp [World.next, World.pass, Thread.worksOn]
    | registerObserverExtProvider | unregisterObserverExtProvider =>
      simp only [Thread.worksOn, Use.concerns] at h
      simp only [World.next]
      split <;> simp [World.pass, Thread.worksOn, Use.concerns, h]
  | record use =>
    cases use <;> simp [World.next, World.pass, World.become, Thread.worksOn]
  | clearUri =>
    simp only [World.next]
    split <;> simp [World.become, Thread.worksOn]
  | _ => simp [World.next, World.become, World.pass, World.disconnected, Thread.worksOn]

/-! ## Steps of the worker -/

/-- The thread at work on the pair keeps what holds where it stands. -/
theorem keeps_next (reply : Bool) (hworks : thread.worksOn dataObserver uri = true)
    (hproxy : ∀ entries, thread = .loadProxy entries →
      world.connection.dataShareProxy ≠ none)
    (haccepted : ∀ proxy entry entries, thread = .reRegister proxy (entry :: entries) →
      concerns dataObserver uri entry = true → world.answers proxy reply = true)
    (h : thread.Keeps dataObserver uri world log) :
    OneWorker (Thread.worksOn dataObserver uri)
      (Agrees dataObserver uri (world.next thread reply).shared
        (log ++ (world.next thread reply).sent))
      (Thread.Keeps dataObserver uri (world.next thread reply).shared
        (log ++ (world.next thread reply).sent))
      ((world.next thread reply).thread :: (world.next thread reply).started) := by
  cases thread with
  | clearObservers entries =>
    simp only [World.next, World.become, List.append_nil]
    rcases hack : acknowledged dataObserver uri log with _ | _
    · refine .nobody ?_ ⟨?_, fun _ => h.2 hack⟩
      · simpa [Thread.worksOn] using h.1.trans hack
      · simp [stored_empty, hack]
    · exact .single (h.1.trans hack) hack
  | loadProxy entries =>
    simp only [World.next]
    split
    case h_1 hnone => exact absurd hnone (hproxy entries rfl)
    case h_2 =>
      simp only [World.pass, List.append_nil]
      exact .single hworks h
  | reRegister proxy entries =>
    cases entries with
    | nil => simp [Thread.worksOn] at hworks
    | cons entry entries =>
      simp only [World.next]
      split
      case isTrue =>
        refine .single hworks ?_
        exact (acknowledged_append_of_not_isReply (by simp [Message.isReply])).trans h
      case isFalse hrefused =>
        have hother : ¬ concerns dataObserver uri entry = true :=
          fun hconcerns => hrefused (haccepted _ _ _ rfl hconcerns)
        have hrest : entries.any (concerns dataObserver uri) = true := by
          simpa [Thread.worksOn, hother] using hworks
        simp only [World.pass, List.append_nil]
        exact .single hrest h
  | storeBack proxy entry entries =>
    simp only [World.next, World.become, List.append_nil]
    by_cases hrest : entries.any (concerns dataObserver uri) = true
    · exact .single hrest h
    · have hentry : concerns dataObserver uri entry = true := by
        simpa [Thread.worksOn, hrest] using hworks
      simp only [concerns, Bool.and_eq_true, decide_eq_true_eq] at hentry
      refine .nobody (by simpa [Thread.worksOn] using hrest) ⟨?_, ?_⟩
      · exact iff_of_true (stored_update.mpr (.inr hentry)) h
      · exact fun hack => absurd (h.symm.trans hack) (by simp)
  | call proxy use =>
    cases use with
    | request => simp [Thread.worksOn, Use.concerns] at hworks
    | registerObserverExtProvider u o isDescendants =>
      simp only [World.next]
      split
      case isTrue =>
        rw [List.append_nil]
        exact .single hworks h.stored
      case isFalse =>
        simp only [World.pass, List.append_nil]
        exact .nobody (by simp [Thread.worksOn]) h
    | unregisterObserverExtProvider u o =>
      simp only [Thread.worksOn, Use.concerns, Bool.and_eq_true, decide_eq_true_eq] at hworks
      obtain ⟨rfl, rfl⟩ := hworks
      simp only [World.next]
      split
      case isTrue =>
        rw [List.append_nil]
        refine .single (by simp [Thread.worksOn, Use.concerns]) ⟨h.stored, ?_⟩
        simp [World.unregister]
      case isFalse =>
        simp only [World.pass, List.append_nil]
        exact .nobody (by simp [Thread.worksOn]) h
  | record use =>
    cases use with
    | request => simp [Thread.worksOn, Use.concerns] at hworks
    | registerObserverExtProvider u o isDescendants =>
      simp only [Thread.worksOn, Use.concerns, Bool.and_eq_true, decide_eq_true_eq] at hworks
      have hack : acknowledged dataObserver uri (log ++ [.registered o u]) = true := by
        simp [acknowledged_append, acknowledges, hworks]
      refine .nobody (by simp [World.next, World.become, Thread.worksOn]) ⟨?_, ?_⟩
      · exact iff_of_true (stored_update.mpr (.inr hworks)) hack
      · exact fun hnot => absurd (hack.symm.trans hnot) (by simp)
    | unregisterObserverExtProvider u o =>
      simp only [Thread.worksOn, Use.concerns, Bool.and_eq_true, decide_eq_true_eq] at hworks
      have hack : acknowledged dataObserver uri (log ++ [.unregistered o u]) = false := by
        simp [acknowledged_append, acknowledges, hworks]
      refine .nobody (by simp [World.next, World.become, Thread.worksOn]) ⟨?_, fun _ => h.2⟩
      refine iff_of_false (fun hstored => (stored_delete.mp hstored).2 hworks) ?_
      exact fun hyes => absurd (hack.symm.trans hyes) (by simp)
  | _ => simp [Thread.worksOn] at hworks

/-- The move of all observers out of the store begins work on every pair. -/
theorem keeps_moveObservers (reply : Bool) (h : Agrees dataObserver uri world log) :
    OneWorker (Thread.worksOn dataObserver uri)
      (Agrees dataObserver uri (world.next .moveObservers reply).shared
        (log ++ (world.next .moveObservers reply).sent))
      (Thread.Keeps dataObserver uri (world.next .moveObservers reply).shared
        (log ++ (world.next .moveObservers reply).sent))
      ((world.next .moveObservers reply).thread :: (world.next .moveObservers reply).started) := by
  simp only [World.next, World.become, List.append_nil]
  exact .single rfl ⟨Bool.eq_iff_iff.mpr (any_entriesOf.trans h.stored), h.gone⟩

/-! ## Steps of the connection -/

theorem outside_leavesPair (world : World) (event : Outside) :
    (∀ t ∈ (world.outside event).2, t.worksOn dataObserver uri = false) ∧
      LeavesPair dataObserver uri world (world.outside event).1 log log := by
  cases event with
  | tick ms => exact ⟨by simp [World.outside], .rfl, id, rfl⟩
  | user call =>
    cases call <;> exact ⟨by simp [World.outside, UserCall.thread, Thread.worksOn], .rfl, id, rfl⟩
  | connectDone n accepted =>
    simp only [World.outside]
    split
    · cases accepted <;> exact ⟨by simp [Thread.worksOn], .rfl, id, rfl⟩
    · exact ⟨by simp, .rfl, id, rfl⟩
  | lost n =>
    simp only [World.outside]
    split
    · exact ⟨by simp [Thread.worksOn], .rfl, id, rfl⟩
    · exact ⟨by simp, .rfl, id, rfl⟩
  | exited =>
    exact ⟨by simp [World.outside, Thread.worksOn], .rfl, by simp [World.outside], rfl⟩

/-! ## The flags of the connection -/

/-- A thread in `ReRegisterObserverExtProvider`. -/
def Thread.reRegisters : Thread → Bool
  | .moveObservers | .clearObservers _ | .loadProxy _ | .reRegister _ _ | .storeBack _ _ _ => true
  | _ => false

/-- Both flags stay set. -/
theorem flags_next (world : World) (thread : Thread) (reply : Bool) :
    (world.connection.isInvalid = true →
      (world.next thread reply).shared.connection.isInvalid = true) ∧
    (world.connection.isReconnect = true →
      (world.next thread reply).shared.connection.isReconnect = true) := by
  cases thread with
  | exchangeReconnect => exact ⟨id, fun _ => rfl⟩
  | setInvalid => exact ⟨fun _ => rfl, id⟩
  | storeProxy n remote => cases remote <;> exact ⟨id, id⟩
  | reRegister proxy entries =>
    cases entries with
    | nil => exact ⟨id, id⟩
    | cons entry entries =>
      simp only [World.next]
      split <;> exact ⟨id, id⟩
  | call proxy use =>
    cases use with
    | request => exact ⟨id, id⟩
    | registerObserverExtProvider | unregisterObserverExtProvider =>
      simp only [World.next]
      split <;> exact ⟨id, id⟩
  | record use => cases use <;> exact ⟨id, id⟩
  | loadProxy | connectNow | findProxy | connect | clearUri =>
    simp only [World.next]
    split <;> exact ⟨id, id⟩
  | task due uri =>
    simp only [World.next]
    split
    · exact ⟨id, id⟩
    · split <;> exact ⟨id, id⟩
  | _ => exact ⟨id, id⟩

theorem flags_outside (world : World) (event : Outside) :
    (world.outside event).1.connection.isInvalid = world.connection.isInvalid ∧
      (world.outside event).1.connection.isReconnect = world.connection.isReconnect := by
  cases event with
  | connectDone n accepted =>
    simp only [World.outside]
    split
    · split <;> exact ⟨rfl, rfl⟩
    · exact ⟨rfl, rfl⟩
  | lost n =>
    simp only [World.outside]
    split <;> exact ⟨rfl, rfl⟩
  | _ => exact ⟨rfl, rfl⟩

theorem keeps_isInvalid :
    connectionMachine.Keeps fun pool => pool.shared.connection.isInvalid = true where
  outside event h := (flags_outside _ event).1.trans h
  next _ h _ := (flags_next _ _ _).1 h

theorem keeps_isReconnect :
    connectionMachine.Keeps fun pool => pool.shared.connection.isReconnect = true where
  outside event h := (flags_outside _ event).2.trans h
  next _ h _ := (flags_next _ _ _).2 h

/-- Only the callback that finds `isReconnect_` set begins a re-registration. -/
theorem reRegisters_next (world : World) (thread : Thread) (reply : Bool) :
    ((world.next thread reply).thread.reRegisters = true →
      thread.reRegisters = true ∨ world.connection.isReconnect = true) ∧
    ∀ t ∈ (world.next thread reply).started, t.reRegisters = false := by
  cases thread with
  | moveObservers | clearObservers | storeBack =>
    exact ⟨fun _ => .inl rfl, by simp [World.next, World.become]⟩
  | loadProxy entries =>
    simp only [World.next]
    split <;> exact ⟨fun _ => .inl rfl, by simp [World.pass]⟩
  | reRegister proxy entries =>
    cases entries with
    | nil => exact ⟨fun _ => .inl rfl, by simp [World.next, World.pass]⟩
    | cons entry entries =>
      simp only [World.next]
      split <;> exact ⟨fun _ => .inl rfl, by simp [World.pass]⟩
  | exchangeReconnect =>
    rcases hreconnect : world.connection.isReconnect with _ | _
    · simp [World.next, World.become, hreconnect, Thread.reRegisters]
    · exact ⟨fun _ => .inr rfl, by simp [World.next, World.become]⟩
  | storeProxy n remote =>
    cases remote <;> simp [World.next, World.pass, World.become, Thread.reRegisters]
  | findProxy u use =>
    simp only [World.next]
    split
    · cases use <;> simp [World.pass, World.got, Thread.reRegisters]
    · simp [World.pass, Thread.reRegisters]
  | awaitProxy use =>
    cases use <;> cases hproxy : world.connection.dataShareProxy <;>
      simp [World.next, World.pass, World.got, Thread.reRegisters, hproxy]
  | call proxy use =>
    cases use with
    | request => simp [World.next, World.pass, Thread.reRegisters]
    | registerObserverExtProvider | unregisterObserverExtProvider =>
      simp only [World.next]
      split <;> simp [World.pass, Thread.reRegisters]
  | record use => cases use <;> simp [World.next, World.pass, World.become, Thread.reRegisters]
  | task due u =>
    simp only [World.next]
    split
    · simp [World.pass, Thread.reRegisters]
    · split <;> simp [World.pass, World.connected, Thread.reRegisters]
  | loadInvalid n | clearProxy | reconnect u | connectNow u | delayConnect u | connect u use | clearUri =>
    simp only [World.next]
    split <;> simp [World.pass, World.become, World.connected, Thread.reRegisters]
  | _ => simp [World.next, World.become, World.pass, World.disconnected, Thread.reRegisters]

/-- What happens outside starts no re-registration. -/
theorem reRegisters_outside (world : World) (event : Outside) :
    ∀ t ∈ (world.outside event).2, t.reRegisters = false := by
  cases event with
  | tick ms => simp [World.outside]
  | user call => cases call <;> simp [World.outside, UserCall.thread, Thread.reRegisters]
  | connectDone n accepted =>
    simp only [World.outside]
    split
    · cases accepted <;> simp [Thread.reRegisters]
    · simp
  | lost n =>
    simp only [World.outside]
    split <;> simp [Thread.reRegisters]
  | exited => simp [World.outside, Thread.reRegisters]

/-- While observers are registered again `isReconnect_` is set. -/
theorem keeps_reconnecting : connectionMachine.Keeps fun pool =>
    ∀ thread ∈ pool.threads, thread.reRegisters = true →
      pool.shared.connection.isReconnect = true where
  outside event h := by
    intro thread hthread hworks
    refine (flags_outside _ event).2.trans ?_
    rcases List.mem_append.mp hthread with hold | hstarted
    · exact h thread hold hworks
    · exact absurd (reRegisters_outside _ event thread hstarted) (by simp [hworks])
  next := by
    intro pool i thread reply h hi t ht hworks
    obtain ⟨hmoved, hstarted⟩ := reRegisters_next pool.shared thread reply
    refine (flags_next pool.shared thread reply).2 ?_
    rcases Machine.mem_or_of_mem_set_append ht with hold | hnew
    · exact h t hold hworks
    · rcases List.mem_cons.mp hnew with rfl | hnew
      · exact (hmoved hworks).elim (h thread (List.mem_of_getElem? hi)) id
      · exact absurd (hstarted t hnew) (by simp [hworks])

section Step

variable {pool : ConnectionPool} {i : ℕ} {reply : Bool}

theorem Alone.proxy (h : Alone dataObserver uri pool (.advance i reply))
    {entries : List (ℕ × Param)} (hi : pool.threads[i]? = some (.loadProxy entries))
    (hentries : entries.any (concerns dataObserver uri) = true) :
    pool.shared.connection.dataShareProxy ≠ none := by
  simp only [Alone, hi] at h
  exact h hentries

theorem Alone.accepted (h : Alone dataObserver uri pool (.advance i reply)) {proxy : ℕ}
    {entry : ℕ × Param} {entries : List (ℕ × Param)}
    (hi : pool.threads[i]? = some (.reRegister proxy (entry :: entries)))
    (hentry : concerns dataObserver uri entry = true) :
    pool.shared.answers proxy reply = true := by
  simp only [Alone, hi] at h
  exact h hentry

theorem Alone.untouched_of_moveObservers (h : Alone dataObserver uri pool (.advance i reply))
    (hi : pool.threads[i]? = some .moveObservers) : Untouched dataObserver uri pool := by
  simpa only [Alone, hi] using h

theorem Alone.untouched_of_call (h : Alone dataObserver uri pool (.advance i reply)) {use : Use}
    (hi : pool.threads[i]? = some thread)
    (hthread : thread = .awaitProxy use ∨ ∃ u, thread = .findProxy u use)
    (huse : use.concerns dataObserver uri = true) : Untouched dataObserver uri pool := by
  rcases hthread with rfl | ⟨u, rfl⟩ <;> simp only [Alone, hi] at h <;> exact h huse

theorem Recorded.step {event : ConnectionEvent} (h : Recorded dataObserver uri pool log)
    (hallowed : Alone dataObserver uri pool event) :
    Recorded dataObserver uri (connectionMachine.step pool event).1
      (log ++ (connectionMachine.step pool event).2) := by
  refine Machine.step_invariant (P := Recorded dataObserver uri) h ?_ ?_
  · rintro e rfl
    obtain ⟨hstarted, hleaves⟩ := outside_leavesPair pool.shared e
    exact (OneWorker.mono h (fun hagrees => hagrees.of_leaves hleaves)
      fun thread _ hkeeps => hkeeps.of_leaves hleaves).append hstarted
  · rintro i reply thread rfl hi
    unfold Recorded
    refine OneWorker.advance h hi ?_ ?_ ?_
    · intro hworks hkeeps
      refine keeps_next reply hworks ?_ ?_ hkeeps
      · rintro entries rfl
        exact hallowed.proxy hi hworks
      · rintro proxy entry entries rfl hentry
        exact hallowed.accepted hi hentry
    · intro hworks hagrees hnone
      by_cases hmove : thread = .moveObservers
      · subst hmove
        exact keeps_moveObservers reply hagrees
      · have hleaves := leavesPair_of_not_worksOn pool.shared reply log hworks hmove
        obtain ⟨hstarted, hbegins⟩ := worksOn_next pool.shared reply hworks hmove
        suffices hone : OneWorker (Thread.worksOn dataObserver uri)
            (Agrees dataObserver uri (pool.shared.next thread reply).shared
              (log ++ (pool.shared.next thread reply).sent))
            (Thread.Keeps dataObserver uri (pool.shared.next thread reply).shared
              (log ++ (pool.shared.next thread reply).sent))
            [(pool.shared.next thread reply).thread] from hone.append hstarted
        rcases hmoved : (pool.shared.next thread reply).thread.worksOn dataObserver uri with _ | _
        · exact .nobody (by simpa using hmoved) (hagrees.of_leaves hleaves)
        · obtain ⟨⟨proxy, use, heq⟩, -⟩ := hbegins hmoved
          refine .single hmoved ?_
          rw [heq]
          exact hagrees.of_leaves hleaves
    · intro hworks worker hmem hworker hkeeps
      have hmove : thread ≠ .moveObservers := by
        rintro rfl
        exact absurd (hallowed.untouched_of_moveObservers hi worker hmem) (by simp [hworker])
      have hleaves := leavesPair_of_not_worksOn pool.shared reply log hworks hmove
      obtain ⟨hstarted, hbegins⟩ := worksOn_next pool.shared reply hworks hmove
      refine ⟨hkeeps.of_leaves hleaves, List.forall_mem_cons.mpr ⟨?_, hstarted⟩⟩
      by_contra hmoved
      obtain ⟨-, use, huse, hthread⟩ := hbegins (by simpa [connectionMachine] using hmoved)
      exact absurd (hallowed.untouched_of_call hi hthread huse worker hmem) (by simp [hworker])

/-- A callback of a reconnection that has yet to reach the pair. -/
def Thread.carries (dataObserver : ℕ) (uri : StdString) : Thread → Bool
  | .storeProxy _ (some _) | .loadInvalid _ | .exchangeReconnect | .moveObservers => true
  | .clearObservers entries | .loadProxy entries | .reRegister _ entries | .storeBack _ _ entries =>
    entries.any (concerns dataObserver uri)
  | _ => false

/-- It reaches the pair and registers it, unless the connection is released. -/
theorem carries_next (hi : pool.threads[i]? = some thread)
    (hallowed : Alone dataObserver uri pool (.advance i reply))
    (hreconnect : pool.shared.connection.isReconnect = true)
    (hstored : thread = .moveObservers →
      Stored dataObserver uri pool.shared.connection.observerExtsProvider)
    (h : thread.carries dataObserver uri = true) :
    (pool.shared.next thread reply).thread.carries dataObserver uri = true ∨
      .reRegistered dataObserver uri ∈ (pool.shared.next thread reply).sent ∨
        pool.shared.connection.isInvalid = true := by
  cases thread with
  | storeProxy n remote =>
    cases remote with
    | none => simp [Thread.carries] at h
    | some remoteObject => exact .inl rfl
  | loadInvalid n =>
    rcases hinvalid : pool.shared.connection.isInvalid with _ | _
    · exact .inl (by simp [World.next, World.pass, hinvalid, Thread.carries])
    · exact .inr (.inr rfl)
  | exchangeReconnect =>
    exact .inl (by simp [World.next, World.become, hreconnect, Thread.carries])
  | moveObservers => exact .inl (any_entriesOf.mpr (hstored rfl))
  | clearObservers entries => exact .inl h
  | loadProxy entries =>
    have hproxy := hallowed.proxy hi h
    simp only [World.next]
    split
    case h_1 hnone => exact absurd hnone hproxy
    case h_2 => exact .inl h
  | storeBack proxy entry entries => exact .inl h
  | reRegister proxy entries =>
    cases entries with
    | nil => simp [Thread.carries] at h
    | cons entry entries =>
      by_cases hentry : concerns dataObserver uri entry = true
      · have haccepted := hallowed.accepted hi hentry
        simp only [concerns, Bool.and_eq_true, decide_eq_true_eq] at hentry
        simp [World.next, haccepted, hentry]
      · have hrest : entries.any (concerns dataObserver uri) = true := by
          simpa [Thread.carries, hentry] using h
        simp only [World.next]
        split <;> exact .inl hrest
  | _ => simp [Thread.carries] at h

/-- As long as the callback has not registered the pair it is on the way to it, or the connection is
released. -/
def OnTheWay (dataObserver : ℕ) (uri : StdString) (i : ℕ) (pool : ConnectionPool)
    (log : List Message) : Prop :=
  (∃ thread, pool.threads[i]? = some thread ∧ thread.carries dataObserver uri = true) ∨
    .reRegistered dataObserver uri ∈ log ∨ pool.shared.connection.isInvalid = true

theorem OnTheWay.step {event : ConnectionEvent} (h : OnTheWay dataObserver uri i pool log)
    (hallowed : Alone dataObserver uri pool event)
    (hreconnect : pool.shared.connection.isReconnect = true)
    (hstored : (∃ reply, event = .advance i reply) → pool.threads[i]? = some .moveObservers →
      Stored dataObserver uri pool.shared.connection.observerExtsProvider) :
    OnTheWay dataObserver uri i (connectionMachine.step pool event).1
      (log ++ (connectionMachine.step pool event).2) := by
  have hinvalid (h : pool.shared.connection.isInvalid = true) :
      (connectionMachine.step pool event).1.shared.connection.isInvalid = true :=
    keeps_isInvalid.step h event
  rcases h with ⟨thread, hi, hcarries⟩ | hdone | hreleased
  · by_cases hown : ∃ reply, event = .advance i reply
    · obtain ⟨reply, rfl⟩ := hown
      rcases carries_next hi hallowed hreconnect (fun heq => hstored ⟨reply, rfl⟩ (heq ▸ hi))
        hcarries with hmoved | hsent | hreleased
      · exact .inl ⟨_, Machine.getElem?_step_self hi, hmoved⟩
      · refine .inr (.inl (List.mem_append_right _ ?_))
        rwa [Machine.step_advance_of_some hi]
      · exact .inr (.inr (hinvalid hreleased))
    · exact .inl ⟨thread, Machine.getElem?_step hi fun reply heq => hown ⟨reply, heq⟩, hcarries⟩
  · exact .inr (.inl (List.mem_append_left _ hdone))
  · exact .inr (.inr (hinvalid hreleased))

end Step

/-! ## Runs -/

section Runs

variable (dataObserver : ℕ) (uri : StdString)

/-- At every reconnection that is accepted when the pair is acknowledged, its callback has
registered the pair at the new proxy by when it returns, unless the pair was unregistered or the
connection released meanwhile. -/
def ReRegisteredAlways (pool : ConnectionPool) (events : List ConnectionEvent) : Prop :=
  ∀ before n callback after,
    events = before ++ .outside (.connectDone n true) :: (callback ++ after) →
    n ∈ (connectionMachine.run pool before).1.shared.ams.connecting →
    acknowledged dataObserver uri (connectionMachine.run pool before).2 = true →
    let returned := connectionMachine.run (connectionMachine.run pool before).1
      (.outside (.connectDone n true) :: callback)
    returned.1.threads[(connectionMachine.run pool before).1.threads.length]? = some .finished →
    returned.1.shared.connection.isInvalid = false →
    .unregistered dataObserver uri ∉ returned.2 → .reRegistered dataObserver uri ∈ returned.2

/-- A user's registration of the pair has reached the provider and is yet to be acknowledged. -/
def Registering (pool : ConnectionPool) : Prop :=
  ∃ thread ∈ pool.threads, ∃ isDescendants,
    thread = .record (.registerObserverExtProvider uri dataObserver isDescendants)

/-- The provider does not know the pair after its unregistration was acknowledged. -/
def StaysUnregistered (pool : ConnectionPool) (log : List Message) : Prop :=
  .unregistered dataObserver uri ∈ log → acknowledged dataObserver uri log = false →
    ¬ Registering dataObserver uri pool →
    (dataObserver, uri) ∉ pool.shared.provider.registrations

variable {dataObserver uri}

theorem recorded_initial (providerUri : StdString) (clock : ℤ) :
    Recorded dataObserver uri ⟨World.initial providerUri clock, []⟩ [] :=
  .nobody (by simp) ⟨by simp [World.initial, DataShareConnection.new, stored_empty, acknowledged],
    by simp [World.initial]⟩

theorem Recorded.run {pool : ConnectionPool} {events : List ConnectionEvent}
    (h : AllowedRun connectionMachine.step (Alone dataObserver uri) pool events)
    (hinit : Recorded dataObserver uri pool []) :
    Recorded dataObserver uri (connectionMachine.run pool events).1
      (connectionMachine.run pool events).2 :=
  h.invariant (P := Recorded dataObserver uri) hinit fun _ _ _ hallowed h => h.step hallowed

theorem Recorded.staysUnregistered {pool : ConnectionPool} {log : List Message}
    (h : Recorded dataObserver uri pool log) : StaysUnregistered dataObserver uri pool log := by
  intro _ hack hregistering
  rcases h with ⟨-, hagrees⟩ | ⟨worker, rest, hperm, hworks, -, hkeeps⟩
  · exact hagrees.gone hack
  · have hmem : worker ∈ pool.threads := hperm.mem_iff.mpr List.mem_cons_self
    cases worker with
    | clearObservers entries => exact hkeeps.2 hack
    | loadProxy | reRegister | storeBack => exact absurd (hack.symm.trans hkeeps) (by simp)
    | record use =>
      cases use with
      | registerObserverExtProvider u o isDescendants =>
        simp only [Thread.worksOn, Use.concerns, Bool.and_eq_true, decide_eq_true_eq] at hworks
        obtain ⟨rfl, rfl⟩ := hworks
        exact absurd ⟨_, hmem, isDescendants, rfl⟩ hregistering
      | unregisterObserverExtProvider => exact hkeeps.2
      | request => exact Agrees.gone hkeeps hack
    | _ => exact Agrees.gone hkeeps hack

/-- What is acknowledged stays so until it is unregistered. -/
theorem acknowledged_append_of_notMem {sent : List Message}
    (h : acknowledged dataObserver uri log = true) (hsent : .unregistered dataObserver uri ∉ sent) :
    acknowledged dataObserver uri (log ++ sent) = true := by
  rw [acknowledged_append, h]
  refine List.foldlRecOn sent (acknowledges dataObserver uri) (motive := (· = true)) rfl ?_
  rintro before rfl message hmessage
  cases message with
  | unregistered o u =>
    have hne : ¬(o = dataObserver ∧ u = uri) := by
      rintro ⟨rfl, rfl⟩
      exact hsent hmessage
    simpa [acknowledges, ← not_and_or] using hne
  | registered => rfl
  | _ => rfl

/-- What is acknowledged is stored, or in the hands of a re-registration. -/
theorem Recorded.stored_or_reRegisters {pool : ConnectionPool} {log : List Message}
    (h : Recorded dataObserver uri pool log) (hack : acknowledged dataObserver uri log = true) :
    Stored dataObserver uri pool.shared.connection.observerExtsProvider ∨
      ∃ thread ∈ pool.threads, thread.reRegisters = true := by
  rcases h with ⟨-, hagrees⟩ | ⟨worker, rest, hperm, hworks, -, hkeeps⟩
  · exact .inl (hagrees.stored.mpr hack)
  · have hmem : worker ∈ pool.threads := hperm.mem_iff.mpr List.mem_cons_self
    cases worker with
    | clearObservers | loadProxy | reRegister | storeBack => exact .inr ⟨_, hmem, rfl⟩
    | record use =>
      cases use with
      | registerObserverExtProvider => exact .inl (Iff.mpr hkeeps hack)
      | unregisterObserverExtProvider => exact .inl (hkeeps.1.mpr hack)
      | request => exact .inl (hkeeps.stored.mpr hack)
    | _ => exact .inl ((Agrees.stored hkeeps).mpr hack)

theorem threads_connectDone {pool : ConnectionPool} {n : ℕ}
    (hn : n ∈ pool.shared.ams.connecting) :
    (connectionMachine.step pool (.outside (.connectDone n true))).1.threads =
      pool.threads ++ [.storeProxy n (some pool.shared.provider.process)] := by
  change pool.threads ++ (pool.shared.outside (.connectDone n true)).2 = _
  rw [World.outside, if_pos hn, if_pos rfl]

/-- What is known of the callback since its reconnection was accepted. -/
structure Returning (dataObserver : ℕ) (uri : StdString) (i : ℕ) (before : List Message)
    (pool : ConnectionPool) (log : List Message) : Prop where
  recorded : Recorded dataObserver uri pool (before ++ log)
  reconnects : pool.shared.connection.isReconnect = true
  way : .unregistered dataObserver uri ∉ log →
    acknowledged dataObserver uri (before ++ log) = true ∧ OnTheWay dataObserver uri i pool log

theorem Returning.step {pool : ConnectionPool} {i : ℕ} {before log : List Message}
    {event : ConnectionEvent} (h : Returning dataObserver uri i before pool log)
    (hallowed : Alone dataObserver uri pool event) :
    Returning dataObserver uri i before (connectionMachine.step pool event).1
      (log ++ (connectionMachine.step pool event).2) where
  recorded := by
    rw [← List.append_assoc]
    exact h.recorded.step hallowed
  reconnects := keeps_isReconnect.step h.reconnects event
  way := fun hnot => by
    rw [List.mem_append, not_or] at hnot
    obtain ⟨hack, hway⟩ := h.way hnot.1
    rw [← List.append_assoc]
    refine ⟨acknowledged_append_of_notMem hack hnot.2, hway.step hallowed h.reconnects ?_⟩
    rintro ⟨reply, rfl⟩ hi
    exact (h.recorded.idle_of_none (hallowed.untouched_of_moveObservers hi)).stored.mpr hack

/-- The callback of an accepted reconnection registers what is acknowledged. -/
theorem reRegistered_of_accepted {pool : ConnectionPool} {log : List Message} {n : ℕ}
    {callback : List ConnectionEvent} (hrecorded : Recorded dataObserver uri pool log)
    (hreconnecting : ∀ thread ∈ pool.threads, thread.reRegisters = true →
      pool.shared.connection.isReconnect = true)
    (h : AllowedRun connectionMachine.step (Alone dataObserver uri) pool
      (.outside (.connectDone n true) :: callback))
    (hn : n ∈ pool.shared.ams.connecting) (hack : acknowledged dataObserver uri log = true)
    {returned : ConnectionPool × List Message}
    (hreturned : connectionMachine.run pool (.outside (.connectDone n true) :: callback) = returned)
    (hfinished : returned.1.threads[pool.threads.length]? = some .finished)
    (hvalid : returned.1.shared.connection.isInvalid = false)
    (hkept : .unregistered dataObserver uri ∉ returned.2) :
    .reRegistered dataObserver uri ∈ returned.2 := by
  have haccept := h [] _ callback rfl
  -- an earlier callback has asked before the pair was taken out of the store
  have hreconnect : pool.shared.connection.isReconnect = true := by
    rcases hrecorded.stored_or_reRegisters hack with hstored | ⟨thread, hthread, hworks⟩
    · exact haccept hn hstored
    · exact hreconnecting thread hthread hworks
  have hstart : (connectionMachine.step pool (.outside (.connectDone n true))).1.threads[
      pool.threads.length]? = some (.storeProxy n (some pool.shared.provider.process)) := by
    rw [threads_connectDone hn]
    exact List.getElem?_concat_length
  have hreturning : Returning dataObserver uri pool.threads.length log
      (connectionMachine.step pool (.outside (.connectDone n true))).1 [] := by
    refine ⟨hrecorded.step haccept, keeps_isReconnect.step hreconnect _, fun _ => ?_⟩
    exact ⟨by rwa [List.append_nil], .inl ⟨_, hstart, rfl⟩⟩
  have hcallback : AllowedRun connectionMachine.step (Alone dataObserver uri)
      (connectionMachine.step pool (.outside (.connectDone n true))).1 callback := by
    rintro front event back rfl
    have := h (.outside (.connectDone n true) :: front) event back rfl
    rwa [runCalls_cons] at this
  have hrun := hcallback.invariant (P := Returning dataObserver uri pool.threads.length log)
    hreturning fun pool' log' event hallowed h => h.step hallowed
  rw [Machine.run, runCalls_cons] at hreturned
  subst hreturned
  rcases (hrun.way hkept).2 with ⟨thread, hthread, hcarries⟩ | hdone | hreleased
  · obtain rfl := Option.some_inj.mp (hfinished.symm.trans hthread)
    simp [Thread.carries] at hcarries
  · exact hdone
  · exact absurd (hvalid.symm.trans hreleased) (by simp)

theorem reRegisteredAlways_of_alone {pool : ConnectionPool} {events : List ConnectionEvent}
    (h : AllowedRun connectionMachine.step (Alone dataObserver uri) pool events)
    (hinit : Recorded dataObserver uri pool [])
    (hreconnecting : ∀ thread ∈ pool.threads, thread.reRegisters = true →
      pool.shared.connection.isReconnect = true) :
    ReRegisteredAlways dataObserver uri pool events := by
  rintro before n callback after rfl hn hack returned
  obtain ⟨hbefore, hrest⟩ := h.of_append
  rw [← List.cons_append] at hrest
  exact reRegistered_of_accepted (Recorded.run hbefore hinit)
    (keeps_reconnecting.run hreconnecting before) hrest.of_append.1 hn hack rfl

end Runs

/-- In a run in which no two threads work on the pair at a time and every re-registration of it
succeeds, an observer that is acknowledged is registered again at every reconnection, and one whose
unregistration was acknowledged is not registered at the provider afterwards. -/
theorem observers_survive_reconnection (dataObserver : ℕ) (uri providerUri : StdString) (clock : ℤ)
    (events : List ConnectionEvent) (h : AllowedRun connectionMachine.step (Alone dataObserver uri)
      ⟨World.initial providerUri clock, []⟩ events) :
    ReRegisteredAlways dataObserver uri ⟨World.initial providerUri clock, []⟩ events ∧
      StaysUnregistered dataObserver uri (runConnection providerUri clock events).1
        (runConnection providerUri clock events).2 :=
  ⟨reRegisteredAlways_of_alone h (recorded_initial providerUri clock) (by simp),
    (Recorded.run h (recorded_initial providerUri clock)).staysUnregistered⟩

/-- Observer 7 is registered, and the provider exits and is connected again. -/
def registeredAndExited : List ConnectionEvent :=
  firstConnect ++
    ([.outside (.user (.getDataShareProxy [47] (.registerObserverExtProvider [65] 7 true)))] :
      List ConnectionEvent) ++
    steps 2 3 ++ ([.outside .exited] : List ConnectionEvent) ++ steps 3 4 ++
    ([.outside (.connectDone 1 true)] : List ConnectionEvent)

/-- The provider exits once more : the callback of this and the task that reconnects are threads `i` and
`i + 1`. -/
def exitedAgain (i : ℕ) : List ConnectionEvent :=
  ([.outside .exited] : List ConnectionEvent) ++ steps i 3 ++
    ([.outside (.tick 10000)] : List ConnectionEvent) ++ steps (i + 1) 2

/-- The second reconnection is accepted, and its callback makes `n` steps. -/
def connectedAgain (i n : ℕ) : List ConnectionEvent :=
  .outside (.connectDone 2 true) :: steps i n

/-- The first re-registration is refused, and the provider exits once more. -/
def refusedOnce : List ConnectionEvent :=
  registeredAndExited ++ steps 4 6 ++ ([.advance 4 false] : List ConnectionEvent) ++ steps 4 1 ++
    exitedAgain 5

/-- The user unregisters the observer between its re-registration and its way back into the store. The
next reconnection registers it again. -/
def unregisteredMeanwhile : List ConnectionEvent :=
  registeredAndExited ++ steps 4 7 ++
    ([.outside (.user (.getDataShareProxy [47] (.unregisterObserverExtProvider [65] 7)))] :
      List ConnectionEvent) ++
    steps 5 3 ++ steps 4 2 ++ exitedAgain 6 ++ connectedAgain 8 9

/-- An observer whose re-registration was refused once is never registered again, and one that was
unregistered while it was registered again comes back. -/
theorem observers_lost_or_resurrected :
    ¬ ReRegisteredAlways 7 [65] ⟨World.initial [47] 0, []⟩ (refusedOnce ++ connectedAgain 7 7) ∧
      ¬ StaysUnregistered 7 [65] (runConnection [47] 0 unregisteredMeanwhile).1
        (runConnection [47] 0 unregisteredMeanwhile).2 := by
  constructor
  · intro h
    have := h refusedOnce 2 (steps 7 7) [] rfl (by decide +kernel) (by decide +kernel)
      (by decide +kernel) (by decide +kernel) (by decide +kernel)
    revert this
    decide +kernel
  · intro h
    refine h (by decide +kernel) (by decide +kernel) ?_ (by decide +kernel)
    unfold Registering
    decide +kernel

/-- Two exits of the provider, the observer unregistered after the second reconnection. -/
theorem observers_survive_reconnection_twice :
    ReRegisteredAlways 7 [65] ⟨World.initial [47] 0, []⟩
        (registeredAndExited ++ steps 4 9 ++ exitedAgain 5 ++ connectedAgain 7 9 ++
          ([.outside (.user (.getDataShareProxy [47] (.unregisterObserverExtProvider [65] 7)))] :
            List ConnectionEvent) ++ steps 8 3) ∧
      StaysUnregistered 7 [65]
        (runConnection [47] 0 (registeredAndExited ++ steps 4 9 ++ exitedAgain 5 ++
          connectedAgain 7 9 ++
          ([.outside (.user (.getDataShareProxy [47] (.unregisterObserverExtProvider [65] 7)))] :
            List ConnectionEvent) ++ steps 8 3)).1
        (runConnection [47] 0 (registeredAndExited ++ steps 4 9 ++ exitedAgain 5 ++
          connectedAgain 7 9 ++
          ([.outside (.user (.getDataShareProxy [47] (.unregisterObserverExtProvider [65] 7)))] :
            List ConnectionEvent) ++ steps 8 3)).2 :=
  observers_survive_reconnection 7 [65] [47] 0 _ (throughout_iff_getElem.mpr (by decide +kernel))

end Cpp

end DataShare
