import DataShare.RdbSubscriberManager
import DataShare.History

/-!
# Observers and the service

The calls of a Rust manager are, for one key, a list of events : each with the requests a call has
sent for the key, the codes it reported, and the entries it has left. An observer is dead if its call
reported success, it is enabled, and the service does not hold the key as subscribed and enabled, and a
key with no enabled observer, or whose last registration failed, is to be registered again with the
next `add_observers`. `NoDeadObserver` excludes both.

`KeyMove` is all that a call of either manager does to a key. The managers do not take back all
registrations that fail : a failure is `stuck` where the observers stay enabled. As long as no such key
is registered or enabled again before it is given up (`Backed`), there is no dead observer
(`noDeadObserver_of_backed`).
-/

namespace DataShare.Rust

/-- What a call did to a key. -/
structure KeyEvent (κ ω : Type) where
  subscriber : ℕ
  /-- How often the key is named, if the call is an `add_observers` or `enable_observers`. -/
  named : ℕ
  adds : Bool
  sent : List (Request κ)
  codes : List Int
  entries : List (SubscriberEntry ω)

variable {κ ω : Type}

/-- The subscriber has an enabled entry. -/
def HoldsEnabled (subscriber : ℕ) (entries : List (SubscriberEntry ω)) : Prop :=
  ∃ entry ∈ entries, entry.subscriber = subscriber ∧ entry.enabled = true

instance (subscriber : ℕ) (entries : List (SubscriberEntry ω)) :
    Decidable (HoldsEnabled subscriber entries) :=
  inferInstanceAs (Decidable (∃ entry ∈ entries, _))

/-- The entries the key is left with. -/
def lastEntries (events : List (KeyEvent κ ω)) : List (SubscriberEntry ω) :=
  (events.getLast?.map KeyEvent.entries).getD []

/-- The requests for the key. -/
def sentAll (events : List (KeyEvent κ ω)) : List (Request κ) :=
  events.flatMap KeyEvent.sent

/-- What the service holds for the key. -/
def heldBy (events : List (KeyEvent κ ω)) : Subscription :=
  (sentAll events).foldl Subscription.apply ⟨false, false⟩

/-- A request to subscribe or enable the key. -/
def registers (r : Request κ) : Bool :=
  r.kind = .subscribe ∨ r.kind = .enable

/-- The service did not do what the last subscription or enabling of the key asked for. -/
def FailedLast (events : List (KeyEvent κ ω)) : Prop :=
  ∃ r, ((sentAll events).filter registers).getLast? = some r ∧ r.answer.takesEffect = false

/-- A call of the subscriber that adds or enables observers of the key reported success for it. -/
def KeyEvent.Reports (subscriber : ℕ) (e : KeyEvent κ ω) : Prop :=
  0 < e.named ∧ e.subscriber = subscriber ∧ errOk ∈ e.codes

instance (subscriber : ℕ) (e : KeyEvent κ ω) : Decidable (e.Reports subscriber) :=
  inferInstanceAs (Decidable (_ ∧ _))

/-- Success was reported to the subscriber, and it has had an enabled entry ever since. -/
def Reported (subscriber : ℕ) (events : List (KeyEvent κ ω)) : Prop :=
  Since (fun _ e => e.Reports subscriber) (fun history => HoldsEnabled subscriber (lastEntries history))
    events

/-- A subscriber that was told so is registered, and a key without an enabled observer, or with one
that could not be registered, is subscribed again. -/
structure NoDeadObserver (events : List (KeyEvent κ ω)) : Prop where
  on : ∀ subscriber, Reported subscriber events → heldBy events = ⟨true, true⟩
  contacts : ∀ before e rest, events = before ++ e :: rest → e.adds = true →
    anyEnabled (lastEntries before) = false ∨ FailedLast before →
      ∃ r ∈ e.sent, r.kind = .subscribe

/-! ## Condition -/

/-- A registration of the key got stuck, and the key has had observers ever since. -/
def DeadKey (stuck : Answer → Bool) (events : List (KeyEvent κ ω)) : Prop :=
  Since (fun _ e => 0 < e.named ∧ ∃ r ∈ e.sent, stuck r.answer = true)
    (fun history => lastEntries history ≠ []) events

/-- The call does not add to a dead key, nor enable it, and no registration gets stuck of a key that
it names more than once. -/
structure Backed (stuck : Answer → Bool) (before : List (KeyEvent κ ω)) (e : KeyEvent κ ω) : Prop where
  alive : 0 < e.named → ¬ DeadKey stuck before
  once : 1 < e.named → ∀ r ∈ e.sent, stuck r.answer = false

/-! ## What a call does to a key -/

/-- All that a call can do to the entries `before` of a key. -/
inductive KeyMove (stuck : Answer → Bool) (before : List (SubscriberEntry ω)) (e : KeyEvent κ ω) :
    Prop
  /-- The call removes or disables observers, if it is about the key at all. -/
  | taken (named : e.named = 0) (adds : e.adds = false)
      (kinds : ∀ r ∈ e.sent, r.kind = .unsubscribe ∧ e.entries = [] ∨
        r.kind = .disable ∧ anyEnabled e.entries = false)
      (left : e.entries ≠ [] → before ≠ [])
      (enabled : ∀ subscriber, HoldsEnabled subscriber e.entries → HoldsEnabled subscriber before)
  /-- The call is answered without the service. -/
  | answered (named : 0 < e.named) (sent : e.sent = []) (left : e.entries ≠ [] → before ≠ [])
      (enabled : anyEnabled e.entries = true → anyEnabled before = true)
      (adds : e.adds = true → anyEnabled before = true)
  /-- The service is asked for the first enabled observer. -/
  | asked (r : Request κ) (named : 0 < e.named) (sent : e.sent = [r])
      (first : anyEnabled before = false)
      (kind : r.kind = if e.adds then .subscribe else .enable)
      (present : e.adds = false → before ≠ [])
      (undone : r.answer.takesEffect = false → stuck r.answer = false →
        anyEnabled e.entries = false ∧ (e.entries ≠ [] → before ≠ []))
      (reported : e.named = 1 → errOk ∈ e.codes → r.answer.takesEffect = true)

/-! ## Backed events -/

section Runs

variable {stuck : Answer → Bool} {events : List (KeyEvent κ ω)} {e : KeyEvent κ ω} {subscriber : ℕ}
  {entries : List (SubscriberEntry ω)}

theorem HoldsEnabled.anyEnabled (h : HoldsEnabled subscriber entries) : anyEnabled entries = true := by
  obtain ⟨entry, hentry, -, henabled⟩ := h
  exact List.any_eq_true.mpr ⟨entry, hentry, henabled⟩

theorem exists_holdsEnabled (h : anyEnabled entries = true) : ∃ s, HoldsEnabled s entries := by
  obtain ⟨entry, hentry, henabled⟩ := List.any_eq_true.mp h
  exact ⟨entry.subscriber, entry, hentry, rfl, henabled⟩

theorem ne_nil_of_anyEnabled (h : anyEnabled entries = true) : entries ≠ [] := by
  rintro rfl
  exact Bool.false_ne_true h

@[simp] theorem lastEntries_concat : lastEntries (events ++ [e]) = e.entries := by
  simp [lastEntries]

@[simp] theorem lastEntries_nil : lastEntries ([] : List (KeyEvent κ ω)) = [] :=
  rfl

theorem sentAll_concat : sentAll (events ++ [e]) = sentAll events ++ e.sent := by
  simp [sentAll]

theorem heldBy_concat : heldBy (events ++ [e]) = e.sent.foldl Subscription.apply (heldBy events) := by
  unfold heldBy
  rw [sentAll_concat, List.foldl_append]

theorem reported_concat : Reported subscriber (events ++ [e]) ↔
    HoldsEnabled subscriber e.entries ∧ (e.Reports subscriber ∨ Reported subscriber events) := by
  unfold Reported
  rw [since_concat, lastEntries_concat]

theorem Reported.holds (h : Reported subscriber events) :
    HoldsEnabled subscriber (lastEntries events) := by
  have hnow := Since.now h
  exact hnow

theorem deadKey_concat : DeadKey stuck (events ++ [e]) ↔ e.entries ≠ [] ∧
    ((0 < e.named ∧ ∃ r ∈ e.sent, stuck r.answer = true) ∨ DeadKey stuck events) := by
  unfold DeadKey
  rw [since_concat, lastEntries_concat]

theorem failedLast_concat_of_none (h : ∀ r ∈ e.sent, registers r = false) :
    FailedLast (events ++ [e]) ↔ FailedLast events := by
  have hnone : e.sent.filter registers = [] :=
    List.filter_eq_nil_iff.mpr fun r hr => by simp [h r hr]
  unfold FailedLast
  rw [sentAll_concat, List.filter_append, hnone, List.append_nil]

theorem failedLast_concat_of_singleton {r : Request κ} (hsent : e.sent = [r])
    (hr : registers r = true) : FailedLast (events ++ [e]) ↔ r.answer.takesEffect = false := by
  have hone : e.sent.filter registers = [r] := by
    rw [hsent, List.filter_cons_of_pos hr, List.filter_nil]
  unfold FailedLast
  rw [sentAll_concat, List.filter_append, hone, List.getLast?_append]
  simp

/-- What a key that is not dead has at the service, and that nothing is reported of one that is. -/
structure Alive (stuck : Answer → Bool) (events : List (KeyEvent κ ω)) : Prop where
  subscribed : ¬ DeadKey stuck events → lastEntries events ≠ [] → (heldBy events).subscribed = true
  on : ¬ DeadKey stuck events → anyEnabled (lastEntries events) = true →
    heldBy events = ⟨true, true⟩
  unreported : DeadKey stuck events → ∀ subscriber, ¬ Reported subscriber events
  failed : FailedLast events → anyEnabled (lastEntries events) = true → DeadKey stuck events

theorem alive_nil : Alive stuck ([] : List (KeyEvent κ ω)) where
  subscribed _ h := absurd rfl h
  on _ h := absurd h Bool.false_ne_true
  unreported h := absurd h not_since_nil
  failed := by
    rintro ⟨r, hr, -⟩
    cases hr

/-- A call that takes observers away reports nothing, and leaves a dead key dead until it has none. -/
theorem Alive.taken (h : Alive stuck events) (named : e.named = 0)
    (kinds : ∀ r ∈ e.sent, r.kind = .unsubscribe ∧ e.entries = [] ∨
      r.kind = .disable ∧ anyEnabled e.entries = false)
    (left : e.entries ≠ [] → lastEntries events ≠ [])
    (enabled : ∀ s, HoldsEnabled s e.entries → HoldsEnabled s (lastEntries events)) :
    Alive stuck (events ++ [e]) := by
  have hnotNamed : ¬ 0 < e.named := Nat.not_lt.mpr (Nat.le_of_eq named)
  have hdead : DeadKey stuck (events ++ [e]) ↔ e.entries ≠ [] ∧ DeadKey stuck events := by
    rw [deadKey_concat]
    simp [named]
  have hany (he : anyEnabled e.entries = true) : anyEnabled (lastEntries events) = true := by
    obtain ⟨s, hs⟩ := exists_holdsEnabled he
    exact (enabled s hs).anyEnabled
  have hnone : ∀ r ∈ e.sent, registers r = false := fun r hr => by
    rcases kinds r hr with ⟨hkind, -⟩ | ⟨hkind, -⟩ <;> simp [registers, hkind]
  constructor
  · intro hnot hne
    rw [lastEntries_concat] at hne
    rw [heldBy_concat]
    refine foldl_apply_induction (P := fun sub => sub.subscribed = true) (fun r hr sub hsub => ?_)
      (h.subscribed (fun hd => hnot (hdead.mpr ⟨hne, hd⟩)) (left hne))
    rcases kinds r hr with ⟨-, hnil⟩ | ⟨hkind, -⟩
    · exact absurd hnil hne
    · rw [hkind]
      exact hsub
  · intro hnot he
    rw [lastEntries_concat] at he
    have hne := ne_nil_of_anyEnabled he
    have hsent : e.sent = [] := List.eq_nil_iff_forall_not_mem.mpr fun r hr => by
      rcases kinds r hr with ⟨-, hnil⟩ | ⟨-, hdisabled⟩
      · exact hne hnil
      · rw [hdisabled] at he
        exact Bool.false_ne_true he
    rw [heldBy_concat, hsent]
    exact h.on (fun hd => hnot (hdead.mpr ⟨hne, hd⟩)) (hany he)
  · intro hd s hreported
    rcases (reported_concat.mp hreported).2 with ⟨hpos, -⟩ | hbefore
    · exact hnotNamed hpos
    · exact h.unreported (hdead.mp hd).2 s hbefore
  · intro hfailed he
    rw [failedLast_concat_of_none hnone] at hfailed
    rw [lastEntries_concat] at he
    exact hdead.mpr ⟨ne_nil_of_anyEnabled he, h.failed hfailed (hany he)⟩

theorem Alive.answered (h : Alive stuck events) (halive : ¬ DeadKey stuck events)
    (sent : e.sent = []) (left : e.entries ≠ [] → lastEntries events ≠ [])
    (enabled : anyEnabled e.entries = true → anyEnabled (lastEntries events) = true) :
    Alive stuck (events ++ [e]) := by
  have hdead : ¬ DeadKey stuck (events ++ [e]) := by
    rw [deadKey_concat, sent]
    simp [halive]
  have hheld : heldBy (events ++ [e]) = heldBy events := by
    rw [heldBy_concat, sent]
    rfl
  have hnone : ∀ r ∈ e.sent, registers r = false := by simp [sent]
  constructor
  · intro _ hne
    rw [lastEntries_concat] at hne
    rw [hheld]
    exact h.subscribed halive (left hne)
  · intro _ he
    rw [lastEntries_concat] at he
    rw [hheld]
    exact h.on halive (enabled he)
  · exact fun hd => absurd hd hdead
  · intro hfailed he
    rw [failedLast_concat_of_none hnone] at hfailed
    rw [lastEntries_concat] at he
    exact absurd (h.failed hfailed (enabled he)) halive

/-- A registration at the service that took effect. -/
theorem held_of_takesEffect {sub : Subscription} {r : Request κ} {adds : Bool}
    (kind : r.kind = if adds then .subscribe else .enable) (heffect : r.answer.takesEffect = true)
    (hsub : adds = false → sub.subscribed = true) : sub.apply r = ⟨true, true⟩ := by
  unfold Subscription.apply
  rw [if_pos heffect, kind]
  cases adds with
  | true => rfl
  | false => exact congrArg (Subscription.mk · true) (hsub rfl)

theorem Alive.asked (h : Alive stuck events) (halive : ¬ DeadKey stuck events)
    (hstuck : ∀ answer, stuck answer = true → answer.takesEffect = false) {r : Request κ}
    (named : 0 < e.named) (once : 1 < e.named → ∀ r ∈ e.sent, stuck r.answer = false)
    (sent : e.sent = [r]) (first : anyEnabled (lastEntries events) = false)
    (kind : r.kind = if e.adds then .subscribe else .enable)
    (present : e.adds = false → lastEntries events ≠ [])
    (undone : r.answer.takesEffect = false → stuck r.answer = false →
      anyEnabled e.entries = false ∧ (e.entries ≠ [] → lastEntries events ≠ []))
    (reported : e.named = 1 → errOk ∈ e.codes → r.answer.takesEffect = true) :
    Alive stuck (events ++ [e]) := by
  have hregisters : registers r = true := by
    unfold registers
    cases hadds : e.adds <;> simp [kind, hadds]
  have hheld : heldBy (events ++ [e]) = (heldBy events).apply r := by
    rw [heldBy_concat, sent]
    rfl
  have hdead : DeadKey stuck (events ++ [e]) ↔ e.entries ≠ [] ∧ stuck r.answer = true := by
    rw [deadKey_concat, sent]
    simp [named, halive]
  have hfailed : FailedLast (events ++ [e]) ↔ r.answer.takesEffect = false :=
    failedLast_concat_of_singleton sent hregisters
  have hnotBefore (s : ℕ) : ¬ Reported s events := fun hbefore => by
    rw [hbefore.holds.anyEnabled] at first
    exact Bool.false_ne_true first.symm
  cases heffect : r.answer.takesEffect with
  | true =>
    have hon : heldBy (events ++ [e]) = ⟨true, true⟩ := hheld.trans
      (held_of_takesEffect kind heffect fun hadds => h.subscribed halive (present hadds))
    have hnot : ¬ DeadKey stuck (events ++ [e]) := fun hd => by
      rw [hstuck r.answer (hdead.mp hd).2] at heffect
      exact Bool.false_ne_true heffect
    refine ⟨fun _ _ => by rw [hon], fun _ _ => hon, fun hd => absurd hd hnot, fun hf => ?_⟩
    rw [hfailed, heffect] at hf
    exact absurd hf.symm Bool.false_ne_true
  | false =>
    cases hanswer : stuck r.answer with
    | true =>
      have hd (hne : e.entries ≠ []) : DeadKey stuck (events ++ [e]) := hdead.mpr ⟨hne, hanswer⟩
      refine ⟨fun hnot hne => ?_, fun hnot he => ?_, fun _ s hreported => ?_, fun _ he => ?_⟩
      · rw [lastEntries_concat] at hne
        exact absurd (hd hne) hnot
      · rw [lastEntries_concat] at he
        exact absurd (hd (ne_nil_of_anyEnabled he)) hnot
      · -- The service was asked for the one mention of the key, and reported the failure.
        rcases (reported_concat.mp hreported).2 with ⟨-, -, hok⟩ | hbefore
        · have hone : ¬ 1 < e.named := fun hmore => by
            have hfine := once hmore r (sent ▸ List.mem_singleton_self r)
            rw [hanswer] at hfine
            exact Bool.false_ne_true hfine.symm
          have heffect' := reported (by omega) hok
          rw [heffect] at heffect'
          exact Bool.false_ne_true heffect'
        · exact hnotBefore s hbefore
      · rw [lastEntries_concat] at he
        exact hd (ne_nil_of_anyEnabled he)
    | false =>
      obtain ⟨hdisabled, left⟩ := undone heffect hanswer
      have hnot : ¬ DeadKey stuck (events ++ [e]) := fun hd => by
        rw [hanswer] at hdead
        exact Bool.false_ne_true (hdead.mp hd).2
      have hsame : heldBy (events ++ [e]) = heldBy events := by
        rw [hheld, Subscription.apply, heffect]
        rfl
      refine ⟨fun _ hne => ?_, fun _ he => ?_, fun hd => absurd hd hnot, fun _ he => ?_⟩
      · rw [lastEntries_concat] at hne
        rw [hsame]
        exact h.subscribed halive (left hne)
      · rw [lastEntries_concat, hdisabled] at he
        exact absurd he Bool.false_ne_true
      · rw [lastEntries_concat, hdisabled] at he
        exact absurd he Bool.false_ne_true

/-- What all events keep that are moves, and backed. -/
theorem alive_of_backed (hstuck : ∀ answer, stuck answer = true → answer.takesEffect = false)
    (hmoves : Throughout (fun before e => KeyMove stuck (lastEntries before) e) events)
    (hbacked : Throughout (Backed stuck) events) : Alive stuck events := by
  induction events using List.reverseRecOn with
  | nil => exact alive_nil
  | append_singleton events e ih =>
    obtain ⟨hmoves, hmove⟩ := throughout_concat.mp hmoves
    obtain ⟨hbacked, halive, once⟩ := throughout_concat.mp hbacked
    have h := ih hmoves hbacked
    cases hmove with
    | taken named adds kinds left enabled => exact h.taken named kinds left enabled
    | answered named sent left enabled adds => exact h.answered (halive named) sent left enabled
    | asked r named sent first kind present undone reported =>
      exact h.asked (halive named) hstuck named once sent first kind present undone reported

/-- A run of moves that adds to no dead key has no dead observer. -/
theorem noDeadObserver_of_backed
    (hstuck : ∀ answer, stuck answer = true → answer.takesEffect = false)
    (hmoves : Throughout (fun before e => KeyMove stuck (lastEntries before) e) events)
    (hbacked : Throughout (Backed stuck) events) : NoDeadObserver events := by
  have halive := alive_of_backed hstuck hmoves hbacked
  refine ⟨fun s hreported => ?_, fun before e rest heq hadds hask => ?_⟩
  · have hnot : ¬ DeadKey stuck events := fun hd => halive.unreported hd s hreported
    exact halive.on hnot hreported.holds.anyEnabled
  · have hmove := hmoves before e rest heq
    have halone := (hbacked before e rest heq).alive
    subst heq
    have hbefore := alive_of_backed hstuck hmoves.of_append hbacked.of_append
    cases hmove with
    | taken named adds kinds left enabled =>
      rw [hadds] at adds
      exact absurd adds.symm Bool.false_ne_true
    | answered named sent left enabled adds =>
      -- An enabled observer whose registration failed makes a dead key.
      have henabled := adds hadds
      rcases hask with hdisabled | hfailed
      · rw [henabled] at hdisabled
        exact absurd hdisabled.symm Bool.false_ne_true
      · exact absurd (hbefore.failed hfailed henabled) (halone named)
    | asked r named sent first kind present undone reported =>
      rw [hadds] at kind
      exact ⟨r, sent ▸ List.mem_singleton_self r, kind⟩

end Runs

/-! ## The events of a run -/

section Events

variable {σ ι : Type}

/-- The events of a run. -/
def eventsOf (next : σ → ι → σ) (event : σ → ι → KeyEvent κ ω) (init : σ) (calls : List ι) :
    List (KeyEvent κ ω) :=
  (runCalls (fun state call => (next state call, [event state call])) init calls).2

variable {next : σ → ι → σ} {event : σ → ι → KeyEvent κ ω} {init : σ} {calls : List ι} {call : ι}

theorem eventsOf_concat : eventsOf next event init (calls ++ [call]) =
    eventsOf next event init calls ++ [event (calls.foldl next init) call] := by
  unfold eventsOf
  rw [runCalls_concat, advance, runCalls_fst]

theorem lastEntries_eventsOf {entriesFor : σ → List (SubscriberEntry ω)}
    (hinit : entriesFor init = [])
    (hentries : ∀ state call, (event state call).entries = entriesFor (next state call)) :
    lastEntries (eventsOf next event init calls) = entriesFor (calls.foldl next init) := by
  induction calls using List.reverseRecOn with
  | nil => exact hinit.symm
  | append_singleton calls call _ =>
    rw [eventsOf_concat, lastEntries_concat, hentries, List.foldl_concat]

/-- The events of a run are moves, if each of its calls makes one of the entries in its state. -/
theorem keyMoves_of_eventsOf {stuck : Answer → Bool} {entriesFor : σ → List (SubscriberEntry ω)}
    {P : List (SubscriberEntry ω) → KeyEvent κ ω → Prop} (hinit : entriesFor init = [])
    (hentries : ∀ state call, (event state call).entries = entriesFor (next state call))
    (hmove : ∀ state, ∀ call ∈ calls, P (entriesFor state) (event state call) →
      KeyMove stuck (entriesFor state) (event state call))
    (hP : Throughout (fun before e => P (lastEntries before) e) (eventsOf next event init calls)) :
    Throughout (fun before e => KeyMove stuck (lastEntries before) e)
      (eventsOf next event init calls) := by
  induction calls using List.reverseRecOn with
  | nil => exact throughout_nil
  | append_singleton calls call ih =>
    rw [eventsOf_concat, throughout_concat] at hP ⊢
    obtain ⟨hP, hlast⟩ := hP
    refine ⟨ih (fun state c hc => hmove state c (List.mem_append_left _ hc)) hP, ?_⟩
    rw [lastEntries_eventsOf hinit hentries] at hlast ⊢
    exact hmove _ call (by simp) hlast

end Events

end DataShare.Rust
