import DataShare.History
import DataShare.ResultWrap

/-!
# The write requests of the provider

A write request posts a task to the main thread, waits for it for at most three seconds, and polls
the reply until its flag is set or the tries are used up. It then returns what the last poll has
read, after every kind of failure : if the task could not be posted the result is still `0`, and the
`Ex` variants put `E_OK` before it. The callback of the extension can come between any two reads.

`success_of_completed` : if the task is posted, no callback reports an error together with a result,
an `Ex` request has a result by the last poll, and no callback changes the reply of a `BatchUpdate`
while the last poll reads it (`Regular`), then a request reports success only for a result that a
callback delivered, and a `BatchUpdate` returns the code and the results of one state of the reply.
Without the first condition every request reports success (`returned_of_not_posted`).
-/

namespace DataShare

namespace Cpp

namespace ProviderWrites

/-- `TRY_TIMES`. -/
def tryTimes : ℕ := 2000

/-! ## The entry points -/

/-- What a request returns ; the operations that return a number have no `errCode`. -/
structure Answer where
  errCode : Option Int32
  value : Int32
  results : List BatchUpdateResult
deriving DecidableEq

/-- What the requests differ in : the predicates they verify, what they return if they are refused, and
what they return after the polls. -/
structure EntryPoint where
  predicates : Option DataSharePredicates
  rejected : Answer
  noOwner : Answer
  denied : Answer
  answer : Int32 → List BatchUpdateResult → Answer
  /-- `getRetFunc` reads the results before the number. -/
  readsResults : Bool

/-- The requests that return a number. -/
def numberEntry (predicates : Option DataSharePredicates) : EntryPoint where
  predicates := predicates
  rejected := ⟨none, dataShareError, []⟩
  noOwner := ⟨none, defaultNumber, []⟩
  denied := ⟨none, permissionErrorNumber, []⟩
  answer := fun ret _ => ⟨none, ret, []⟩
  readsResults := false

/-- The requests that return `E_OK` with a number. -/
def exEntry (predicates : Option DataSharePredicates) : EntryPoint where
  predicates := predicates
  rejected := ⟨some dataShareError, 0, []⟩
  noOwner := ⟨some dataShareError, 0, []⟩
  denied := ⟨some permissionErrorNumber, 0, []⟩
  answer := fun ret _ => ⟨some 0, ret, []⟩
  readsResults := false

inductive WriteRequest
  | insert (uri : StdString) (value : DataShareValuesBucket)
  | update (uri : StdString) (predicates : DataSharePredicates) (value : DataShareValuesBucket)
  | delete (uri : StdString) (predicates : DataSharePredicates)
  | batchInsert (uri : StdString) (values : List DataShareValuesBucket)
  | batchUpdate (operations : UpdateOperations)
  | insertEx (uri : StdString) (value : DataShareValuesBucket)
  | updateEx (uri : StdString) (predicates : DataSharePredicates) (value : DataShareValuesBucket)
  | deleteEx (uri : StdString) (predicates : DataSharePredicates)

namespace WriteRequest

def entry : WriteRequest → EntryPoint
  | .insert _ _ => numberEntry none
  | .update _ predicates _ => numberEntry (some predicates)
  | .delete _ predicates => numberEntry (some predicates)
  | .batchInsert _ _ => numberEntry none
  | .batchUpdate _ =>
    { numberEntry none with
      answer := fun ret results => ⟨none, ret, results⟩
      readsResults := true }
  | .insertEx _ _ => exEntry none
  | .updateEx _ predicates _ => exEntry (some predicates)
  | .deleteEx _ predicates => exEntry (some predicates)

/-- What the request returns before a task is made for it : its predicates are rejected, the stub has
no extension, or the caller has no permission to write. -/
def refusal (stub : DataShareStubImpl) (request : WriteRequest) : Option Answer :=
  if request.entry.predicates.any (!DataShareStubImpl.verifyPredicates ·) then
    some request.entry.rejected
  else match stub.extension with
    | none => some request.entry.noOwner
    | some extension =>
      if stub.checkCallingPermission extension.writePermission then none
      else some request.entry.denied

end WriteRequest

/-! ## The steps of a request -/

/-- Where the thread of the request is : it posts the task, waits for it, and then reads the flag, the
results if it is a `BatchUpdate`, and the number, again and again. -/
inductive Caller
  | sending
  | waiting
  | polling (tryTimes : ℕ)
  | flagRead (tryTimes : ℕ) (isRecvReply : Bool)
  | resultsRead (tryTimes : ℕ) (isRecvReply : Bool) (results : List BatchUpdateResult)
  | returned (answer : Answer)
deriving DecidableEq

/-- A request, its reply, and the main thread. The last two fields are not in the source : the callbacks
that began before the request returned, and whether one has written the number. -/
structure World where
  caller : Caller
  taskPosted : Bool
  /-- The task has made the callback of the request. -/
  callbackMade : Bool
  reply : ResultWrap
  /-- What the callback under way has still to write, and whether it holds `asyncLock_`. -/
  writing : List FieldWrite
  locked : Bool
  begun : List Callback
  numberWritten : Bool

/-- The request comes in. -/
def World.init (stub : DataShareStubImpl) (request : WriteRequest) : World where
  caller := match request.refusal stub with
    | some answer => .returned answer
    | none => .sending
  taskPosted := false
  callbackMade := false
  reply := {}
  writing := []
  locked := false
  begun := []
  numberWritten := false

/-- The request has returned. -/
def World.isReturned (world : World) : Bool :=
  match world.caller with
  | .returned _ => true
  | _ => false

/-- A step of the request or of the main thread. -/
inductive Event
  /-- `JsSyncCall` or `StsSyncCall` posts the task, or fails and returns. -/
  | send (posted : Bool)
  /-- The task runs, and the extension makes a callback or fails before that. -/
  | runTask (callbackMade : Bool)
  /-- The wait ends because the task is done or because it expires. -/
  | wake
  /-- The next read of a poll. -/
  | read
  /-- The extension calls the callback. -/
  | callback (callback : Callback)
  /-- The next write of the callback under way. -/
  | write
deriving DecidableEq

/-- The number is read and the poll ends : `CheckFuncAndExec` goes on unless the flag was set or no try
is left. -/
def World.endPoll (request : WriteRequest) (world : World) (tryTimes : ℕ) (isRecvReply : Bool)
    (results : List BatchUpdateResult) : World :=
  if isRecvReply ∨ tryTimes = 0 then
    { world with caller := .returned (request.entry.answer world.reply.callbackResultNumber results) }
  else { world with caller := .polling (tryTimes - 1) }

/-- The next read of `getRetFunc`. `GetResult` of the results waits for `asyncLock_`, and the other two
take no lock. -/
def World.read (request : WriteRequest) (world : World) : World :=
  match world.caller with
  | .polling tryTimes => { world with caller := .flagRead tryTimes world.reply.isRecvReply }
  | .flagRead tryTimes isRecvReply =>
    if request.entry.readsResults then
      if world.locked then world
      else { world with caller := .resultsRead tryTimes isRecvReply world.reply.updateResults }
    else world.endPoll request tryTimes isRecvReply []
  | .resultsRead tryTimes isRecvReply results => world.endPoll request tryTimes isRecvReply results
  | _ => world

def World.step (request : WriteRequest) (world : World) : Event → World
  | .send posted =>
    if world.caller = .sending then
      if posted then { world with caller := .waiting, taskPosted := true }
      else { world with caller := .returned (request.entry.answer 0 []) }
    else world
  | .runTask callbackMade =>
    if world.taskPosted then { world with taskPosted := false, callbackMade := callbackMade } else world
  | .wake => if world.caller = .waiting then { world with caller := .polling tryTimes } else world
  | .read => world.read request
  | .callback callback =>
    if world.callbackMade ∧ world.writing = [] then
      { world with
        writing := callback.writes
        locked := callback.locks
        begun := if world.isReturned then world.begun else world.begun ++ [callback] }
    else world
  | .write =>
    match world.writing with
    | [] => world
    | w :: rest =>
      { world with
        reply := world.reply.write w
        writing := rest
        locked := world.locked && !rest.isEmpty
        numberWritten := world.numberWritten || w.number?.isSome }

/-- The world after `events`. -/
def run (stub : DataShareStubImpl) (request : WriteRequest) (events : List Event) : World :=
  events.foldl (World.step request) (.init stub request)

/-! ## What a request should return -/

/-- `E_OK`, or a number that is none of the errors. -/
def Answer.Success (answer : Answer) : Prop :=
  answer.errCode = some 0 ∨ answer.errCode = none ∧ 0 ≤ answer.value

instance (answer : Answer) : Decidable answer.Success :=
  inferInstanceAs (Decidable (answer.errCode = some 0 ∨ answer.errCode = none ∧ 0 ≤ answer.value))

/-- The callback delivers `v` as the result of the request, without an error. The results of a
`BatchUpdate` come with the number `E_OK`. -/
def Delivers (request : WriteRequest) (v : Int32) : Callback → Prop
  | .js error (.number value) => error = none ∧ value = v
  | .js error (.object _ none) => error = none ∧ request.entry.readsResults = true ∧ 0 = v
  | .js _ _ => False
  | .arktsInt error data => error.code = 0 ∧ data = v
  | .arktsString _ _ => False
  | .arktsObject _ _ => False
  | .arktsBatchUpdate error _ => error.code = 0 ∧ request.entry.readsResults = true ∧ 0 = v

instance (request : WriteRequest) (v : Int32) (callback : Callback) :
    Decidable (Delivers request v callback) := by
  unfold Delivers
  split <;> infer_instance

/-- The code and the results are those of the reply at one time, when no callback was writing it. -/
def OneState (stub : DataShareStubImpl) (request : WriteRequest) (events : List Event) (code : Int32)
    (results : List BatchUpdateResult) : Prop :=
  ∃ before after, events = before ++ after ∧ (run stub request before).writing = [] ∧
    (run stub request before).reply.callbackResultNumber = code ∧
    (run stub request before).reply.updateResults = results

/-- What the request has returned after `events` is right : success was delivered before it
returned, and a `BatchUpdate` that was not refused returns one state of the reply. -/
def Right (stub : DataShareStubImpl) (request : WriteRequest) (events : List Event) : Prop :=
  ∀ answer, (run stub request events).caller = .returned answer →
    (answer.Success → ∃ callback ∈ (run stub request events).begun,
      Delivers request answer.value callback) ∧
    (request.refusal stub = none → request.entry.readsResults = true →
      OneState stub request events answer.value answer.results)

/-- What the callback writes into the number, it delivers. A number below zero is no success of the
operations that return a number. -/
def Fits (request : WriteRequest) (callback : Callback) : Prop :=
  ∀ v ∈ callback.number?, (request.entry.answer v []).Success → Delivers request v callback

instance (request : WriteRequest) (callback : Callback) : Decidable (Fits request callback) :=
  Option.decidableForallMem (p := fun v =>
    (request.entry.answer v []).Success → Delivers request v callback) callback.number?

/-- The poll ends the request : the flag was set when it was read, or no try is left. -/
def Last (tryTimes : ℕ) (isRecvReply : Bool) : Prop :=
  isRecvReply = true ∨ tryTimes = 0

instance (tryTimes : ℕ) (isRecvReply : Bool) : Decidable (Last tryTimes isRecvReply) :=
  inferInstanceAs (Decidable (isRecvReply = true ∨ tryTimes = 0))

/-- The task is posted ; a callback that begins before the request returns delivers what it writes ;
the last poll of an `Ex` request finds a number that was written ; and the last poll of a
`BatchUpdate` reads the results while no callback writes, and none writes the number or a result
before it reads the number. -/
def Regular (request : WriteRequest) (world : World) : Event → Prop
  | .send posted => world.caller = .sending → posted = true
  | .callback callback => world.isReturned = false → Fits request callback
  | .read =>
    match world.caller with
    | .flagRead tryTimes isRecvReply => Last tryTimes isRecvReply →
        if request.entry.readsResults then world.writing = []
        else (request.entry.answer (-1) []).Success → world.numberWritten = true
    | _ => True
  | .write =>
    match world.caller with
    | .resultsRead tryTimes isRecvReply _ => Last tryTimes isRecvReply →
        ∀ w ∈ world.writing.head?, w.isResult = false
    | _ => True
  | _ => True

instance (request : WriteRequest) (world : World) : (event : Event) →
    Decidable (Regular request world event)
  | .send posted => inferInstanceAs (Decidable (world.caller = .sending → posted = true))
  | .callback callback => inferInstanceAs (Decidable (world.isReturned = false → Fits request callback))
  | .read => by
    unfold Regular
    dsimp only
    split
    · infer_instance
    · infer_instance
  | .write => by
    unfold Regular
    dsimp only
    split
    · infer_instance
    · infer_instance
  | .runTask _ => .isTrue trivial
  | .wake => .isTrue trivial

/-! ## One step -/

section Step

variable {stub : DataShareStubImpl} {request : WriteRequest} {world : World}

theorem value_answer (v : Int32) (results : List BatchUpdateResult) :
    (request.entry.answer v results).value = v := by
  cases request <;> rfl

theorem success_answer_iff (v : Int32) (results : List BatchUpdateResult) :
    (request.entry.answer v results).Success ↔ (request.entry.answer v []).Success := by
  cases request <;> exact Iff.rfl

theorem answer_of_readsResults (h : request.entry.readsResults = true) (v : Int32)
    (results : List BatchUpdateResult) : request.entry.answer v results = ⟨none, v, results⟩ := by
  cases request with
  | batchUpdate operations => rfl
  | _ => exact Bool.noConfusion h

theorem isReturned_iff : world.isReturned = true ↔ ∃ answer, world.caller = .returned answer := by
  unfold World.isReturned
  cases world.caller <;> simp

/-- Nothing moves a request that has returned. -/
theorem step_of_returned {answer : Answer} (h : world.caller = .returned answer) (event : Event) :
    (world.step request event).caller = .returned answer ∧
      (world.step request event).begun = world.begun := by
  have hreturned : world.isReturned = true := isReturned_iff.mpr ⟨answer, h⟩
  cases event with
  | send posted => simp [World.step, h]
  | runTask callbackMade =>
    rw [World.step]
    split <;> exact ⟨h, rfl⟩
  | wake => simp [World.step, h]
  | read => simp [World.step, World.read, h]
  | callback callback =>
    rw [World.step]
    split <;> exact ⟨h, rfl⟩
  | write =>
    rw [World.step]
    split <;> exact ⟨h, rfl⟩

/-- Before the request returns, the number is the first one or that of a callback that began, and those
callbacks deliver what they write. -/
structure Backed (request : WriteRequest) (world : World) : Prop where
  fits : ∀ callback ∈ world.begun, Fits request callback
  writing : ∀ v, .number v ∈ world.writing → ∃ callback ∈ world.begun, callback.number? = some v
  written : world.numberWritten = true →
    ∃ callback ∈ world.begun, callback.number? = some world.reply.callbackResultNumber
  unwritten : world.numberWritten = false → world.reply.callbackResultNumber = -1

/-- Only the main thread touches the reply. -/
theorem Backed.of_eq {world' : World} (h : Backed request world) (hbegun : world'.begun = world.begun)
    (hwriting : world'.writing = world.writing) (hreply : world'.reply = world.reply)
    (hwritten : world'.numberWritten = world.numberWritten) : Backed request world' := by
  obtain ⟨hfits, hw, hyes, hno⟩ := h
  constructor
  · rwa [hbegun]
  · rwa [hbegun, hwriting]
  · rwa [hbegun, hwritten, hreply]
  · rwa [hwritten, hreply]

theorem backed_endPoll (h : Backed request world) (tryTimes : ℕ) (isRecvReply : Bool)
    (results : List BatchUpdateResult) :
    Backed request (world.endPoll request tryTimes isRecvReply results) := by
  unfold World.endPoll
  split <;> exact h.of_eq rfl rfl rfl rfl

theorem backed_read (h : Backed request world) : Backed request (world.read request) := by
  unfold World.read
  split
  · exact h.of_eq rfl rfl rfl rfl
  · split
    · split <;> exact h.of_eq rfl rfl rfl rfl
    · exact backed_endPoll h _ _ _
  · exact backed_endPoll h _ _ _
  · exact h

theorem backed_callback (h : Backed request world) {callback : Callback}
    (hrunning : world.isReturned = false) (hfits : Fits request callback) :
    Backed request (world.step request (.callback callback)) := by
  rw [World.step]
  split
  · have hbegun : (if world.isReturned then world.begun else world.begun ++ [callback]) =
        world.begun ++ [callback] := by simp [hrunning]
    have hsub : ∀ {v}, (∃ c ∈ world.begun, c.number? = some v) →
        ∃ c ∈ world.begun ++ [callback], c.number? = some v := by
      rintro v ⟨c, hc, hv⟩
      exact ⟨c, List.mem_append_left _ hc, hv⟩
    constructor
    · dsimp only
      rw [hbegun]
      intro c hc
      rcases List.mem_append.mp hc with hc | hc
      · exact h.fits c hc
      · rwa [List.mem_singleton.mp hc]
    · dsimp only
      rw [hbegun]
      exact fun v hv => ⟨callback, by simp, Callback.number?_of_mem_writes hv⟩
    · dsimp only
      rw [hbegun]
      exact fun hyes => hsub (h.written hyes)
    · exact h.unwritten
  · exact h

theorem backed_write (h : Backed request world) : Backed request (world.step request .write) := by
  rw [World.step]
  split
  · exact h
  · rename_i w rest hwriting
    have hrest : ∀ v, .number v ∈ rest → ∃ callback ∈ world.begun, callback.number? = some v :=
      fun v hv => h.writing v (hwriting ▸ List.mem_cons_of_mem _ hv)
    cases hw : w.number? with
    | none =>
      refine ⟨h.fits, hrest, fun hyes => ?_, fun hno => ?_⟩
      · dsimp only
        rw [ResultWrap.callbackResultNumber_write, hw]
        exact h.written (by simpa using hyes)
      · dsimp only
        rw [ResultWrap.callbackResultNumber_write, hw]
        exact h.unwritten (by simpa using hno)
    | some value =>
      have hmem : .number value ∈ world.writing := by
        rw [hwriting, FieldWrite.eq_number hw]
        exact List.mem_cons_self
      refine ⟨h.fits, hrest, fun _ => ?_, fun hno => ?_⟩
      · dsimp only
        rw [ResultWrap.callbackResultNumber_write, hw]
        exact h.writing value hmem
      · simp at hno

theorem backed_step (h : Backed request world) (hrunning : world.isReturned = false) {event : Event}
    (hregular : Regular request world event) : Backed request (world.step request event) := by
  cases event with
  | send posted =>
    rw [World.step]
    split
    · split <;> exact h.of_eq rfl rfl rfl rfl
    · exact h
  | runTask callbackMade =>
    rw [World.step]
    split
    · exact h.of_eq rfl rfl rfl rfl
    · exact h
  | wake =>
    rw [World.step]
    split
    · exact h.of_eq rfl rfl rfl rfl
    · exact h
  | read => exact backed_read h
  | callback callback => exact backed_callback h hrunning (hregular hrunning)
  | write => exact backed_write h

/-- The number a successful answer is made of was delivered. -/
theorem Backed.delivered (h : Backed request world)
    (hwritten : (request.entry.answer (-1) []).Success → world.numberWritten = true)
    (hsuccess : (request.entry.answer world.reply.callbackResultNumber []).Success) :
    ∃ callback ∈ world.begun, Delivers request world.reply.callbackResultNumber callback := by
  have hyes : world.numberWritten = true := by
    by_contra hno
    have hfirst := h.unwritten (Bool.eq_false_iff.mpr hno)
    exact hno (hwritten (hfirst ▸ hsuccess))
  obtain ⟨callback, hmem, hnumber⟩ := h.written hyes
  exact ⟨callback, hmem, h.fits callback hmem _ hnumber hsuccess⟩

theorem begun_endPoll {tryTimes : ℕ} {isRecvReply : Bool} {results : List BatchUpdateResult} :
    (world.endPoll request tryTimes isRecvReply results).begun = world.begun := by
  unfold World.endPoll
  split <;> rfl

theorem endPoll_returned {tryTimes : ℕ} {isRecvReply : Bool} {results : List BatchUpdateResult}
    {answer : Answer}
    (h : (world.endPoll request tryTimes isRecvReply results).caller = .returned answer) :
    Last tryTimes isRecvReply ∧
      answer = request.entry.answer world.reply.callbackResultNumber results := by
  unfold World.endPoll at h
  split at h
  · rename_i hlast
    exact ⟨hlast, (Caller.returned.inj h).symm⟩
  · exact Caller.noConfusion h

end Step

/-! ## Runs -/

section Runs

variable {stub : DataShareStubImpl} {request : WriteRequest} {events : List Event}

theorem run_concat (events : List Event) (event : Event) :
    run stub request (events ++ [event]) = (run stub request events).step request event :=
  List.foldl_concat _ _ _ _

theorem OneState.concat {code : Int32} {results : List BatchUpdateResult}
    (h : OneState stub request events code results) (event : Event) :
    OneState stub request (events ++ [event]) code results := by
  obtain ⟨before, after, rfl, hstate⟩ := h
  exact ⟨before, after ++ [event], List.append_assoc _ _ _, hstate⟩

/-- The results the last poll has read, and the number there is now, are those of one state. -/
def ResultsHeld (stub : DataShareStubImpl) (request : WriteRequest) (events : List Event) : Prop :=
  ∀ tryTimes isRecvReply results,
    (run stub request events).caller = .resultsRead tryTimes isRecvReply results →
    request.entry.readsResults = true ∧ (Last tryTimes isRecvReply →
      OneState stub request events (run stub request events).reply.callbackResultNumber results)

/-- What holds of a run whose steps are regular. -/
structure RegularRun (stub : DataShareStubImpl) (request : WriteRequest) (events : List Event) :
    Prop where
  right : Right stub request events
  backed : (run stub request events).isReturned = false → Backed request (run stub request events)
  held : ResultsHeld stub request events

theorem not_success_of_refusal {answer : Answer} (h : request.refusal stub = some answer) :
    ¬ answer.Success := by
  have hrefused : answer = request.entry.rejected ∨ answer = request.entry.noOwner ∨
      answer = request.entry.denied := by
    unfold WriteRequest.refusal at h
    split at h
    · exact Or.inl (Option.some.inj h).symm
    · split at h
      · exact Or.inr (Or.inl (Option.some.inj h).symm)
      · split at h
        · exact absurd h (by simp)
        · exact Or.inr (Or.inr (Option.some.inj h).symm)
  rcases hrefused with rfl | rfl | rfl
  all_goals cases request <;> exact of_decide_eq_false rfl

theorem regularRun_nil : RegularRun stub request [] := by
  constructor
  · intro answer hret
    have hrefused : request.refusal stub = some answer := by
      unfold run World.init at hret
      dsimp only [List.foldl_nil] at hret
      split at hret
      · rename_i refused hsome
        rw [hsome, Caller.returned.inj hret]
      · exact Caller.noConfusion hret
    refine ⟨fun hsuccess => absurd hsuccess (not_success_of_refusal hrefused), fun hnone => ?_⟩
    exact absurd (hnone.symm.trans hrefused) (Option.some_ne_none answer).symm
  · exact fun _ => ⟨fun _ h => absurd h List.not_mem_nil, fun _ h => absurd h List.not_mem_nil,
      fun h => Bool.noConfusion h, fun _ => rfl⟩
  · intro tryTimes isRecvReply results h
    unfold run World.init at h
    dsimp only [List.foldl_nil] at h
    split at h <;> exact Caller.noConfusion h

/-- A regular step that returns is the last read of the last poll. -/
theorem returns_of_regular {world : World} {event : Event} {answer : Answer}
    (hrunning : world.isReturned = false) (hregular : Regular request world event)
    (h : (world.step request event).caller = .returned answer) :
    (world.step request event).begun = world.begun ∧
      ∃ tryTimes isRecvReply results, Last tryTimes isRecvReply ∧
        answer = request.entry.answer world.reply.callbackResultNumber results ∧
        (request.entry.readsResults = false ∧
            ((request.entry.answer (-1) []).Success → world.numberWritten = true) ∨
          world.caller = .resultsRead tryTimes isRecvReply results) := by
  have hsame : world.caller ≠ .returned answer := by
    intro heq
    rw [World.isReturned, heq] at hrunning
    exact Bool.noConfusion hrunning
  cases event with
  | send posted =>
    rw [World.step] at h
    split at h
    · rename_i hsending
      rw [hregular hsending, if_pos rfl] at h
      exact Caller.noConfusion h
    · exact absurd h hsame
  | runTask callbackMade =>
    rw [World.step] at h
    split at h <;> exact absurd h hsame
  | wake =>
    rw [World.step] at h
    split at h
    · exact Caller.noConfusion h
    · exact absurd h hsame
  | callback callback =>
    rw [World.step] at h
    split at h <;> exact absurd h hsame
  | write =>
    rw [World.step] at h
    split at h <;> exact absurd h hsame
  | read =>
    rw [World.step, World.read] at h ⊢
    cases hcaller : world.caller with
    | sending =>
      simp only [hcaller] at h
      exact Caller.noConfusion h
    | waiting =>
      simp only [hcaller] at h
      exact Caller.noConfusion h
    | polling tryTimes =>
      simp only [hcaller] at h
      exact Caller.noConfusion h
    | returned answer' => exact absurd (hcaller.trans (by simpa only [hcaller] using h)) hsame
    | flagRead tryTimes isRecvReply =>
      simp only [hcaller] at h ⊢
      have hread := hregular
      simp only [Regular, hcaller] at hread
      split at h
      · split at h
        · rw [hcaller] at h
          exact Caller.noConfusion h
        · exact Caller.noConfusion h
      · rename_i hno
        obtain ⟨hlast, hanswer⟩ := endPoll_returned h
        rw [if_neg hno] at hread ⊢
        exact ⟨begun_endPoll, tryTimes, isRecvReply, [], hlast, hanswer,
          Or.inl ⟨Bool.eq_false_iff.mpr hno, hread hlast⟩⟩
    | resultsRead tryTimes isRecvReply results =>
      simp only [hcaller] at h ⊢
      obtain ⟨hlast, hanswer⟩ := endPoll_returned h
      exact ⟨begun_endPoll, tryTimes, isRecvReply, results, hlast, hanswer, Or.inr rfl⟩

/-- A regular step keeps what the last poll has read in step with the number. -/
theorem held_step (hheld : ResultsHeld stub request events) {event : Event}
    (hregular : Regular request (run stub request events) event) :
    ResultsHeld stub request (events ++ [event]) := by
  intro tryTimes isRecvReply results h
  rw [run_concat] at h ⊢
  generalize hworld : run stub request events = world at h hregular ⊢
  have hsame (hbefore : world.caller = .resultsRead tryTimes isRecvReply results)
      (hnumber : Last tryTimes isRecvReply → (world.step request event).reply.callbackResultNumber =
        world.reply.callbackResultNumber) :
      request.entry.readsResults = true ∧ (Last tryTimes isRecvReply →
        OneState stub request (events ++ [event])
          (world.step request event).reply.callbackResultNumber results) := by
    obtain ⟨hreads, hstate⟩ := hheld tryTimes isRecvReply results (by rw [hworld, hbefore])
    refine ⟨hreads, fun hlast => ?_⟩
    rw [hnumber hlast, ← hworld]
    exact (hstate hlast).concat event
  cases event with
  | send posted =>
    rw [World.step] at h hsame ⊢
    split at h
    · split at h <;> exact Caller.noConfusion h
    · rename_i hsending
      rw [if_neg hsending] at hsame ⊢
      exact hsame h fun _ => rfl
  | runTask callbackMade =>
    rw [World.step] at h hsame ⊢
    split at h
    · rename_i hposted
      rw [if_pos hposted] at hsame ⊢
      exact hsame h fun _ => rfl
    · rename_i hposted
      rw [if_neg hposted] at hsame ⊢
      exact hsame h fun _ => rfl
  | wake =>
    rw [World.step] at h hsame ⊢
    split at h
    · exact Caller.noConfusion h
    · rename_i hwaiting
      rw [if_neg hwaiting] at hsame ⊢
      exact hsame h fun _ => rfl
  | callback callback =>
    rw [World.step] at h hsame ⊢
    split at h
    · rename_i hmade
      rw [if_pos hmade] at hsame ⊢
      exact hsame h fun _ => rfl
    · rename_i hmade
      rw [if_neg hmade] at hsame ⊢
      exact hsame h fun _ => rfl
  | write =>
    have hbefore : world.caller = .resultsRead tryTimes isRecvReply results := by
      rw [World.step] at h
      split at h <;> exact h
    refine hsame hbefore fun hlast => ?_
    simp only [Regular, hbefore] at hregular
    rw [World.step]
    split
    · rfl
    · rename_i w rest hwriting
      have hw := hregular hlast w (by simp [hwriting])
      exact (ResultWrap.write_of_not_isResult hw).1
  | read =>
    rw [World.step, World.read] at h hsame ⊢
    cases hcaller : world.caller with
    | sending => simp [hcaller] at h
    | waiting => simp [hcaller] at h
    | polling tryTimes => simp [hcaller] at h
    | returned answer => simp [hcaller] at h
    | resultsRead tryTimes isRecvReply results =>
      simp only [hcaller, World.endPoll] at h
      split at h <;> exact Caller.noConfusion h
    | flagRead tries flag =>
      simp only [hcaller] at h ⊢
      simp only [Regular, hcaller] at hregular
      split at h
      · rename_i hreads
        split at h
        · rw [hcaller] at h
          exact Caller.noConfusion h
        · rename_i hlocked
          rw [if_pos hreads, if_neg hlocked] at ⊢
          rw [if_pos hreads] at hregular
          obtain ⟨rfl, rfl, rfl⟩ := Caller.resultsRead.inj h
          refine ⟨hreads, fun hlast => ⟨events, [.read], rfl, ?_⟩⟩
          rw [hworld]
          exact ⟨hregular hlast, rfl, rfl⟩
      · rw [World.endPoll] at h
        split at h <;> exact Caller.noConfusion h

theorem RegularRun.concat (h : RegularRun stub request events) {event : Event}
    (hregular : Regular request (run stub request events) event) :
    RegularRun stub request (events ++ [event]) := by
  refine ⟨?_, ?_, held_step h.held hregular⟩
  · intro answer hret
    rw [run_concat] at hret ⊢
    by_cases hreturned : (run stub request events).isReturned = true
    · obtain ⟨earlier, hearlier⟩ := isReturned_iff.mp hreturned
      obtain ⟨hcaller, hbegun⟩ := step_of_returned hearlier event
      obtain rfl := Caller.returned.inj (hcaller.symm.trans hret)
      obtain ⟨hsuccess, hstate⟩ := h.right earlier hearlier
      rw [hbegun]
      exact ⟨hsuccess, fun hnone hreads => (hstate hnone hreads).concat event⟩
    · have hrunning := Bool.eq_false_iff.mpr hreturned
      have hbacked := h.backed hrunning
      obtain ⟨hbegun, tryTimes, isRecvReply, results, hlast, rfl, hread⟩ :=
        returns_of_regular hrunning hregular hret
      rw [hbegun, value_answer, success_answer_iff]
      refine ⟨hbacked.delivered ?_, fun _ hreads => ?_⟩
      · rcases hread with ⟨-, hwritten⟩ | hcaller
        · exact hwritten
        · -- minus one is no success of a `BatchUpdate`
          intro hsuccess
          rw [answer_of_readsResults (h.held _ _ _ hcaller).1] at hsuccess
          exact absurd hsuccess (by decide)
      · rcases hread with ⟨hno, -⟩ | hcaller
        · exact absurd (hno.symm.trans hreads) Bool.false_ne_true
        · rw [answer_of_readsResults hreads]
          exact ((h.held _ _ _ hcaller).2 hlast).concat event
  · intro hrunning
    rw [run_concat] at hrunning ⊢
    have hbefore : (run stub request events).isReturned = false := by
      by_contra hreturned
      obtain ⟨answer, hanswer⟩ := isReturned_iff.mp (Bool.eq_true_of_not_eq_false hreturned)
      exact absurd (isReturned_iff.mpr ⟨answer, (step_of_returned hanswer event).1⟩)
        (Bool.eq_false_iff.mp hrunning)
    exact backed_step (h.backed hbefore) hbefore hregular

theorem regularRun (h : Throughout
    (fun before event => Regular request (run stub request before) event) events) :
    RegularRun stub request events := by
  induction events using List.reverseRecOn with
  | nil => exact regularRun_nil
  | append_singleton events event ih =>
    obtain ⟨hbefore, hevent⟩ := throughout_concat.mp h
    exact (ih hbefore).concat hevent

/-- If all steps of a run are regular, what the request has returned is right. -/
theorem success_of_completed (stub : DataShareStubImpl) (request : WriteRequest) (events : List Event)
    (h : Throughout (fun before event => Regular request (run stub request before) event) events) :
    Right stub request events :=
  (regularRun h).right

/-- An insertion whose callback comes before the first poll. -/
theorem success_of_completed_insert :
    Right openStub (.insertEx [] {}) [.send true, .runTask true, .wake,
      .callback (.js none (.number 5)), .write, .write, .write, .read, .read] :=
  success_of_completed _ _ _ (throughout_iff_getElem.mpr (by decide +kernel))

/-- Every request whose task cannot be posted reports success. -/
theorem returned_of_not_posted (stub : DataShareStubImpl) (request : WriteRequest)
    (h : request.refusal stub = none) :
    (run stub request [.send false]).caller = .returned (request.entry.answer 0 []) ∧
      (request.entry.answer 0 []).Success ∧ (run stub request [.send false]).begun = [] := by
  have hinit : (World.init stub request).caller = .sending := by
    rw [World.init, h]
  refine ⟨?_, ?_, ?_⟩
  · rw [run, List.foldl_cons, List.foldl_nil, World.step, if_pos hinit, if_neg Bool.false_ne_true]
  · cases request <;> exact of_decide_eq_true rfl
  · rw [run, List.foldl_cons, List.foldl_nil, World.step, if_pos hinit, if_neg Bool.false_ne_true]
    rfl

/-- Polls that find no reply use up their tries, and then return the number as it is. -/
theorem returned_of_no_reply {request : WriteRequest} (hreads : request.entry.readsResults = false) :
    ∀ (tries : ℕ) (world : World), world.caller = .polling tries → world.reply.isRecvReply = false →
      ((List.replicate (2 * (tries + 1)) Event.read).foldl (World.step request) world).caller =
        .returned (request.entry.answer world.reply.callbackResultNumber [])
  | 0, world, hcaller, hreply => by
    simp [List.replicate, World.step, World.read, hcaller, hreply, hreads, World.endPoll]
  | tries + 1, world, hcaller, hreply => by
    have htwo : 2 * (tries + 1 + 1) = 2 * (tries + 1) + 1 + 1 := by omega
    have hpoll : (world.step request .read).step request .read =
        { world with caller := .polling tries } := by
      simp [World.step, World.read, hcaller, hreply, hreads, World.endPoll]
    rw [htwo, List.replicate_succ, List.replicate_succ, List.foldl_cons, List.foldl_cons, hpoll]
    exact returned_of_no_reply hreads tries _ rfl hreply

/-- The task of an insertion cannot be posted, and the insertion returns `E_OK`. -/
theorem unposted_insert_succeeds :
    ¬ Right openStub (.insertEx [] {}) [.send false] := by
  intro h
  obtain ⟨callback, hmem, -⟩ := (h ⟨some 0, 0, []⟩ rfl).1 (by decide)
  exact List.not_mem_nil hmem

end Runs

end ProviderWrites

end Cpp

end DataShare
