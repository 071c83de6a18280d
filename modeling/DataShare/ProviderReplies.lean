import DataShare.ResultWrap
import Mathlib.Data.List.Induction
import Mathlib.Data.List.Infix

/-!
# Whose reply it is

All stubs of a provider share one `JsDataShareExtAbility`, and pass the reply and the caller of a
request to it through its members : the task of the request sets `callingInfo_` and `result_` and
calls the method, which moves `result_` into the callback it makes for JS. Tasks run on the main
thread one at a time, also after their request has returned, and the methods of some fail before
they make a callback and leave `result_` set.

`replies_belong` : whatever happens in which order, what a request reads from its reply was written by
callbacks made in its own task, and the method of JS is called with the caller of the request whose task
it is. The base class that keeps `callingInfo_` is a parameter.
-/

namespace DataShare

namespace Cpp

namespace ProviderReplies

/-! ## The requests -/

structure CallingInfo where
  callingPid : Int32
  callingUid : Int32
  callingTokenId : UInt32
deriving DecidableEq

/-- The entry points of the stub that post a task. -/
inductive Kind
  | getFileTypes | openFile | openRawFile | insert | update | batchUpdate | delete | insertEx | updateEx
  | deleteEx | query | getType | batchInsert | notifyChange | normalizeUri | denormalizeUri
deriving DecidableEq

/-- The task calls a method of JS, and `SetCallingInfo` before it. -/
def Kind.callsMethod : Kind → Bool
  | .notifyChange => false
  | _ => true

/-- The task calls `InitResult`, and the method makes a callback. -/
def Kind.initsResult : Kind → Bool
  | .openRawFile => false
  | .notifyChange => false
  | _ => true

/-- The fields of the reply that are returned. -/
inductive Field
  | number | string | stringArr | resultSet | businessError | updateResults
deriving DecidableEq

/-- The fields `getRetFunc` reads behind the flag. `OpenRawFile` and `NotifyChange` have none, and
return what their task stores. -/
def Kind.fields : Kind → List Field
  | .getFileTypes => [.stringArr]
  | .query => [.resultSet, .businessError]
  | .getType | .normalizeUri | .denormalizeUri => [.string]
  | .batchUpdate => [.updateResults, .number]
  | .openRawFile | .notifyChange => []
  | .openFile | .insert | .update | .delete | .insertEx | .updateEx | .deleteEx | .batchInsert =>
    [.number]

/-- What `GetResult`, `GetResultSet` or `GetBusinessError` gives. -/
inductive ReplyValue
  | number (value : Int32)
  | string (value : StdString)
  | stringArr (value : List StdString)
  | resultSet (value : Option ℕ)
  | businessError (value : DatashareBusinessError)
  | updateResults (value : List BatchUpdateResult)
deriving DecidableEq

def getField (reply : ResultWrap) : Field → ReplyValue
  | .number => .number reply.callbackResultNumber
  | .string => .string reply.callbackResultString
  | .stringArr => .stringArr reply.callbackResultStringArr
  | .resultSet => .resultSet reply.callbackResultObject
  | .businessError => .businessError reply.businessError
  | .updateResults => .updateResults reply.updateResults

/-- A request waits for the lock of its stub, has it and waits for its reply, or has returned. -/
inductive Status
  | arrived | inCall | returned
deriving DecidableEq

/-- A request of the stub number `stub`, with its `ResultWrap` and what it has read from it. It
returns what it has read, or values of its own. -/
structure Request where
  stub : ℕ
  kind : Kind
  info : CallingInfo
  status : Status := .arrived
  reply : ResultWrap := {}
  reads : List ReplyValue := []
deriving DecidableEq

/-! ## The main thread -/

/-- An `AsyncCallBackPoint` with the request its `result` belongs to. `task` is the request whose
task made it ; it is not in the source, and no step reads it. -/
structure AsyncCallBackPoint where
  result : Option ℕ
  task : ℕ
deriving DecidableEq

/-- How far a method of the extension gets : it fails before `InitAsyncCallParams` moves `result_`,
`napi_create_function` fails, or the method of JS is called. -/
inductive MethodOutcome
  | fails
  | createFails
  | calls
deriving DecidableEq

variable {σ : Type} (setCallingInfo : σ → CallingInfo → σ) (getCallingInfo : σ → Option CallingInfo)

/-- The requests, the tasks that are posted, the extension and the callbacks it made. The last two
fields are logs : every write of a callback, and every call of a method of JS with the caller it is
told. -/
structure World (σ : Type) where
  requests : List Request
  tasks : List ℕ
  /-- The base class of the extension, with `callingInfo_`. -/
  base : σ
  /-- `result_`, by the request it belongs to. -/
  result : Option ℕ
  callbacks : List AsyncCallBackPoint
  /-- What the callback under way has still to write. -/
  writing : List (ℕ × FieldWrite)
  written : List (ℕ × FieldWrite)
  methodCalls : List (ℕ × Option CallingInfo)
deriving DecidableEq

def World.init (base : σ) : World σ :=
  ⟨[], [], base, none, [], [], [], []⟩

inductive Event
  /-- A request comes in. -/
  | arrive (stub : ℕ) (kind : Kind) (info : CallingInfo)
  /-- It gets the lock of its stub, and posts its task or fails to. -/
  | enter (i : ℕ) (posted : Bool)
  /-- Its task runs. -/
  | runTask (i : ℕ) (outcome : MethodOutcome)
  /-- JS calls a callback. -/
  | callback (c : ℕ) (error : Option DatashareBusinessError) (value : JsValue)
  /-- The callback under way writes the next field. -/
  | write
  /-- A poll of the request reads a field. -/
  | read (i : ℕ) (field : Field)
  /-- The request returns. -/
  | leave (i : ℕ)
deriving DecidableEq

/-- The request has arrived, and no request of its stub is in its call. -/
def World.canEnter (world : World σ) (i : ℕ) : Bool :=
  world.requests[i]?.any fun request => request.status = .arrived &&
    world.requests.all fun other => other.stub ≠ request.stub || other.status ≠ .inCall

/-- The method of the extension, called in the task of request `i`. -/
def World.callMethod (world : World σ) (i : ℕ) (kind : Kind) : MethodOutcome → World σ
  | .fails => world
  | .createFails => if kind.initsResult then { world with result := none } else world
  | .calls =>
    let methodCalls := world.methodCalls ++ [(i, getCallingInfo world.base)]
    if kind.initsResult then
      { world with
        callbacks := world.callbacks ++ [⟨world.result, i⟩]
        result := none
        methodCalls := methodCalls }
    else { world with methodCalls := methodCalls }

/-- The task of request `i` : `SetCallingInfo`, `InitResult`, and the method. -/
def World.runTask (world : World σ) (i : ℕ) (request : Request) (outcome : MethodOutcome) : World σ :=
  let world := { world with tasks := world.tasks.erase i }
  if request.kind.callsMethod then
    let world := { world with
      base := setCallingInfo world.base request.info
      result := if request.kind.initsResult then some i else world.result }
    world.callMethod getCallingInfo i request.kind outcome
  else world

/-- `AsyncCallback` : without a reply nothing is written. -/
def World.beginCallback (world : World σ) (c : ℕ) (error : Option DatashareBusinessError)
    (value : JsValue) : World σ :=
  match world.callbacks[c]? with
  | none => world
  | some point =>
    if point.result = none then world
    else { world with writing := (Callback.js error value).writes.map fun w => (c, w) }

/-- The next write goes to the reply the callback was made with. -/
def World.write (world : World σ) : World σ :=
  match world.writing with
  | [] => world
  | (c, w) :: rest =>
    match world.callbacks[c]?.bind AsyncCallBackPoint.result with
    | none => { world with writing := rest }
    | some i =>
      { world with
        requests := world.requests.modify i fun request => { request with reply := request.reply.write w }
        writing := rest
        written := world.written ++ [(c, w)] }

def World.step (world : World σ) : Event → World σ
  | .arrive stub kind info =>
    { world with requests := world.requests ++ [⟨stub, kind, info, .arrived, {}, []⟩] }
  | .enter i posted =>
    if world.canEnter i then
      { world with
        requests := world.requests.modify i fun request => { request with status := .inCall }
        tasks := if posted then world.tasks ++ [i] else world.tasks }
    else world
  | .runTask i outcome =>
    match world.requests[i]? with
    | none => world
    | some request =>
      if i ∈ world.tasks ∧ world.writing = [] then
        world.runTask setCallingInfo getCallingInfo i request outcome
      else world
  | .callback c error value => if world.writing = [] then world.beginCallback c error value else world
  | .write => world.write
  | .read i field =>
    { world with requests := world.requests.modify i fun request =>
        if request.status = .inCall ∧ field ∈ request.kind.fields then
          { request with reads := request.reads ++ [getField request.reply field] }
        else request }
  | .leave i =>
    { world with requests := world.requests.modify i fun request =>
        if request.status = .inCall then { request with status := .returned } else request }

/-- The world after `events`. -/
def run (base : σ) (events : List Event) : World σ :=
  events.foldl (World.step setCallingInfo getCallingInfo) (.init base)

/-! ## Replies that belong to their requests -/

/-- What the callbacks made in the task of request `i` have written. -/
def World.ownWrites (world : World σ) (i : ℕ) : List FieldWrite :=
  world.written.filterMap fun cw =>
    if world.callbacks[cw.1]?.map AsyncCallBackPoint.task = some i then some cw.2 else none

/-- All a request has read was written by callbacks made in its own task, into a new reply, and the
methods of JS are called with the caller of the request whose task it is. -/
structure World.Belongs (world : World σ) : Prop where
  reads : ∀ i request, world.requests[i]? = some request → ∀ value ∈ request.reads,
    ∃ own field, own <+: world.ownWrites i ∧ field ∈ request.kind.fields ∧
      value = getField (own.foldl ResultWrap.write {}) field
  calls : ∀ call ∈ world.methodCalls, ∃ request, world.requests[call.1]? = some request ∧
    call.2 = some request.info

/-! ## Steps -/

/-- The callbacks belong to requests that have arrived, their replies to the requests whose tasks made
them, and the reply of a request is what its own callbacks have written. -/
structure World.Kept (world : World σ) : Prop where
  owners : ∀ point ∈ world.callbacks, point.result = some point.task
  arrived : ∀ point ∈ world.callbacks, point.task < world.requests.length
  made : ∀ cw ∈ world.written, cw.1 < world.callbacks.length
  replies : ∀ i request, world.requests[i]? = some request →
    request.reply = (world.ownWrites i).foldl ResultWrap.write {}
  belongs : world.Belongs

section Steps

variable {setCallingInfo : σ → CallingInfo → σ} {getCallingInfo : σ → Option CallingInfo}
  {world world' : World σ} {i : ℕ}

theorem ownWrites_congr (hcallbacks : world'.callbacks = world.callbacks)
    (hwritten : world'.written = world.written) (i : ℕ) :
    world'.ownWrites i = world.ownWrites i := by
  rw [World.ownWrites, World.ownWrites, hcallbacks, hwritten]

/-- Nothing but the reads changes, and what is read is in the reply. -/
def Reads (f : Request → Request) : Prop :=
  ∀ request, (f request).kind = request.kind ∧ (f request).info = request.info ∧
    (f request).reply = request.reply ∧ ∀ value ∈ (f request).reads, value ∈ request.reads ∨
      ∃ field ∈ request.kind.fields, value = getField request.reply field

/-- A step of a request's own thread. -/
theorem World.Kept.modify (h : world.Kept) {f : Request → Request} (hf : Reads f)
    (hrequests : world'.requests = world.requests.modify i f)
    (hcallbacks : world'.callbacks = world.callbacks) (hwritten : world'.written = world.written)
    (hcalls : world'.methodCalls = world.methodCalls) : world'.Kept := by
  have hget : ∀ (j : ℕ) (request' : Request), world'.requests[j]? = some request' →
      ∃ request, world.requests[j]? = some request ∧
        (request' = f request ∨ request' = request) := by
    intro j request' hj
    rw [hrequests, List.getElem?_modify] at hj
    obtain ⟨request, hrequest, rfl⟩ := Option.map_eq_some_iff.mp hj
    refine ⟨request, hrequest, ?_⟩
    split
    · exact Or.inl rfl
    · exact Or.inr rfl
  have hown := ownWrites_congr hcallbacks hwritten
  constructor
  · rw [hcallbacks]
    exact h.owners
  · rw [hcallbacks, hrequests, List.length_modify]
    exact h.arrived
  · rw [hcallbacks, hwritten]
    exact h.made
  · intro j request' hj
    rw [hown]
    obtain ⟨request, hrequest, rfl | rfl⟩ := hget j request' hj
    · rw [(hf request).2.2.1]
      exact h.replies j request hrequest
    · exact h.replies j request' hrequest
  · constructor
    · intro j request' hj value hvalue
      rw [hown]
      obtain ⟨request, hrequest, rfl | rfl⟩ := hget j request' hj
      · obtain ⟨hkind, -, -, hreads⟩ := hf request
        rw [hkind]
        rcases hreads value hvalue with hold | ⟨field, hfield, rfl⟩
        · exact h.belongs.reads j request hrequest value hold
        · exact ⟨_, field, List.prefix_refl _, hfield, by rw [h.replies j request hrequest]⟩
      · exact h.belongs.reads j request' hrequest value hvalue
    · intro call hcall
      rw [hcalls] at hcall
      obtain ⟨request, hrequest, hinfo⟩ := h.belongs.calls call hcall
      rw [hrequests, List.getElem?_modify, hrequest]
      refine ⟨_, rfl, ?_⟩
      split
      · rw [hinfo, (hf request).2.1]
      · exact hinfo

/-- A step that leaves the requests alone. -/
theorem World.Kept.of_eq (h : world.Kept) (hrequests : world'.requests = world.requests)
    (hcallbacks : world'.callbacks = world.callbacks) (hwritten : world'.written = world.written)
    (hcalls : world'.methodCalls = world.methodCalls) : world'.Kept := by
  have hid : Reads id := fun request => ⟨rfl, rfl, rfl, fun value hvalue => Or.inl hvalue⟩
  refine h.modify (i := 0) hid ?_ hcallbacks hwritten hcalls
  rw [hrequests, List.modify_id]

/-- A new request has no callbacks yet. -/
theorem kept_arrive (h : world.Kept) (stub : ℕ) (kind : Kind) (info : CallingInfo) :
    (world.step setCallingInfo getCallingInfo (.arrive stub kind info)).Kept := by
  have hget : ∀ (j : ℕ) (request : Request),
      (world.requests ++ [⟨stub, kind, info, .arrived, {}, []⟩])[j]? = some request →
      world.requests[j]? = some request ∨
        j = world.requests.length ∧ request = ⟨stub, kind, info, .arrived, {}, []⟩ := by
    intro j request hj
    rw [List.getElem?_append] at hj
    split at hj
    · exact Or.inl hj
    · rename_i hle
      obtain ⟨hlt, heq⟩ := List.getElem?_eq_some_iff.mp hj
      rw [List.length_singleton] at hlt
      rw [List.getElem_singleton] at heq
      exact Or.inr ⟨by omega, heq.symm⟩
  have hnone : world.ownWrites world.requests.length = [] := by
    refine List.filterMap_eq_nil_iff.mpr fun cw _ => if_neg fun htask => ?_
    obtain ⟨point, hpoint, hlength⟩ := Option.map_eq_some_iff.mp htask
    have hlt := h.arrived point (List.mem_of_getElem? hpoint)
    omega
  constructor
  · exact h.owners
  · intro point hpoint
    have hlt := h.arrived point hpoint
    simp only [World.step, List.length_append, List.length_singleton]
    omega
  · exact h.made
  · intro j request hj
    rcases hget j request hj with hold | ⟨rfl, rfl⟩
    · exact h.replies j request hold
    · change {} = (world.ownWrites world.requests.length).foldl ResultWrap.write {}
      rw [hnone, List.foldl_nil]
  · constructor
    · intro j request hj value hvalue
      rcases hget j request hj with hold | ⟨rfl, rfl⟩
      · exact h.belongs.reads j request hold value hvalue
      · exact absurd hvalue List.not_mem_nil
    · intro call hcall
      obtain ⟨request, hrequest, hinfo⟩ := h.belongs.calls call hcall
      refine ⟨request, ?_, hinfo⟩
      exact (List.getElem?_append_left (List.getElem?_eq_some_iff.mp hrequest).1).trans hrequest

/-- The reply of a callback is that of the request whose task made it, and its write is one of the
request's own. -/
theorem kept_write (h : world.Kept) : world.write.Kept := by
  unfold World.write
  split
  · exact h
  · rename_i c w rest hwriting
    split
    · exact h.of_eq rfl rfl rfl rfl
    · rename_i i hpoint
      obtain ⟨point, hc, hresult⟩ := Option.bind_eq_some_iff.mp hpoint
      obtain rfl : point.task = i :=
        Option.some.inj ((h.owners point (List.mem_of_getElem? hc)).symm.trans hresult)
      have hown : ∀ j, World.ownWrites { world with
          requests := world.requests.modify point.task fun request =>
            { request with reply := request.reply.write w }
          writing := rest
          written := world.written ++ [(c, w)] } j =
            world.ownWrites j ++ if point.task = j then [w] else [] := by
        intro j
        rw [World.ownWrites, World.ownWrites, List.filterMap_append]
        refine congrArg (List.append _) ?_
        rw [List.filterMap_cons, List.filterMap_nil, hc, Option.map_some]
        simp only [Option.some.injEq]
        split <;> simp_all
      have hfirst : ∀ j, world.ownWrites j <+: _ := fun j => hown j ▸ List.prefix_append _ _
      constructor
      · exact h.owners
      · intro point' hpoint'
        dsimp only
        rw [List.length_modify]
        exact h.arrived point' hpoint'
      · intro cw hcw
        rcases List.mem_append.mp hcw with hcw | hcw
        · exact h.made cw hcw
        · rw [List.mem_singleton.mp hcw]
          exact (List.getElem?_eq_some_iff.mp hc).1
      · intro j request' hj
        rw [hown, List.foldl_append]
        rw [List.getElem?_modify] at hj
        obtain ⟨request, hrequest, rfl⟩ := Option.map_eq_some_iff.mp hj
        rw [← h.replies j request hrequest]
        split <;> rfl
      · constructor
        · intro j request' hj value hvalue
          rw [List.getElem?_modify] at hj
          obtain ⟨request, hrequest, rfl⟩ := Option.map_eq_some_iff.mp hj
          have hmem : value ∈ request.reads := by
            split at hvalue <;> exact hvalue
          obtain ⟨own, field, hown', hfield, rfl⟩ := h.belongs.reads j request hrequest value hmem
          refine ⟨own, field, hown'.trans (hfirst j), ?_, rfl⟩
          split <;> exact hfield
        · intro call hcall
          obtain ⟨request, hrequest, hinfo⟩ := h.belongs.calls call hcall
          rw [List.getElem?_modify, hrequest]
          refine ⟨_, rfl, ?_⟩
          rw [hinfo]
          split <;> rfl

/-- A callback gets the reply its own task has set. -/
theorem kept_callMethod (h : world.Kept) {request : Request}
    (hrequest : world.requests[i]? = some request)
    (hinfo : getCallingInfo world.base = some request.info)
    (hresult : request.kind.initsResult = true → world.result = some i) (outcome : MethodOutcome) :
    (world.callMethod getCallingInfo i request.kind outcome).Kept := by
  have hcalls : ∀ call ∈ world.methodCalls ++ [(i, getCallingInfo world.base)],
      ∃ request, world.requests[call.1]? = some request ∧ call.2 = some request.info := by
    intro call hcall
    rcases List.mem_append.mp hcall with hcall | hcall
    · exact h.belongs.calls call hcall
    · rw [List.mem_singleton.mp hcall]
      exact ⟨request, hrequest, hinfo⟩
  cases outcome with
  | fails => exact h
  | createFails =>
    unfold World.callMethod
    dsimp only
    split
    · exact h.of_eq rfl rfl rfl rfl
    · exact h
  | calls =>
    unfold World.callMethod
    dsimp only
    split
    · rename_i hinits
      have hown : ∀ j, World.ownWrites { world with
          callbacks := world.callbacks ++ [⟨world.result, i⟩]
          result := none
          methodCalls := world.methodCalls ++ [(i, getCallingInfo world.base)] } j =
            world.ownWrites j := by
        intro j
        refine List.filterMap_congr fun cw hcw => ?_
        rw [List.getElem?_append_left (h.made cw hcw)]
      constructor
      · intro point hpoint
        rcases List.mem_append.mp hpoint with hpoint | hpoint
        · exact h.owners point hpoint
        · rw [List.mem_singleton.mp hpoint]
          exact hresult hinits
      · intro point hpoint
        rcases List.mem_append.mp hpoint with hpoint | hpoint
        · exact h.arrived point hpoint
        · rw [List.mem_singleton.mp hpoint]
          exact (List.getElem?_eq_some_iff.mp hrequest).1
      · intro cw hcw
        have hlt := h.made cw hcw
        rw [List.length_append, List.length_singleton]
        omega
      · intro j request' hj
        rw [hown]
        exact h.replies j request' hj
      · constructor
        · intro j request' hj value hvalue
          rw [hown]
          exact h.belongs.reads j request' hj value hvalue
        · exact hcalls
    · exact ⟨h.owners, h.arrived, h.made, h.replies, h.belongs.reads, hcalls⟩

/-- A task sets the caller and the reply before it calls the method. -/
theorem kept_runTask (hset : ∀ base info, getCallingInfo (setCallingInfo base info) = some info)
    (h : world.Kept) {request : Request} (hrequest : world.requests[i]? = some request)
    (outcome : MethodOutcome) :
    (world.runTask setCallingInfo getCallingInfo i request outcome).Kept := by
  unfold World.runTask
  dsimp only
  split
  · have hkept : World.Kept { world with
        tasks := world.tasks.erase i
        base := setCallingInfo world.base request.info
        result := if request.kind.initsResult then some i else world.result } :=
      h.of_eq rfl rfl rfl rfl
    exact kept_callMethod hkept hrequest (hset _ _) (fun hinits => if_pos hinits) outcome
  · exact h.of_eq rfl rfl rfl rfl

theorem kept_step (hset : ∀ base info, getCallingInfo (setCallingInfo base info) = some info)
    (h : world.Kept) (event : Event) : (world.step setCallingInfo getCallingInfo event).Kept := by
  cases event with
  | arrive stub kind info => exact kept_arrive h stub kind info
  | enter i posted =>
    rw [World.step]
    split
    · refine h.modify (f := fun request => { request with status := .inCall }) ?_ rfl rfl rfl rfl
      exact fun request => ⟨rfl, rfl, rfl, fun value hvalue => Or.inl hvalue⟩
    · exact h
  | runTask i outcome =>
    rw [World.step]
    split
    · exact h
    · rename_i request hrequest
      split
      · exact kept_runTask hset h hrequest outcome
      · exact h
  | callback c error value =>
    rw [World.step]
    split
    · unfold World.beginCallback
      split
      · exact h
      · split
        · exact h
        · exact h.of_eq rfl rfl rfl rfl
    · exact h
  | write => exact kept_write h
  | read i field =>
    refine h.modify (f := fun request =>
      if request.status = .inCall ∧ field ∈ request.kind.fields then
        { request with reads := request.reads ++ [getField request.reply field] }
      else request) ?_ rfl rfl rfl rfl
    intro request
    dsimp only
    split
    · rename_i hcan
      refine ⟨rfl, rfl, rfl, fun value hvalue => ?_⟩
      rcases List.mem_append.mp hvalue with hvalue | hvalue
      · exact Or.inl hvalue
      · exact Or.inr ⟨field, hcan.2, List.mem_singleton.mp hvalue⟩
    · exact ⟨rfl, rfl, rfl, fun value hvalue => Or.inl hvalue⟩
  | leave i =>
    refine h.modify (f := fun request =>
      if request.status = .inCall then { request with status := .returned } else request) ?_
      rfl rfl rfl rfl
    intro request
    dsimp only
    split <;> exact ⟨rfl, rfl, rfl, fun value hvalue => Or.inl hvalue⟩

theorem kept_run (hset : ∀ base info, getCallingInfo (setCallingInfo base info) = some info)
    (base : σ) (events : List Event) : (run setCallingInfo getCallingInfo base events).Kept := by
  induction events using List.reverseRecOn with
  | nil =>
    refine ⟨fun _ h => absurd h List.not_mem_nil, fun _ h => absurd h List.not_mem_nil,
      fun _ h => absurd h List.not_mem_nil, fun i request h => ?_, fun i request h => ?_,
      fun _ h => absurd h List.not_mem_nil⟩
    · simp [run, World.init] at h
    · simp [run, World.init] at h
  | append_singleton events event ih =>
    rw [run, List.foldl_append, List.foldl_cons, List.foldl_nil]
    exact kept_step hset ih event

end Steps

/-- Whatever the requests, the main thread and JS do in which order, what a request has read was
written by callbacks made in its own task, and every method of JS is called with the caller of the
request whose task it is. -/
theorem replies_belong {setCallingInfo : σ → CallingInfo → σ} {getCallingInfo : σ → Option CallingInfo}
    (hset : ∀ base info, getCallingInfo (setCallingInfo base info) = some info)
    (base : σ) (events : List Event) : (run setCallingInfo getCallingInfo base events).Belongs :=
  (kept_run hset base events).belongs

/-- A query times out before its task runs, and its callback comes while the query of another stub
waits. -/
def lateCallback : List Event :=
  [.arrive 0 .query ⟨1, 10, 100⟩, .arrive 1 .query ⟨2, 20, 200⟩, .enter 0 true, .enter 1 true, .leave 0,
    .runTask 0 .calls, .runTask 1 .calls, .callback 0 none (.resultSet 7), .write, .write, .write,
    .read 1 .resultSet, .callback 1 none (.resultSet 8), .write, .write, .write, .read 1 .resultSet]

/-- The other query first finds no result set, and then its own. -/
example : (run (fun _ info => some info) id none lateCallback).requests[1]?.map Request.reads =
    some [.resultSet none, .resultSet (some 8)] := by decide

theorem replies_belong_late : (run (fun _ info => some info) id none lateCallback).Belongs :=
  @replies_belong _ (fun _ info => some info) id (fun _ _ => rfl) none lateCallback

end ProviderReplies

end Cpp

end DataShare
