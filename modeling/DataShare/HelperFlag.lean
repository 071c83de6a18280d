import DataShare.SystemFlag

/-!
# The flag of nested helper operations

An operation of a C++ helper sets the flag of its thread to the `isSystem_` of the helper, and resets
it when it returns. `SubscribeRdbData` calls back the user before it sends its requests, `EnableRdbSubs`
after it, and the callbacks may run operations of other helpers : an `HelperOp` is a tree of them.
A query with a timeout is sent by a thread of a pool, that has a flag of its own, and the destructor
of a helper sends its requests under the flag it finds.

The requests of a list of such trees carry the flags of their own helpers exactly if it is `KeptAll`
(`HelperOp.ownCodes_iff_keptAll`). The proof follows the tree : `Carries` says what some accesses make
of the flag of the caller, under which condition, and it is composed along the accesses
(`Carries.append`).
-/

namespace DataShare.Cpp

/-! ## Operations -/

/-- An operation of a helper that was created with `isSystem`, and the operations of its callbacks. -/
inductive HelperOp where
  /-- The callbacks that run before the requests, and those that run after them. -/
  | operation (isSystem : Bool) (before : List HelperOp) (cmds : List DataShareServiceCmd)
      (after : List HelperOp)
  /-- `Query` with a timeout : `queries` is one more than the number of retries. -/
  | timedQuery (isSystem : Bool) (queries : ℕ)
  /-- The destructor. -/
  | destroy (isSystem : Bool) (cmds : List DataShareServiceCmd)

namespace HelperOp

/-- An operation of one request, if there is a proxy and the call is not refused. -/
def single (isSystem : Bool) (cmd : DataShareServiceCmd) (sends : Bool) : HelperOp :=
  .operation isSystem [] (if sends then [cmd] else []) []

/-- `InsertEx`, and `Insert`. -/
def insertEx (isSystem sends : Bool) : HelperOp := single isSystem .insertEx sends

/-- `UpdateEx`, and `Update`. -/
def updateEx (isSystem sends : Bool) : HelperOp := single isSystem .updateEx sends

/-- `DeleteEx`, and `Delete`. -/
def deleteEx (isSystem sends : Bool) : HelperOp := single isSystem .deleteEx sends

def notifyChange (isSystem sends : Bool) : HelperOp := single isSystem .notifyObservers sends

def addQueryTemplate (isSystem sends : Bool) : HelperOp := single isSystem .addTemplate sends

def delQueryTemplate (isSystem sends : Bool) : HelperOp := single isSystem .delTemplate sends

def publish (isSystem sends : Bool) : HelperOp := single isSystem .publish sends

def getPublishedData (isSystem sends : Bool) : HelperOp := single isSystem .getData sends

/-- `Query` without a timeout. -/
def query (isSystem : Bool) (queries : ℕ) : HelperOp :=
  .operation isSystem [] (List.replicate queries .query) []

/-- The stored changes are replayed to the new observer before its other keys are subscribed. -/
def subscribeRdbData (isSystem : Bool) (callbacks : List HelperOp) (uris : ℕ) : HelperOp :=
  .operation isSystem callbacks (List.replicate uris .subscribeRdb) []

def unsubscribeRdbData (isSystem : Bool) (uris : ℕ) : HelperOp :=
  .operation isSystem [] (List.replicate uris .unsubscribeRdb) []

/-- The stored changes are replayed to the enabled observers after the service has enabled the keys. -/
def enableRdbSubs (isSystem : Bool) (uris : ℕ) (callbacks : List HelperOp) : HelperOp :=
  .operation isSystem [] (List.replicate uris .enableSubscribeRdb) callbacks

def disableRdbSubs (isSystem : Bool) (uris : ℕ) : HelperOp :=
  .operation isSystem [] (List.replicate uris .disableSubscribeRdb) []

def subscribePublishedData (isSystem : Bool) (callbacks : List HelperOp) (uris : ℕ) : HelperOp :=
  .operation isSystem callbacks (List.replicate uris .subscribePublished) []

def unsubscribePublishedData (isSystem : Bool) (uris : ℕ) : HelperOp :=
  .operation isSystem [] (List.replicate uris .unsubscribePublished) []

def enablePubSubs (isSystem : Bool) (uris : ℕ) (callbacks : List HelperOp) : HelperOp :=
  .operation isSystem [] (List.replicate uris .enableSubscribePublished) callbacks

def disablePubSubs (isSystem : Bool) (uris : ℕ) : HelperOp :=
  .operation isSystem [] (List.replicate uris .disableSubscribePublished) []

/-- `~DataShareHelperImpl` unsubscribes all keys whose last observers are of the helper. -/
def destructor (isSystem : Bool) (rdb published : ℕ) : HelperOp :=
  .destroy isSystem
    (List.replicate rdb .unsubscribeRdb ++ List.replicate published .unsubscribePublished)

/-! ## Accesses -/

/-- The thread of the operations, and one of the pool. -/
def caller : ℕ := 0

def poolThread : ℕ := 1

/-- A request of a helper. -/
def request (thread : ℕ) (isSystem : Bool) (cmd : DataShareServiceCmd) : ℕ × SystemAccess :=
  (thread, .request ⟨cmd, isSystem, true⟩)

mutual

/-- The accesses of an operation to the flags of the threads. -/
def events : HelperOp → List (ℕ × SystemAccess)
  | .operation isSystem before cmds after =>
    (caller, .store isSystem) :: (eventsAll before ++
      (cmds.map (request caller isSystem) ++ (eventsAll after ++ [(caller, .store false)])))
  | .timedQuery isSystem queries =>
    (caller, .store isSystem) ::
      (List.replicate queries (request poolThread isSystem .query) ++ [(caller, .store false)])
  | .destroy isSystem cmds => cmds.map (request caller isSystem)

def eventsAll : List HelperOp → List (ℕ × SystemAccess)
  | [] => []
  | op :: ops => op.events ++ eventsAll ops

end

/-! ## Condition -/

/-- The operation does not touch the flag. -/
def isDestroy : HelperOp → Bool
  | .operation .. => false
  | .timedQuery .. => false
  | .destroy .. => true

mutual

/-- The requests of the operation find the flag of their helper, where `inForce` is the flag before.
Requests that follow callbacks do if the helper is not one of the system, or if the callbacks have
done no more than to destroy helpers. -/
def Kept (inForce : Bool) : HelperOp → Prop
  | .operation isSystem before cmds after =>
    KeptAll isSystem before ∧
      ((cmds = [] ∨ isSystem = false ∨ before.all isDestroy = true) ∧
        KeptAll (isSystem && before.all isDestroy) after)
  | .timedQuery isSystem queries => queries = 0 ∨ isSystem = false
  | .destroy isSystem cmds => cmds = [] ∨ inForce = isSystem

def KeptAll (inForce : Bool) : List HelperOp → Prop
  | [] => True
  | op :: ops => op.Kept inForce ∧ KeptAll (inForce && op.isDestroy) ops

end

/-! ## What accesses do with the flag -/

/-- From a flag `inForce` of the caller the accesses leave `after`, and their requests have their own
codes exactly under the condition. The flag of the pool is not touched. -/
def Carries (accesses : List (ℕ × SystemAccess)) (inForce after : Bool) (kept : Prop) : Prop :=
  ∀ flags : ℕ → Bool, flags caller = inForce → flags poolThread = false →
    (runCalls (FlagAccess.exec id) flags accesses).1 caller = after ∧
      (runCalls (FlagAccess.exec id) flags accesses).1 poolThread = false ∧
        ((∀ sent ∈ (runCalls (FlagAccess.exec id) flags accesses).2, OwnCode sent) ↔ kept)

theorem carries_nil (inForce : Bool) : Carries [] inForce inForce True := by
  intro flags hcaller hpool
  exact ⟨hcaller, hpool, by simp⟩

theorem Carries.append {accesses accesses' : List (ℕ × SystemAccess)}
    {inForce between after : Bool} {kept kept' : Prop} (h : Carries accesses inForce between kept)
    (h' : Carries accesses' between after kept') :
    Carries (accesses ++ accesses') inForce after (kept ∧ kept') := by
  intro flags hcaller hpool
  obtain ⟨hcaller, hpool, hkept⟩ := h flags hcaller hpool
  obtain ⟨hafter, hpool', hkept'⟩ := h' _ hcaller hpool
  rw [runCalls_append]
  refine ⟨hafter, hpool', ?_⟩
  simp only [List.forall_mem_append, hkept, hkept']

theorem Carries.congr {accesses : List (ℕ × SystemAccess)} {inForce after after' : Bool}
    {kept kept' : Prop} (h : Carries accesses inForce after kept) (hafter : after = after')
    (hkept : kept ↔ kept') : Carries accesses inForce after' kept' := by
  subst hafter
  rwa [← propext hkept]

theorem carries_store (inForce value : Bool) :
    Carries [(caller, .store value)] inForce value True := by
  intro flags _ hpool
  refine ⟨?_, ?_, ?_⟩
  · exact Function.update_self caller value flags
  · have hne : poolThread ≠ caller := Nat.one_ne_zero
    exact (Function.update_of_ne hne value flags).trans hpool
  · rw [runCalls_cons, runCalls_nil]
    simp [FlagAccess.exec]

theorem Carries.cons {event : ℕ × SystemAccess} {accesses : List (ℕ × SystemAccess)}
    {inForce between after : Bool} {kept kept' : Prop} (h : Carries [event] inForce between kept)
    (h' : Carries accesses between after kept') :
    Carries (event :: accesses) inForce after (kept ∧ kept') :=
  h.append h'

theorem ownCode_request {cmd : DataShareServiceCmd} {isSystem flag : Bool} :
    OwnCode (⟨cmd, isSystem, true⟩, flag) ↔ flag = isSystem :=
  ownCode_iff_flag _

/-- A request of the caller is sent with its flag. -/
theorem carries_request (inForce isSystem : Bool) (cmd : DataShareServiceCmd) :
    Carries [request caller isSystem cmd] inForce inForce (inForce = isSystem) := by
  intro flags hcaller hpool
  refine ⟨hcaller, hpool, ?_⟩
  rw [runCalls_cons, runCalls_nil]
  simp [FlagAccess.exec, request, ownCode_request, hcaller]

/-- A request of the pool is sent without the offset. -/
theorem carries_pool (inForce isSystem : Bool) (cmd : DataShareServiceCmd) :
    Carries [request poolThread isSystem cmd] inForce inForce (isSystem = false) := by
  intro flags hcaller hpool
  refine ⟨hcaller, hpool, ?_⟩
  rw [runCalls_cons, runCalls_nil]
  simp [FlagAccess.exec, request, ownCode_request, hpool, eq_comm]

theorem carries_requests (inForce isSystem : Bool) (cmds : List DataShareServiceCmd) :
    Carries (cmds.map (request caller isSystem)) inForce inForce
      (cmds = [] ∨ inForce = isSystem) := by
  induction cmds with
  | nil => exact (carries_nil inForce).congr rfl (by simp)
  | cons cmd cmds ih =>
    refine ((carries_request inForce isSystem cmd).cons ih).congr rfl ?_
    simp only [reduceCtorEq, false_or, and_iff_left_iff_imp]
    exact Or.inr

theorem carries_queries (inForce isSystem : Bool) (queries : ℕ) :
    Carries (List.replicate queries (request poolThread isSystem .query)) inForce inForce
      (queries = 0 ∨ isSystem = false) := by
  induction queries with
  | zero => exact (carries_nil inForce).congr rfl (by simp)
  | succ queries ih =>
    refine ((carries_pool inForce isSystem .query).cons ih).congr rfl ?_
    simp only [Nat.succ_ne_zero, false_or, and_iff_left_iff_imp]
    exact Or.inr

/-! ## Trees -/

theorem eq_and_iff {isSystem alone : Bool} :
    (isSystem && alone) = isSystem ↔ isSystem = false ∨ alone = true := by
  cases isSystem with
  | true => simp
  | false => simp

mutual

/-- An operation resets the flag, unless it is a destructor. -/
theorem carries_events (inForce : Bool) :
    ∀ op : HelperOp, Carries op.events inForce (inForce && op.isDestroy) (op.Kept inForce)
  | .operation isSystem before cmds after => by
    have hbefore := carries_eventsAll isSystem before
    have hcmds := carries_requests (isSystem && before.all isDestroy) isSystem cmds
    have hafter := carries_eventsAll (isSystem && before.all isDestroy) after
    have hstores := (carries_store inForce isSystem).cons
      (hbefore.append (hcmds.append (hafter.append (carries_store _ false))))
    rw [events]
    refine hstores.congr (Bool.and_false inForce).symm ?_
    rw [Kept, true_and, and_true, eq_and_iff]
  | .timedQuery isSystem queries => by
    have hstores := (carries_store inForce isSystem).cons
      ((carries_queries isSystem isSystem queries).append (carries_store _ false))
    rw [events]
    refine hstores.congr (Bool.and_false inForce).symm ?_
    rw [Kept, true_and, and_true]
  | .destroy isSystem cmds => by
    rw [events]
    refine (carries_requests inForce isSystem cmds).congr (Bool.and_true inForce).symm ?_
    rw [Kept]

theorem carries_eventsAll (inForce : Bool) :
    ∀ ops : List HelperOp,
      Carries (eventsAll ops) inForce (inForce && ops.all isDestroy) (KeptAll inForce ops)
  | [] => by
    rw [eventsAll]
    refine (carries_nil inForce).congr (Bool.and_true inForce).symm ?_
    rw [KeptAll]
  | op :: ops => by
    have hops := (carries_events inForce op).append
      (carries_eventsAll (inForce && op.isDestroy) ops)
    rw [eventsAll]
    refine hops.congr ?_ ?_
    · rw [List.all_cons, Bool.and_assoc]
    · rw [KeptAll]

end

/-- Every request of the operations of a thread has the code of its own helper exactly if its requests
find the flag of the helper. -/
theorem ownCodes_iff_keptAll (ops : List HelperOp) :
    (∀ sent ∈ (flagRun id (eventsAll ops)).2, OwnCode sent) ↔ KeptAll false ops :=
  (carries_eventsAll false ops (fun _ => false) rfl rfl).2.2

/-- A callback of the subscription of a system helper inserts through another helper. -/
theorem not_ownCodes_nested :
    ¬ ∀ sent ∈ (flagRun id (eventsAll [subscribeRdbData true [insertEx false true] 1])).2,
      OwnCode sent := by
  decide +kernel

end HelperOp

end DataShare.Cpp
