import DataShare.ResultSetClass

/-!
# Result sets behind a proxy

A result set of another process is an `ISharedResultSetProxy`. The rows are in a region that both
processes map, the row count, the column names and the loads are asked of the `ISharedResultSetStub`
over there, and a count or names that were answered are kept.

The proxy is a `ResultSetClass`. If the bridge always reports the same count and names, and each
request is answered, the proxy stands for the result set that is at the stub, with a cursor of its
own : whatever is called, the answers are those of a local result set (`answers_remote`).
-/

namespace DataShare

namespace Cpp

/-! ## Messages -/

/-- What the messages hold, in the order it is written. -/
inductive MessageItem
  | interfaceToken (descriptor : String)
  | int32 (val : Int32)
  | stringVector (val : List StdString)
deriving DecidableEq

abbrev ResultSetMessage := List MessageItem

namespace ResultSetMessage

def readInterfaceToken : ResultSetMessage → String × ResultSetMessage
  | .interfaceToken descriptor :: rest => (descriptor, rest)
  | message => ("", message)

/-- It gives `0` if there is no `int32_t`. -/
def readInt32 : ResultSetMessage → Int32 × ResultSetMessage
  | .int32 val :: rest => (val, rest)
  | message => (0, message)

def readStringVector : ResultSetMessage → Option (List StdString)
  | .stringVector val :: _ => some val
  | _ => none

end ResultSetMessage

def noError : Int32 := 0

def invalidFd : Int32 := -1

def eInvalidParcel : Int32 := 1042

/-! ## The stub -/

namespace ISharedResultSetStub

def descriptor : String := "OHOS.DataShare.ISharedResultSet"

def funcGetRowCount : UInt32 := 0

def funcGetAllColumnNames : UInt32 := 1

def funcOnGo : UInt32 := 2

def funcClose : UInt32 := 3

variable {σ : Type} (br : ResultSetBridge σ)

/-- The count is what the bridge leaves. -/
def handleGetRowCountRequest : Method (DataShareResultSet σ) (Int32 × ResultSetMessage) := do
  let (errCode, count) ← (localClass br).getRowCount
  pure (noError, .int32 errCode :: if errCode = eOk then [.int32 count] else [])

def handleGetAllColumnNamesRequest : Method (DataShareResultSet σ) (Int32 × ResultSetMessage) := do
  let (errCode, names) ← (localClass br).getAllColumnNames
  pure (noError, .int32 errCode :: if errCode = eOk then [.stringVector names] else [])

def handleOnGoRequest (data : ResultSetMessage) :
    Method (DataShareResultSet σ) (Int32 × ResultSetMessage) := do
  let (oldRow, data) := data.readInt32
  let (newRow, _) := data.readInt32
  match ← (localClass br).onGo oldRow newRow with
  | none => pure (noError, [.int32 (-1)])
  | some cachedIndex => pure (noError, [.int32 cachedIndex])

/-- `Close` drops the block and the bridge. -/
def handleCloseRequest : Method (DataShareResultSet σ) (Int32 × ResultSetMessage) := do
  Method.update fun rs => { rs with sharedBlock := none, bridge := none }
  pure (noError, [.int32 eOk])

/-- `other` is what the IPC library answers to codes that have no handler. -/
def onRemoteRequest (other : Int32 × ResultSetMessage) (code : UInt32) (data : ResultSetMessage) :
    Method (DataShareResultSet σ) (Int32 × ResultSetMessage) :=
  let (remoteDescriptor, data) := data.readInterfaceToken
  if descriptor ≠ remoteDescriptor then pure (invalidFd, [])
  else if code = funcGetRowCount then handleGetRowCountRequest br
  else if code = funcGetAllColumnNames then handleGetAllColumnNamesRequest br
  else if code = funcOnGo then handleOnGoRequest br data
  else if code = funcClose then handleCloseRequest
  else pure other

end ISharedResultSetStub

/-! ## The proxy -/

/-- What becomes of a request : it is answered, it does not reach the stub, or the answer does not come
back. -/
inductive Delivery
  | answered
  | lost (errCode : {e : Int32 // e ≠ 0})
  | unanswered (errCode : {e : Int32 // e ≠ 0})

/-- A proxy, the result set at its stub, and what becomes of the next requests. `mapped` says if
`Unmarshalling` found a block. -/
structure ISharedResultSetProxy (σ : Type) where
  members : CursorMembers := {}
  mapped : Bool := true
  columnNames : List StdString := []
  rowCount : Int32 := -1
  stub : DataShareResultSet σ
  deliveries : List Delivery := []

/-- The negation of an `int`. -/
def negInt (a : Int32) : Option Int32 :=
  if a = -2 ^ 31 then none else some (-a)

namespace ISharedResultSetProxy

variable {σ : Type} (br : ResultSetBridge σ) (other : Int32 × ResultSetMessage)

/-- The block of the proxy is in the same region. `ReadMessageParcel` takes the size of the region and
does not write. -/
def block (p : ISharedResultSetProxy σ) : Option SharedBlock :=
  if p.mapped then p.stub.sharedBlock.map fun b => ⟨b.mem.size, true, b.mem⟩ else none

/-- `SendRequest` : an error and the reply. -/
def sendRequest (code : UInt32) (data : ResultSetMessage) :
    Method (ISharedResultSetProxy σ) (Int32 × ResultSetMessage) := fun p =>
  match p.deliveries.headD .answered with
  | .answered => do
    let (reply, stub) ← ISharedResultSetStub.onRemoteRequest br other code data p.stub
    pure (reply, { p with stub := stub, deliveries := p.deliveries.tail })
  | .lost errCode => pure ((errCode, []), { p with deliveries := p.deliveries.tail })
  | .unanswered errCode => do
    let (_, stub) ← ISharedResultSetStub.onRemoteRequest br other code data p.stub
    pure ((errCode, []), { p with stub := stub, deliveries := p.deliveries.tail })

/-- The error of a request, and then that of its reply. -/
def request {α : Type} (code : UInt32) (value : α)
    (read : ResultSetMessage → Method (ISharedResultSetProxy σ) (Int32 × α)) :
    Method (ISharedResultSetProxy σ) (Int32 × α) := do
  let (errCode, reply) ← sendRequest br other code [.interfaceToken ISharedResultSetStub.descriptor]
  if errCode ≠ 0 then do
    let errCode ← Method.lift (negInt errCode)
    pure (errCode, value)
  else do
    let (errCode, reply) := reply.readInt32
    if errCode ≠ eOk then pure (errCode, value)
    else read reply

/-- Names that are empty are asked for again. -/
def getAllColumnNames : Method (ISharedResultSetProxy σ) (Int32 × List StdString) := do
  let columnNames ← Method.read fun p => p.columnNames
  if columnNames ≠ [] then pure (eOk, columnNames)
  else request br other ISharedResultSetStub.funcGetAllColumnNames [] fun reply =>
    match reply.readStringVector with
    | none => pure (eInvalidParcel, [])
    | some columnNames => do
      Method.update fun p => { p with columnNames := columnNames }
      pure (eOk, columnNames)

/-- A count below 0 is asked for again. -/
def getRowCount : Method (ISharedResultSetProxy σ) (Int32 × Int32) := do
  let rowCount ← Method.read fun p => p.rowCount
  if rowCount ≥ 0 then pure (eOk, rowCount)
  else request br other ISharedResultSetStub.funcGetRowCount 0 fun reply => do
    let (count, _) := reply.readInt32
    Method.update fun p => { p with rowCount := count }
    pure (eOk, count)

def onGo (oldRowIndex newRowIndex : Int32) : Method (ISharedResultSetProxy σ) (Option Int32) := do
  let (errCode, reply) ← sendRequest br other ISharedResultSetStub.funcOnGo
    [.interfaceToken ISharedResultSetStub.descriptor, .int32 oldRowIndex, .int32 newRowIndex]
  if errCode ≠ 0 then pure none
  else do
    let (ret, _) := reply.readInt32
    pure (if ret < 0 then none else some ret)

/-- `CreateProxy`, for a result set that was marshalled : its cursor is not sent. -/
def createProxy (stub : DataShareResultSet σ) (mapped : Bool) (deliveries : List Delivery) :
    ISharedResultSetProxy σ where
  mapped := mapped
  stub := stub
  deliveries := deliveries

end ISharedResultSetProxy

/-- The proxy as a class over `DataShareResultSet`. -/
def remoteClass {σ : Type} (br : ResultSetBridge σ) (other : Int32 × ResultSetMessage) :
    ResultSetClass (ISharedResultSetProxy σ) where
  members p := p.members
  setMembers m p := { p with members := m }
  block p := p.block
  getRowCount := ISharedResultSetProxy.getRowCount br other
  getAllColumnNames := ISharedResultSetProxy.getAllColumnNames br other
  onGo := ISharedResultSetProxy.onGo br other

/-! ## Transparency -/

/-- The count and the names that a bridge reports do not change. -/
structure Stable {σ : Type} (br : ResultSetBridge σ) (columnNames : List StdString)
    (rowCount : Int32) : Prop where
  nonneg : 0 ≤ rowCount
  names : ∀ s, br.getAllColumnNames s = (eOk, columnNames)
  count : ∀ s, br.getRowCount s = (eOk, rowCount)

section Stable

variable {σ : Type} {br : ResultSetBridge σ} {columnNames : List StdString} {rowCount : Int32}
  {rs : DataShareResultSet σ}

theorem Stable.getRowCount_eq (h : Stable br columnNames rowCount) (hs : rs.bridge.isSome) :
    rs.getRowCount br = (eOk, rowCount) := by
  obtain ⟨s, hs⟩ := Option.isSome_iff_exists.mp hs
  rw [DataShareResultSet.getRowCount, hs]
  exact h.count s

theorem Stable.getAllColumnNames_eq (h : Stable br columnNames rowCount) (hs : rs.bridge.isSome) :
    rs.getAllColumnNames br = (eOk, columnNames) := by
  obtain ⟨s, hs⟩ := Option.isSome_iff_exists.mp hs
  rw [DataShareResultSet.getAllColumnNames, hs]
  exact h.names s

end Stable

/-- A load leaves a block in its mapping. -/
theorem writable_of_load {σ : Type} {br : ResultSetBridge σ} {rs : DataShareResultSet σ}
    {b b' : SharedBlock} {s s' : σ} {start target result : Int32} (hb : Writable b)
    (hload : rs.load br b s start target = some (result, b', s')) : Writable b' := by
  obtain ⟨st, b₁, st', b₂, hclear, hset, hprep⟩ :=
    prepare_spec hb ((rs.getAllColumnNames br).2.length % 2 ^ 32)
  unfold DataShareResultSet.load at hload
  rw [hclear] at hload
  simp only [Option.bind_eq_bind, Option.bind_some, hset] at hload
  exact (writable_ofRefines hprep).keep (keeps_fill b₂ _ _ hload)

namespace ISharedResultSetProxy

section Transparency

variable {σ : Type} {br : ResultSetBridge σ} {other : Int32 × ResultSetMessage}
  {columnNames : List StdString} {rowCount : Int32} {p : ISharedResultSetProxy σ}

/-- The local result set that a proxy stands for. -/
def standsFor (p : ISharedResultSetProxy σ) : DataShareResultSet σ :=
  { p.stub with
    rowPos := p.members.rowPos, count := p.members.count,
    startRowPos := p.members.startRowPos, endRowPos := p.members.endRowPos }

/-- All requests are answered, and what is kept was reported. -/
structure Attached (columnNames : List StdString) (rowCount : Int32) (p : ISharedResultSetProxy σ) :
    Prop where
  deliveries : p.deliveries = []
  mapped : p.mapped = true
  bridge : p.stub.bridge.isSome
  writable : ∀ b ∈ p.stub.sharedBlock, Writable b
  count : p.rowCount = -1 ∨ p.rowCount = rowCount
  names : p.columnNames = [] ∨ p.columnNames = columnNames

theorem sendRequest_answered (h : p.deliveries = []) (code : UInt32) (data : ResultSetMessage) :
    sendRequest br other code data p =
      (ISharedResultSetStub.onRemoteRequest br other code data p.stub).map
        fun r => (r.1, { p with stub := r.2 }) := by
  unfold sendRequest
  rw [h]
  dsimp only [List.headD_nil, List.tail_nil]
  rcases ISharedResultSetStub.onRemoteRequest br other code data p.stub with _ | r
  · rfl
  · rw [Option.map_some, ← h]
    rfl

theorem request_answered (hd : p.deliveries = []) {α : Type} {code : UInt32} {value : α}
    {read : ResultSetMessage → Method (ISharedResultSetProxy σ) (Int32 × α)}
    {reply : ResultSetMessage} (hreply : ISharedResultSetStub.onRemoteRequest br other code
      [.interfaceToken ISharedResultSetStub.descriptor] p.stub =
        some ((noError, .int32 eOk :: reply), p.stub)) :
    request br other code value read p = read reply p := by
  unfold request
  rw [Method.bind_apply, sendRequest_answered hd, hreply]
  rfl

theorem onRemoteRequest_getRowCount (hst : Stable br columnNames rowCount)
    {rs : DataShareResultSet σ} (hs : rs.bridge.isSome) :
    ISharedResultSetStub.onRemoteRequest br other ISharedResultSetStub.funcGetRowCount
      [.interfaceToken ISharedResultSetStub.descriptor] rs =
        some ((noError, [.int32 eOk, .int32 rowCount]), rs) := by
  change ISharedResultSetStub.handleGetRowCountRequest br rs = _
  unfold ISharedResultSetStub.handleGetRowCountRequest
  change (Method.read (fun rs => rs.getRowCount br) >>= _) rs = _
  rw [Method.read_bind_apply, hst.getRowCount_eq hs]
  rfl

theorem onRemoteRequest_getAllColumnNames (hst : Stable br columnNames rowCount)
    {rs : DataShareResultSet σ} (hs : rs.bridge.isSome) :
    ISharedResultSetStub.onRemoteRequest br other ISharedResultSetStub.funcGetAllColumnNames
      [.interfaceToken ISharedResultSetStub.descriptor] rs =
        some ((noError, [.int32 eOk, .stringVector columnNames]), rs) := by
  change ISharedResultSetStub.handleGetAllColumnNamesRequest br rs = _
  unfold ISharedResultSetStub.handleGetAllColumnNamesRequest
  change (Method.read (fun rs => rs.getAllColumnNames br) >>= _) rs = _
  rw [Method.read_bind_apply, hst.getAllColumnNames_eq hs]
  rfl

theorem Attached.getRowCount_eq (h : Attached columnNames rowCount p)
    (hst : Stable br columnNames rowCount) :
    getRowCount br other p = some ((eOk, rowCount), { p with rowCount := rowCount }) := by
  unfold getRowCount
  rw [Method.read_bind_apply, Method.ite_apply]
  rcases h.count with hcache | hcache
  · rw [hcache, if_neg (by decide),
      request_answered h.deliveries (onRemoteRequest_getRowCount hst h.bridge)]
    rfl
  · rw [hcache, if_pos hst.nonneg]
    have hp : { p with rowCount := rowCount } = p := by rw [← hcache]
    rw [hp]
    rfl

theorem Attached.getAllColumnNames_eq (h : Attached columnNames rowCount p)
    (hst : Stable br columnNames rowCount) :
    getAllColumnNames br other p =
      some ((eOk, columnNames), { p with columnNames := columnNames }) := by
  unfold getAllColumnNames
  rw [Method.read_bind_apply, Method.ite_apply]
  split
  · rename_i hcache
    have hp : p.columnNames = columnNames := h.names.resolve_left hcache
    rw [← hp]
    rfl
  · rw [request_answered h.deliveries (onRemoteRequest_getAllColumnNames hst h.bridge)]
    rfl

theorem onGo_of_none (rs : DataShareResultSet σ) (h : rs.sharedBlock = none ∨ rs.bridge = none)
    (start target : Int32) : (localClass br).onGo start target rs = some (none, rs) := by
  change (rs.onGo br start target).bind _ = _
  unfold DataShareResultSet.onGo
  rcases h with h | h
  · rw [h]
    rfl
  · rw [h]
    cases rs.sharedBlock <;> rfl

theorem onGo_of_some (rs : DataShareResultSet σ) {b : SharedBlock} {s : σ}
    (hb : rs.sharedBlock = some b) (hs : rs.bridge = some s) (start target : Int32) :
    (localClass br).onGo start target rs = (rs.load br b s start target).map fun r =>
      (if 0 ≤ r.1 then some r.1 else none,
        { rs with sharedBlock := some r.2.1, bridge := some r.2.2 }) := by
  change (rs.onGo br start target).bind _ = _
  unfold DataShareResultSet.onGo
  rw [hb, hs]
  dsimp only
  rcases rs.load br b s start target with _ | r
  · rfl
  · by_cases hr : 0 ≤ r.1
    · simp [hr]
    · simp [hr]

/-- A load does not look at the cursor. -/
theorem onGo_standsFor (p : ISharedResultSetProxy σ) (start target : Int32) :
    (localClass br).onGo start target p.standsFor =
      ((localClass br).onGo start target p.stub).map
        fun r => (r.1, { p with stub := r.2 }.standsFor) := by
  rcases hb : p.stub.sharedBlock with _ | b
  · rw [onGo_of_none _ (.inl hb), onGo_of_none p.standsFor (.inl hb)]
    rfl
  rcases hs : p.stub.bridge with _ | s
  · rw [onGo_of_none _ (.inr hs), onGo_of_none p.standsFor (.inr hs)]
    rfl
  rw [onGo_of_some _ hb hs, onGo_of_some p.standsFor hb hs, Option.map_map]
  rfl

theorem onGo_nonneg {rs rs' : DataShareResultSet σ} {start target cachedIndex : Int32}
    (h : (localClass br).onGo start target rs = some (some cachedIndex, rs')) : 0 ≤ cachedIndex := by
  rcases hb : rs.sharedBlock with _ | b
  · rw [onGo_of_none _ (.inl hb)] at h
    cases h
  rcases hs : rs.bridge with _ | s
  · rw [onGo_of_none _ (.inr hs)] at h
    cases h
  rw [onGo_of_some _ hb hs] at h
  obtain ⟨r, -, hr⟩ := Option.map_eq_some_iff.mp h
  have hindex : (if 0 ≤ r.1 then some r.1 else none) = some cachedIndex := congrArg Prod.fst hr
  split at hindex
  · rename_i hnonneg
    cases hindex
    exact hnonneg
  · cases hindex

theorem onRemoteRequest_onGo (rs : DataShareResultSet σ) (start target : Int32) :
    ISharedResultSetStub.onRemoteRequest br other ISharedResultSetStub.funcOnGo
      [.interfaceToken ISharedResultSetStub.descriptor, .int32 start, .int32 target] rs =
        ((localClass br).onGo start target rs).map
          fun r => ((noError, [.int32 (r.1.getD (-1))]), r.2) := by
  change ISharedResultSetStub.handleOnGoRequest br [.int32 start, .int32 target] rs = _
  unfold ISharedResultSetStub.handleOnGoRequest
  dsimp only [ResultSetMessage.readInt32]
  rw [Method.bind_apply]
  rcases (localClass br).onGo start target rs with _ | ⟨_ | cachedIndex, rs'⟩ <;> rfl

theorem decode_onGo {rs rs' : DataShareResultSet σ} {start target : Int32} {r : Option Int32}
    (h : (localClass br).onGo start target rs = some (r, rs')) :
    (if r.getD (-1) < 0 then none else some (r.getD (-1))) = r := by
  rcases r with _ | cachedIndex
  · rfl
  · exact if_neg (Int32.not_lt.mpr (onGo_nonneg h))

theorem onGo_eq (hd : p.deliveries = []) (start target : Int32) :
    onGo br other start target p =
      ((localClass br).onGo start target p.stub).map fun r => (r.1, { p with stub := r.2 }) := by
  unfold onGo
  rw [Method.bind_apply, sendRequest_answered hd, onRemoteRequest_onGo]
  rcases hgo : (localClass br).onGo start target p.stub with _ | ⟨r, rs⟩
  · rfl
  · change some (if r.getD (-1) < 0 then none else some (r.getD (-1)), { p with stub := rs }) = _
    rw [decode_onGo hgo]
    rfl

theorem Attached.onGo (h : Attached columnNames rowCount p) {start target : Int32}
    {r : Option Int32} {rs : DataShareResultSet σ}
    (hgo : (localClass br).onGo start target p.stub = some (r, rs)) :
    Attached columnNames rowCount { p with stub := rs } := by
  obtain ⟨s, hs⟩ := Option.isSome_iff_exists.mp h.bridge
  rcases hb : p.stub.sharedBlock with _ | b
  · rw [onGo_of_none _ (.inl hb)] at hgo
    cases hgo
    exact h
  rw [onGo_of_some _ hb hs] at hgo
  obtain ⟨⟨result, b', s'⟩, hload, hr⟩ := Option.map_eq_some_iff.mp hgo
  cases hr
  refine ⟨h.deliveries, h.mapped, rfl, ?_, h.count, h.names⟩
  rintro b'' ⟨⟩
  exact writable_of_load (h.writable b hb) hload

/-- The getters do not look at the read-only flag. -/
theorem sameReads_readOnly {b : SharedBlock} (hb : Writable b) :
    SameReads ⟨b.mem.size, true, b.mem⟩ b := by
  have hseek : ∀ limit fuel groupPtr rowPos,
      Rust.SharedBlock.seekGroup ⟨b.mem.size, true, b.mem⟩ limit fuel groupPtr rowPos =
        Rust.SharedBlock.seekGroup ⟨b.mem.size, b.readOnly, b.mem⟩ limit fuel groupPtr rowPos := by
    intro limit fuel
    induction fuel with
    | zero => exact fun _ _ => rfl
    | succ fuel ih =>
      intro groupPtr rowPos
      unfold Rust.SharedBlock.seekGroup
      simp only [ih]
      rfl
  have hunit : ∀ row col, Rust.SharedBlock.getCellUnit ⟨b.mem.size, true, b.mem⟩ row col =
      Rust.SharedBlock.getCellUnit ⟨b.mem.size, b.readOnly, b.mem⟩ row col := by
    intro row col
    unfold Rust.SharedBlock.getCellUnit Rust.SharedBlock.getRowOffset
    simp only [hseek]
    rfl
  have hb' : (⟨b.mem.size, b.readOnly, b.mem⟩ : SharedBlock) = b := by rw [← hb.size_eq]
  rw [hb'] at hunit
  refine ⟨hunit, fun offset size => ?_, rfl⟩
  rw [Rust.SharedBlock.offsetToPtr, Rust.SharedBlock.offsetToPtr, hb.size_eq]

theorem Attached.simulates_getRowCount (hst : Stable br columnNames rowCount) :
    Method.Simulates standsFor (Attached columnNames rowCount)
      (ISharedResultSetProxy.getRowCount br other) (localClass br).getRowCount where
  eq p h := by
    change some (p.standsFor.getRowCount br, p.standsFor) = _
    have hbridge : p.standsFor.bridge.isSome := h.bridge
    rw [hst.getRowCount_eq hbridge, h.getRowCount_eq hst]
    rfl
  keeps p h r hr := by
    rw [h.getRowCount_eq hst] at hr
    cases hr
    exact ⟨h.deliveries, h.mapped, h.bridge, h.writable, .inr rfl, h.names⟩

theorem Attached.simulates_getAllColumnNames (hst : Stable br columnNames rowCount) :
    Method.Simulates standsFor (Attached columnNames rowCount)
      (ISharedResultSetProxy.getAllColumnNames br other) (localClass br).getAllColumnNames where
  eq p h := by
    change some (p.standsFor.getAllColumnNames br, p.standsFor) = _
    have hbridge : p.standsFor.bridge.isSome := h.bridge
    rw [hst.getAllColumnNames_eq hbridge, h.getAllColumnNames_eq hst]
    rfl
  keeps p h r hr := by
    rw [h.getAllColumnNames_eq hst] at hr
    cases hr
    exact ⟨h.deliveries, h.mapped, h.bridge, h.writable, h.count, .inr rfl⟩

theorem simulates_onGo (start target : Int32) :
    Method.Simulates standsFor (Attached columnNames rowCount)
      (ISharedResultSetProxy.onGo br other start target) ((localClass br).onGo start target) where
  eq p h := by
    rw [onGo_eq h.deliveries, onGo_standsFor, Option.map_map]
    rfl
  keeps p h r hr := by
    rw [onGo_eq h.deliveries] at hr
    obtain ⟨⟨r', rs⟩, hgo, rfl⟩ := Option.map_eq_some_iff.mp hr
    exact h.onGo hgo

theorem simulates_remoteClass (hst : Stable br columnNames rowCount) :
    (remoteClass br other).Simulates (localClass br) standsFor (Attached columnNames rowCount) where
  members _ _ := rfl
  setMembers _ _ h := ⟨rfl, h.deliveries, h.mapped, h.bridge, h.writable, h.count, h.names⟩
  block p h := by
    change Option.Rel SameReads p.block p.stub.sharedBlock
    rw [block, h.mapped, if_pos rfl]
    rcases hb : p.stub.sharedBlock with _ | b
    · exact .none
    · exact .some (sameReads_readOnly (h.writable b hb))
  getRowCount := Attached.simulates_getRowCount hst
  getAllColumnNames := Attached.simulates_getAllColumnNames hst
  onGo := simulates_onGo

/-- The result set has its bridge, and its block is in its mapping. -/
def Provided (rs : DataShareResultSet σ) : Prop :=
  rs.bridge.isSome ∧ ∀ b ∈ rs.sharedBlock, Writable b

/-- A new block has no rows. -/
theorem block_new {bridge : σ} {blockSize : ℕ} {region : Bool} {b : SharedBlock}
    (hb : (DataShareResultSet.new bridge blockSize region).sharedBlock = some b) :
    Writable b ∧ b.rowNum = some 0 := by
  have hb' : (if blockSize > maxShareBlockSize ∨ region = false then none
    else (SharedBlock.create blockSize).toOption) = some b := hb
  split at hb'
  · cases hb'
  rename_i hsize
  rcases hcreate : SharedBlock.create blockSize with st | b'
  · rw [hcreate] at hb'
    cases hb'
  rw [hcreate] at hb'
  cases hb'
  exact writable_of_create (not_lt.mp (not_or.mp hsize).1) hcreate

theorem provided_new (bridge : σ) (blockSize : ℕ) (region : Bool) :
    Provided (DataShareResultSet.new bridge blockSize region) :=
  ⟨rfl, fun _ hb => (block_new hb).1⟩

theorem Provided.onGo {rs : DataShareResultSet σ} (h : Provided rs) {start target : Int32}
    {r : Option Int32 × DataShareResultSet σ} (hgo : (localClass br).onGo start target rs = some r) :
    Provided r.2 := by
  obtain ⟨s, hs⟩ := Option.isSome_iff_exists.mp h.1
  rcases hb : rs.sharedBlock with _ | b
  · rw [onGo_of_none _ (.inl hb)] at hgo
    cases hgo
    exact h
  rw [onGo_of_some _ hb hs] at hgo
  obtain ⟨⟨result, b', s'⟩, hload, rfl⟩ := Option.map_eq_some_iff.mp hgo
  refine ⟨rfl, ?_⟩
  rintro b'' ⟨⟩
  exact writable_of_load (h.2 b hb) hload

/-- What is called keeps a result set provided. -/
theorem simulates_provided : (localClass br).Simulates (localClass br) id Provided where
  members _ _ := rfl
  setMembers _ _ h := ⟨rfl, h⟩
  block rs _ := (alike_view_localClass br rs).block
  getRowCount := .read fun _ _ => rfl
  getAllColumnNames := .read fun _ _ => rfl
  onGo start target := {
    eq := fun rs _ => by
      rw [Prod.map_id, Option.map_id]
      rfl
    keeps := fun _ h _ hgo => h.onGo hgo }

/-- The result set with a cursor that was not moved. -/
def rewound (rs : DataShareResultSet σ) : DataShareResultSet σ :=
  { rs with rowPos := initPos, count := -1, startRowPos := -1, endRowPos := -1 }

/-- A client cannot tell a proxy from the result set, whatever the provider has done with it before, if
its bridge is stable and the requests are answered. -/
theorem answers_remote (hst : Stable br columnNames rowCount) (conv : Conversions) (bridge : σ)
    (blockSize : ℕ) (region : Bool) (before calls : List ClientCall)
    {given : List (Int32 × ClientAnswer)} {rs : DataShareResultSet σ}
    (hbefore : (localClass br).answers conv before (.new bridge blockSize region) =
      some (given, rs)) :
    ((remoteClass br other).answers conv calls (createProxy rs true [])).map Prod.fst =
      ((localClass br).answers conv calls (rewound rs)).map Prod.fst := by
  have hrs : Provided rs :=
    (simulates_provided.answers conv before).keeps _ (provided_new bridge blockSize region) _ hbefore
  have hattached : Attached columnNames rowCount (createProxy rs true []) :=
    ⟨rfl, rfl, hrs.1, hrs.2, .inl rfl, .inl rfl⟩
  have hsim : (remoteClass br other).Simulates (localClass br) standsFor
    (Attached columnNames rowCount) := simulates_remoteClass hst
  have heq := (hsim.answers conv calls).eq _ hattached
  have hstands : (createProxy rs true []).standsFor = rewound rs := rfl
  rw [← hstands, heq, Option.map_map]
  rfl

end Transparency

theorem answers_remote_text : Stable textBridge [[105, 100]] 2 ∧
    ((remoteClass textBridge (0, [])).answers digitConversions
      [.move .goToFirstRow, .read 0 (.string []), .isAtLastRow, .move .goToLastRow]
      (createProxy textResultSet true [])).map Prod.fst =
        some [(eOk, .nothing), (eOk, .read (.string [55])), (eOk, .flag false), (eError, .nothing)] := by
  have hst : Stable textBridge [[105, 100]] 2 := ⟨by decide, fun _ => rfl, fun _ => rfl⟩
  exact ⟨hst, (answers_remote hst digitConversions 0 4096 true [] _ rfl).trans (by decide +kernel)⟩

end ISharedResultSetProxy

end Cpp

end DataShare
