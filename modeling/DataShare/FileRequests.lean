import DataShare.StubImpl

/-!
# Opening a file

`OpenFile` and `OpenRawFile` of the provider check the write permission of the caller if the
mode has a `w` and the read permission if it has an `r`, and then hand the whole mode to the
extension. The requests of other processes reach them through `OnRemoteRequest`, where only
`OpenFileInner` refuses a mode, the empty one.

A mode with neither letter is not checked at all. A request calls the extension with the
permissions it needs exactly if its mode has one of the letters, or the caller holds one of the
permissions anyway (`guarded_iff`).
-/

namespace DataShare

namespace Cpp

/-- A call of `OpenFile` or `OpenRawFile` of the extension. -/
inductive FileCall
  | openFile (uri mode : StdString)
  | openRawFile (uri mode : StdString)
deriving DecidableEq

def FileCall.mode : FileCall → StdString
  | .openFile _ mode => mode
  | .openRawFile _ mode => mode

/-- The stub, with what the extension answers when a file is opened. -/
structure FileStub extends DataShareStubImpl where
  fileAnswer : FileCall → Int32

/-- A file descriptor or an error, and the calls of the extension. -/
structure OpenedFile where
  fd : Int32
  calls : List FileCall

namespace FileStub

variable (stub : FileStub)

/-- The body of both methods. `w` is 119 and `r` is 114. -/
def openChecked (call : FileCall) (mode : StdString) : OpenedFile :=
  match stub.extension with
  | none => ⟨defaultNumber, []⟩
  | some extension =>
    let needWrite := decide (119 ∈ mode)
    if needWrite && !stub.checkCallingPermission extension.writePermission then
      ⟨permissionErrorNumber, []⟩
    else
      let needRead := decide (114 ∈ mode)
      if needRead && !stub.checkCallingPermission extension.readPermission then
        ⟨permissionErrorNumber, []⟩
      else if stub.flag = 0 ∨ stub.flag = 1 then ⟨stub.fileAnswer call, [call]⟩
      else ⟨-1, []⟩

def openFile (uri mode : StdString) : OpenedFile :=
  stub.openChecked (.openFile uri mode) mode

def openRawFile (uri mode : StdString) : OpenedFile :=
  stub.openChecked (.openRawFile uri mode) mode

end FileStub

/-! ## Requests of other processes -/

/-- The requests that open a file. -/
inductive FileCommand
  | openFile
  | openFileWithErrCode
  | openRawFile
deriving DecidableEq

/-- The code of `IDataShareInterfaceCode`. -/
def FileCommand.code : FileCommand → UInt32
  | .openFile => 2
  | .openRawFile => 3
  | .openFileWithErrCode => 25

/-- What a request is read as : whether its token is the descriptor of the stub, the uri and the
mode if both are read, and whether a descriptor can be written to its reply. -/
structure FileParcels where
  isDescriptor : Bool
  uriAndMode : Option (StdString × StdString)
  writes : Int32 → Bool

/-- An error of the platform by its name, or the number that the extension answered. -/
inductive FileErrCode
  | ok
  | invalidState
  | invalidValue
  | invalidData
  | number (fd : Int32)
deriving DecidableEq

/-- The error code, the descriptor in the reply, and the calls of the extension. -/
structure FileReply where
  err : FileErrCode
  fd : Option Int32
  calls : List FileCall

namespace FileStub

variable (stub : FileStub)

/-- `OpenFileInner`, to the error it returns or what `OpenFile` did. -/
def openFileInner (parcels : FileParcels) : Except FileErrCode OpenedFile :=
  match parcels.uriAndMode with
  | none => .error .invalidValue
  | some (uri, mode) => if mode = [] then .error .invalidValue else .ok (stub.openFile uri mode)

/-- `CmdOpenFile` and `CmdOpenFileWithErrCode`, which differ in what they make of a negative
descriptor. -/
def cmdOpenFileWith (negative : Int32 → FileErrCode) (parcels : FileParcels) : FileReply :=
  match stub.openFileInner parcels with
  | .error err => ⟨err, none, []⟩
  | .ok opened =>
    if opened.fd < 0 then ⟨negative opened.fd, none, opened.calls⟩
    else if parcels.writes opened.fd = false then ⟨.invalidValue, none, opened.calls⟩
    else ⟨.ok, some opened.fd, opened.calls⟩

def cmdOpenFile (parcels : FileParcels) : FileReply :=
  stub.cmdOpenFileWith (fun _ => .invalidData) parcels

def cmdOpenFileWithErrCode (parcels : FileParcels) : FileReply :=
  stub.cmdOpenFileWith .number parcels

/-- The number is marshalled, whatever its sign. -/
def cmdOpenRawFile (parcels : FileParcels) : FileReply :=
  match parcels.uriAndMode with
  | none => ⟨.invalidValue, none, []⟩
  | some (uri, mode) =>
    let opened := stub.openRawFile uri mode
    if parcels.writes opened.fd = false then ⟨.invalidValue, none, opened.calls⟩
    else ⟨.ok, some opened.fd, opened.calls⟩

/-- The entries of `stubFuncMap_` for these requests. -/
def stubFunc : FileCommand → FileParcels → FileReply
  | .openFile => stub.cmdOpenFile
  | .openFileWithErrCode => stub.cmdOpenFileWithErrCode
  | .openRawFile => stub.cmdOpenRawFile

def onRemoteFileRequest (command : FileCommand) (parcels : FileParcels) : FileReply :=
  if parcels.isDescriptor = false then ⟨.invalidState, none, []⟩
  else stub.stubFunc command parcels

end FileStub

/-- A way to open a file : a call of the stub, or a request. -/
inductive FileRequest
  | openFile (uri mode : StdString)
  | openRawFile (uri mode : StdString)
  | remote (command : FileCommand) (parcels : FileParcels)

namespace FileRequest

def calls (stub : FileStub) : FileRequest → List FileCall
  | .openFile uri mode => (stub.openFile uri mode).calls
  | .openRawFile uri mode => (stub.openRawFile uri mode).calls
  | .remote command parcels => (stub.onRemoteFileRequest command parcels).calls

/-- What a request that can be read asks of the extension. -/
def asks : FileRequest → Option FileCall
  | .openFile uri mode => some (.openFile uri mode)
  | .openRawFile uri mode => some (.openRawFile uri mode)
  | .remote command parcels =>
    if parcels.isDescriptor = false then none
    else
      match command, parcels.uriAndMode with
      | _, none => none
      | .openRawFile, some (uri, mode) => some (.openRawFile uri mode)
      | _, some (uri, mode) => if mode = [] then none else some (.openFile uri mode)

/-- The permissions that a mode needs : one of the two in any case. -/
structure Allows (stub : FileStub) (extension : ExtAbility) (mode : StdString) : Prop where
  one : stub.granted extension.readPermission = true ∨
    stub.granted extension.writePermission = true
  write : 119 ∈ mode → stub.granted extension.writePermission = true
  read : 114 ∈ mode → stub.granted extension.readPermission = true

/-- The extension is called only for what the request asks, with the permissions of its mode. -/
def Guarded (stub : FileStub) (extension : ExtAbility) (request : FileRequest) : Prop :=
  ∀ call ∈ request.calls stub, request.asks = some call ∧ Allows stub extension call.mode

end FileRequest

/-! ## What is checked -/

section Checks

variable {stub : FileStub} {extension : ExtAbility} {request : FileRequest}

/-- The two checks, behind which the extension is called. -/
def ModeChecked (stub : FileStub) (extension : ExtAbility) (mode : StdString) : Prop :=
  (119 ∈ mode → stub.checkCallingPermission extension.writePermission = true) ∧
    (114 ∈ mode → stub.checkCallingPermission extension.readPermission = true)

theorem mem_calls_openChecked (hextension : stub.extension = some extension) {target call : FileCall}
    {mode : StdString} :
    call ∈ (stub.openChecked target mode).calls ↔
      call = target ∧ ModeChecked stub extension mode ∧ (stub.flag = 0 ∨ stub.flag = 1) := by
  rw [FileStub.openChecked, hextension, ModeChecked]
  by_cases hw : 119 ∈ mode ∧ stub.checkCallingPermission extension.writePermission = false
  · simp [hw]
  · by_cases hr : 114 ∈ mode ∧ stub.checkCallingPermission extension.readPermission = false
    · have hstop : ¬(∀ _ : 114 ∈ mode,
          stub.checkCallingPermission extension.readPermission = true) := by
        simp [hr]
      have hgo : (decide (119 ∈ mode) &&
          !stub.checkCallingPermission extension.writePermission) = false := by
        simpa using hw
      simp [hgo, hr]
    · have hgo : (decide (119 ∈ mode) &&
          !stub.checkCallingPermission extension.writePermission) = false := by
        simpa using hw
      have hgo' : (decide (114 ∈ mode) &&
          !stub.checkCallingPermission extension.readPermission) = false := by
        simpa using hr
      have hwrite : 119 ∈ mode → stub.checkCallingPermission extension.writePermission = true := by
        simpa using hw
      have hread : 114 ∈ mode → stub.checkCallingPermission extension.readPermission = true := by
        simpa using hr
      by_cases hflag : stub.flag = 0 ∨ stub.flag = 1
      · simpa [hgo, hgo', hflag] using fun _ => ⟨hwrite, hread⟩
      · simp [hgo, hgo', hflag]

/-- The requests for `OpenFile` call what it calls. -/
theorem calls_cmdOpenFileWith (negative : Int32 → FileErrCode) {parcels : FileParcels}
    {uri mode : StdString} (hdata : parcels.uriAndMode = some (uri, mode)) :
    (stub.cmdOpenFileWith negative parcels).calls =
      if mode = [] then [] else (stub.openFile uri mode).calls := by
  rw [FileStub.cmdOpenFileWith, FileStub.openFileInner, hdata]
  by_cases hmode : mode = []
  · simp [hmode]
  · simp only [if_neg hmode]
    split
    · rfl
    · split <;> rfl

theorem calls_cmdOpenRawFile {parcels : FileParcels} {uri mode : StdString}
    (hdata : parcels.uriAndMode = some (uri, mode)) :
    (stub.cmdOpenRawFile parcels).calls = (stub.openRawFile uri mode).calls := by
  rw [FileStub.cmdOpenRawFile, hdata]
  dsimp only
  split <;> rfl

/-- A request that is not for this stub, or that cannot be read, calls nothing. -/
theorem calls_remote_of_not_read {command : FileCommand} {parcels : FileParcels}
    (h : parcels.isDescriptor = false ∨ parcels.uriAndMode = none) :
    (stub.onRemoteFileRequest command parcels).calls = [] := by
  rw [FileStub.onRemoteFileRequest]
  by_cases hours : parcels.isDescriptor = false
  · rw [if_pos hours]
  · have hdata := h.resolve_left hours
    rw [if_neg hours]
    cases command <;>
      simp [FileStub.stubFunc, FileStub.cmdOpenFile, FileStub.cmdOpenFileWithErrCode,
        FileStub.cmdOpenRawFile, FileStub.cmdOpenFileWith, FileStub.openFileInner, hdata]

/-- What each request does : it calls what it asks for, behind the checks of the mode. -/
theorem FileRequest.mem_calls_iff (hextension : stub.extension = some extension)
    {call : FileCall} :
    call ∈ request.calls stub ↔
      request.asks = some call ∧ ModeChecked stub extension call.mode ∧
        (stub.flag = 0 ∨ stub.flag = 1) := by
  have hopen : ∀ target : FileCall,
      call ∈ (stub.openChecked target target.mode).calls ↔
        some target = some call ∧ ModeChecked stub extension call.mode ∧
          (stub.flag = 0 ∨ stub.flag = 1) := by
    intro target
    rw [mem_calls_openChecked hextension, Option.some_inj]
    constructor
    · rintro ⟨rfl, h⟩
      exact ⟨rfl, h⟩
    · rintro ⟨rfl, h⟩
      exact ⟨rfl, h⟩
  cases request with
  | openFile uri mode => exact hopen (.openFile uri mode)
  | openRawFile uri mode => exact hopen (.openRawFile uri mode)
  | remote command parcels =>
    rw [FileRequest.calls]
    by_cases hours : parcels.isDescriptor = false
    · simp [calls_remote_of_not_read (Or.inl hours), FileRequest.asks, hours]
    · cases hdata : parcels.uriAndMode with
      | none => simp [calls_remote_of_not_read (Or.inr hdata), FileRequest.asks, hours, hdata]
      | some data =>
        obtain ⟨uri, mode⟩ := data
        rw [FileStub.onRemoteFileRequest, if_neg hours]
        cases command with
        | openRawFile =>
          have hasks : (FileRequest.remote .openRawFile parcels).asks =
              some (.openRawFile uri mode) := by
            simp [FileRequest.asks, hours, hdata]
          rw [FileStub.stubFunc, calls_cmdOpenRawFile hdata, hasks]
          exact hopen (.openRawFile uri mode)
        | openFile =>
          rw [FileStub.stubFunc, FileStub.cmdOpenFile, calls_cmdOpenFileWith _ hdata]
          by_cases hmode : mode = []
          · simp [FileRequest.asks, hours, hdata, hmode]
          · have hasks : (FileRequest.remote .openFile parcels).asks =
                some (.openFile uri mode) := by
              simp [FileRequest.asks, hours, hdata, hmode]
            rw [if_neg hmode, hasks]
            exact hopen (.openFile uri mode)
        | openFileWithErrCode =>
          rw [FileStub.stubFunc, FileStub.cmdOpenFileWithErrCode, calls_cmdOpenFileWith _ hdata]
          by_cases hmode : mode = []
          · simp [FileRequest.asks, hours, hdata, hmode]
          · have hasks : (FileRequest.remote .openFileWithErrCode parcels).asks =
                some (.openFile uri mode) := by
              simp [FileRequest.asks, hours, hdata, hmode]
            rw [if_neg hmode, hasks]
            exact hopen (.openFile uri mode)

theorem checkCallingPermission_of_ne_nil {permission : StdString} (h : permission ≠ []) :
    stub.checkCallingPermission permission = stub.granted permission := by
  simp [DataShareStubImpl.checkCallingPermission, h]

/-- The checks give all that a mode needs if it has one of the letters. -/
theorem FileRequest.allows_of_modeChecked {mode : StdString}
    (hread : extension.readPermission ≠ []) (hwrite : extension.writePermission ≠ [])
    (hchecked : ModeChecked stub extension mode)
    (hone : 119 ∈ mode ∨ 114 ∈ mode ∨ stub.granted extension.readPermission = true ∨
      stub.granted extension.writePermission = true) : Allows stub extension mode := by
  rw [ModeChecked, checkCallingPermission_of_ne_nil hread,
    checkCallingPermission_of_ne_nil hwrite] at hchecked
  refine ⟨?_, hchecked.1, hchecked.2⟩
  rcases hone with hw | hr | hheld
  · exact Or.inr (hchecked.1 hw)
  · exact Or.inl (hchecked.2 hr)
  · exact hheld

/-- Exactly when the extension is called only with the permissions of the mode. -/
theorem FileRequest.guarded_iff (hextension : stub.extension = some extension)
    (hread : extension.readPermission ≠ []) (hwrite : extension.writePermission ≠ []) :
    request.Guarded stub extension ↔
      ∀ call, request.asks = some call → stub.flag = 0 ∨ stub.flag = 1 →
        119 ∈ call.mode ∨ 114 ∈ call.mode ∨ stub.granted extension.readPermission = true ∨
          stub.granted extension.writePermission = true := by
  constructor
  · intro h call hasks hflag
    by_cases hw : 119 ∈ call.mode
    · exact Or.inl hw
    · by_cases hr : 114 ∈ call.mode
      · exact Or.inr (Or.inl hr)
      · have hcall := (FileRequest.mem_calls_iff hextension).mpr
          ⟨hasks, ⟨fun hmem => absurd hmem hw, fun hmem => absurd hmem hr⟩, hflag⟩
        exact Or.inr (Or.inr (h call hcall).2.one)
  · intro h call hcall
    obtain ⟨hasks, hchecked, hflag⟩ := (FileRequest.mem_calls_iff hextension).mp hcall
    exact ⟨hasks, allows_of_modeChecked hread hwrite hchecked (h call hasks hflag)⟩

end Checks

/-- A provider that needs `R` to read and `W` to write, and a caller that holds neither. -/
def lockedStub : FileStub where
  extension := some ⟨[82], [87]⟩
  granted _ := false
  flag := 0
  answer _ := 0
  batchAnswer _ := []
  resultSet _ := none
  businessError _ := 0
  fileAnswer _ := 5

theorem FileRequest.guarded_readMode :
    (FileRequest.remote .openFile ⟨true, some ([117], [114]), fun _ => true⟩).Guarded lockedStub
      ⟨[82], [87]⟩ :=
  (FileRequest.guarded_iff rfl (by decide) (by decide)).mpr
    fun call hasks _ => Or.inr (Or.inl (by
      rw [← Option.some.inj hasks]
      decide))

/-- The mode `a` reaches the extension with neither permission. -/
theorem FileRequest.not_guarded_appendMode :
    ¬∀ (stub : FileStub) (extension : ExtAbility) (request : FileRequest),
      stub.extension = some extension → extension.readPermission ≠ [] →
        extension.writePermission ≠ [] → request.Guarded stub extension := by
  intro h
  have hguarded := h lockedStub ⟨[82], [87]⟩
    (.remote .openFile ⟨true, some ([117], [97]), fun _ => true⟩) rfl (by decide) (by decide)
  have hcall : FileCall.openFile [117] [97] ∈
      (FileRequest.remote .openFile ⟨true, some ([117], [97]), fun _ => true⟩).calls lockedStub := by
    decide
  rcases (hguarded _ hcall).2.one with hheld | hheld
  · exact Bool.false_ne_true hheld
  · exact Bool.false_ne_true hheld

end Cpp

end DataShare
