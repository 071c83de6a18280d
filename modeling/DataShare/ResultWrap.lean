import DataShare.StubImpl

/-!
# The reply of the extension

A request of the provider waits for a `ResultWrap`, which the extension's callback fills in :
`AsyncCallback` for an extension in JS, and the `DataShareNativeExtensionCallback` functions for one
in static ArkTS. A callback writes the fields one after the other and the flag last. The one of JS
holds `asyncLock_` while it does, the others hold nothing.

`Callback.writes` are the writes of each callback, in order.
-/

namespace DataShare

namespace Cpp

structure DatashareBusinessError where
  code : Int32 := 0
  message : StdString := []
deriving DecidableEq

structure BatchUpdateResult where
  uri : StdString
  codes : List Int32
deriving DecidableEq

/-- A result set is named by a number, and `none` is a null pointer. -/
structure ResultWrap where
  isRecvReply : Bool := false
  callbackResultNumber : Int32 := -1
  callbackResultString : StdString := []
  callbackResultStringArr : List StdString := []
  callbackResultObject : Option ℕ := none
  businessError : DatashareBusinessError := {}
  updateResults : List BatchUpdateResult := []
deriving DecidableEq

/-- A write of one field. `updateResults` is appended to. -/
inductive FieldWrite
  | recvReply
  | number (value : Int32)
  | string (value : StdString)
  | stringArr (value : List StdString)
  | object (resultSet : ℕ)
  | businessError (error : DatashareBusinessError)
  | updateResult (result : BatchUpdateResult)
deriving DecidableEq

def ResultWrap.write (reply : ResultWrap) : FieldWrite → ResultWrap
  | .recvReply => { reply with isRecvReply := true }
  | .number value => { reply with callbackResultNumber := value }
  | .string value => { reply with callbackResultString := value }
  | .stringArr value => { reply with callbackResultStringArr := value }
  | .object resultSet => { reply with callbackResultObject := some resultSet }
  | .businessError error => { reply with businessError := error }
  | .updateResult result => { reply with updateResults := reply.updateResults ++ [result] }

/-- The number it writes. -/
def FieldWrite.number? : FieldWrite → Option Int32
  | .number value => some value
  | _ => none

theorem FieldWrite.eq_number {w : FieldWrite} {v : Int32} (h : w.number? = some v) : w = .number v := by
  cases w with
  | number value => exact congrArg _ (Option.some.inj h)
  | _ => exact absurd h (by simp [number?])

theorem ResultWrap.callbackResultNumber_write (reply : ResultWrap) (w : FieldWrite) :
    (reply.write w).callbackResultNumber = w.number?.getD reply.callbackResultNumber := by
  cases w <;> rfl

/-- It changes what a `BatchUpdate` reads. -/
def FieldWrite.isResult : FieldWrite → Bool
  | .number _ => true
  | .updateResult _ => true
  | _ => false

theorem ResultWrap.write_of_not_isResult {reply : ResultWrap} {w : FieldWrite}
    (h : w.isResult = false) :
    (reply.write w).callbackResultNumber = reply.callbackResultNumber ∧
      (reply.write w).updateResults = reply.updateResults := by
  cases w with
  | number value => exact Bool.noConfusion h
  | updateResult result => exact Bool.noConfusion h
  | recvReply => exact ⟨rfl, rfl⟩
  | string value => exact ⟨rfl, rfl⟩
  | stringArr value => exact ⟨rfl, rfl⟩
  | object resultSet => exact ⟨rfl, rfl⟩
  | businessError error => exact ⟨rfl, rfl⟩

/-- What an extension in JS passes as the second argument. For an object that is no result set, the
results `UnwrapBatchUpdateResult` unwraps, and unless it unwraps all of it, the array of strings. -/
inductive JsValue
  | number (value : Int32)
  | string (value : StdString)
  | resultSet (resultSet : ℕ)
  | object (results : List BatchUpdateResult) (strings : Option (List StdString))
  | other
deriving DecidableEq

/-- `SetAsyncResult(jsResult, env, businessError, result)`. -/
def setAsyncResult (businessError : DatashareBusinessError) : JsValue → List FieldWrite
  | .number value => [.number value, .businessError businessError, .recvReply]
  | .string value => [.string value, .businessError businessError, .recvReply]
  | .resultSet resultSet => [.object resultSet, .businessError businessError, .recvReply]
  | .object results none => results.map .updateResult ++ [.number 0, .recvReply]
  | .object results (some strings) =>
    results.map .updateResult ++ [.stringArr strings, .businessError businessError, .recvReply]
  | .other => [.businessError businessError, .recvReply]

/-- A call of the callback of a request. The first argument of the one in JS is `none` unless it is an
object ; the others always pass an error, with the code `0` if there is none. -/
inductive Callback
  | js (error : Option DatashareBusinessError) (value : JsValue)
  | arktsInt (error : DatashareBusinessError) (data : Int32)
  | arktsString (error : DatashareBusinessError) (value : StdString)
  | arktsObject (error : DatashareBusinessError) (resultSet : ℕ)
  | arktsBatchUpdate (error : DatashareBusinessError) (results : List BatchUpdateResult)
deriving DecidableEq

namespace Callback

/-- The callback reports an error. -/
def failed : Callback → Bool
  | .js error _ => error.isSome
  | .arktsInt error _ => error.code ≠ 0
  | .arktsString error _ => error.code ≠ 0
  | .arktsObject error _ => error.code ≠ 0
  | .arktsBatchUpdate error _ => error.code ≠ 0

def writes : Callback → List FieldWrite
  | .js error value => setAsyncResult (error.getD {}) value
  | .arktsInt error data => [.number data, .businessError error, .recvReply]
  | .arktsString error value => [.string value, .businessError error, .recvReply]
  | .arktsObject error resultSet => [.object resultSet, .businessError error, .recvReply]
  | .arktsBatchUpdate error results =>
    results.map .updateResult ++ [.businessError error, .number 0, .recvReply]

/-- It holds `asyncLock_` while it writes. -/
def locks : Callback → Bool
  | .js _ _ => true
  | _ => false

/-- The number it writes. -/
def number? : Callback → Option Int32
  | .js _ (.number value) => some value
  | .js _ (.object _ none) => some 0
  | .js _ _ => none
  | .arktsInt _ data => some data
  | .arktsString _ _ => none
  | .arktsObject _ _ => none
  | .arktsBatchUpdate _ _ => some 0

theorem number?_of_mem_writes {callback : Callback} {v : Int32} (h : .number v ∈ callback.writes) :
    callback.number? = some v := by
  cases callback with
  | js error value =>
    cases value with
    | object results strings =>
      cases strings with
      | none => simpa [writes, setAsyncResult, number?, eq_comm] using h
      | some strings => simp [writes, setAsyncResult] at h
    | number value => simpa [writes, setAsyncResult, number?, eq_comm] using h
    | string value => simp [writes, setAsyncResult] at h
    | resultSet resultSet => simp [writes, setAsyncResult] at h
    | other => simp [writes, setAsyncResult] at h
  | arktsInt error data => simpa [writes, number?, eq_comm] using h
  | arktsString error value => simp [writes] at h
  | arktsObject error resultSet => simp [writes] at h
  | arktsBatchUpdate error results => simpa [writes, number?, eq_comm] using h

end Callback

end Cpp

end DataShare
