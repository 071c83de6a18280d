import DataShare.FieldStream
import DataShare.RustPredicates

/-!
# Rust predicates in a `MsgParcel`

The second wire path of `DataSharePredicates`, `ipc/parcel_impl.rs`. A `MsgParcel` is the
parcel of the IPC library : values are read in the order in which they were written, each
as the type it was written as, and a read from an exhausted parcel fails. Nothing is said
about a value that is read as another type. `FieldQueue` is the parcel that refuses it.

Lists are written as an `i32` count and their elements, and a count below zero is taken for
zero by the loops that read them. An unknown operation code is refused, and a list that
comes back empty is dropped.
-/

namespace DataShare

namespace Rust

/-! ## Parcels -/

/-- The types that `parcel.write` and `parcel.read` are used at. -/
inductive ParcelType
  | i16 | i32 | i64 | u32 | f64 | bool | string
deriving DecidableEq

@[reducible] def ParcelType.Val : ParcelType → Type
  | .i16 => Int16
  | .i32 => Int32
  | .i64 => Int64
  | .u32 => UInt32
  | .f64 => Double
  | .bool => Bool
  | .string => String

/-- A value in a parcel. -/
structure ParcelField where
  type : ParcelType
  val : type.Val

/-- `MsgParcel` : `ofFields fs` is the parcel that the values `fs` were written to. -/
class MsgParcel (σ : Type) where
  ofFields : List ParcelField → σ
  read : (type : ParcelType) → Reader σ type.Val
  read_cons : ∀ (type : ParcelType) (val : type.Val) (rest : List ParcelField),
    (read type).run (ofFields (⟨type, val⟩ :: rest)) = (some val, ofFields rest)
  read_nil : ∀ type, ((read type).run (ofFields [])).1 = none

/-- A parcel that keeps its values as they were written. -/
structure FieldQueue where
  fields : List ParcelField

def FieldQueue.read (type : ParcelType) : Reader FieldQueue type.Val where
  run
    | ⟨[]⟩ => (none, ⟨[]⟩)
    | ⟨field :: rest⟩ =>
      if h : field.type = type then (some (h ▸ field.val), ⟨rest⟩) else (none, ⟨field :: rest⟩)

instance : MsgParcel FieldQueue where
  ofFields := FieldQueue.mk
  read := FieldQueue.read
  read_cons type val rest := by simp [FieldQueue.read]
  read_nil type := rfl

theorem consumes_field {σ : Type} [MsgParcel σ] (type : ParcelType) (val : type.Val) :
    Consumes MsgParcel.ofFields (MsgParcel.read type : Reader σ type.Val) [⟨type, val⟩] val where
  whole rest := MsgParcel.read_cons type val rest
  short s t h ht := by
    rcases List.append_eq_singleton_iff.mp h.symm with ⟨rfl, -⟩ | ⟨-, rfl⟩
    · exact MsgParcel.read_nil type
    · exact absurd rfl ht

/-! ## Writing -/

/-- `usize as i32`. -/
def countField (n : ℕ) : ParcelField :=
  ⟨.i32, Int32.ofNat n⟩

def writeSingleValueVariant : SingleValue → List ParcelField
  | .null => [⟨.u32, 0⟩]
  | .int i => [⟨.u32, 1⟩, ⟨.i32, i⟩]
  | .double d => [⟨.u32, 2⟩, ⟨.f64, d⟩]
  | .string s => [⟨.u32, 3⟩, ⟨.string, s⟩]
  | .bool b => [⟨.u32, 4⟩, ⟨.bool, b⟩]
  | .long l => [⟨.u32, 5⟩, ⟨.i64, l⟩]
  | .blob _ => [⟨.u32, 0⟩]

/-- The type of a list is determined from its first element. -/
def writeMultiValueVariant (values : List SingleValue) : List ParcelField :=
  match values.head? with
  | some (.int _) =>
    let v := values.filterMap (·.asInt?)
    ⟨.u32, 1⟩ :: countField v.length :: v.map (⟨.i32, ·⟩)
  | some (.long _) =>
    let v := values.filterMap (·.asLong?)
    ⟨.u32, 2⟩ :: countField v.length :: v.map (⟨.i64, ·⟩)
  | some (.double _) =>
    let v := values.filterMap (·.asDouble?)
    ⟨.u32, 3⟩ :: countField v.length :: v.map (⟨.f64, ·⟩)
  | some (.string _) =>
    let v := values.filterMap (·.asString?)
    ⟨.u32, 4⟩ :: countField v.length :: v.map (⟨.string, ·⟩)
  | _ => [⟨.u32, 0⟩]

/-- `sp_count`. -/
def OperationItem.spCount (item : OperationItem) : Int32 :=
  (if item.field = "" then 0 else 1) + (if item.value.isSome then 1 else 0) +
    Int32.ofNat item.extraSingleParams.length

/-- One round of the loop of `serialize`. -/
def serializeItem (item : OperationItem) : List ParcelField :=
  ⟨.i32, item.operation.toI32⟩ :: ⟨.i32, item.spCount⟩ ::
    (item.singleParams.flatMap writeSingleValueVariant ++
      ⟨.i32, if item.multiValues.isSome then 1 else 0⟩ ::
        item.multiValues.toList.flatMap writeMultiValueVariant)

/-- The values that `serialize` writes to the parcel. -/
def serialize (p : DataSharePredicates) : List ParcelField :=
  countField p.operations.length :: p.operations.flatMap serializeItem ++
    (⟨.string, p.whereClause⟩ :: countField p.whereArgs.length ::
      p.whereArgs.map (⟨.string, ·⟩) ++ [⟨.string, p.order⟩, ⟨.i16, p.settingMode⟩])

/-! ## Reading -/

/-- The number of rounds of `for _ in 0..count`. -/
def rounds (count : Int32) : ℕ :=
  count.toInt.toNat

section Reading

variable (σ : Type) [MsgParcel σ]

def readCounted {α : Type} (p : Reader σ α) : Reader σ (List α) := do
  let count ← MsgParcel.read .i32
  p.readN (rounds count)

def readSingleValueVariant : Reader σ SingleValue := do
  let index : UInt32 ← MsgParcel.read .u32
  if index = 0 then pure .null
  else if index = 1 then do
    let v ← MsgParcel.read .i32
    pure (.int v)
  else if index = 2 then do
    let v ← MsgParcel.read .f64
    pure (.double v)
  else if index = 3 then do
    let v ← MsgParcel.read .string
    pure (.string v)
  else if index = 4 then do
    let v ← MsgParcel.read .bool
    pure (.bool v)
  else if index = 5 then do
    let v ← MsgParcel.read .i64
    pure (.long v)
  else Reader.fail

def readMultiValueVariant : Reader σ (List SingleValue) := do
  let index : UInt32 ← MsgParcel.read .u32
  if index = 0 then pure []
  else if index = 1 then do
    let ints ← readCounted σ (MsgParcel.read .i32)
    pure (ints.map .int)
  else if index = 2 then do
    let longs ← readCounted σ (MsgParcel.read .i64)
    pure (longs.map .long)
  else if index = 3 then do
    let doubles ← readCounted σ (MsgParcel.read .f64)
    pure (doubles.map .double)
  else if index = 4 then do
    let strings ← readCounted σ (MsgParcel.read .string)
    pure (strings.map .string)
  else Reader.fail

/-- `if vals.is_empty() { None } else { Some(vals) }`. -/
def dropEmpty (vals : List SingleValue) : Option (List SingleValue) :=
  if vals.isEmpty then none else some vals

/-- The first list is kept, the others are read and dropped. -/
def readMultiValues : Reader σ (Option (List SingleValue)) := do
  let mpCount : Int32 ← MsgParcel.read .i32
  if mpCount > 0 then do
    let vals ← readMultiValueVariant σ
    let _ ← (readMultiValueVariant σ).readN (rounds mpCount - 1)
    pure (dropEmpty vals)
  else pure none

/-- How `deserialize` makes an item of the parameters. -/
def OperationItem.ofVariants (operation : OperationType) (singleParams : List SingleValue)
    (multiValues : Option (List SingleValue)) : OperationItem :=
  let item (field : String) (value : Option SingleValue) (extra : List SingleValue) :=
    ⟨operation, field, value, multiValues, extra⟩
  match singleParams with
  | [] => item "" none []
  | [param] =>
    if operation = .limit ∨ operation = .offset then item "" (some param) []
    else
      match param with
      | .string s => item s none []
      | param => item "" (some param) []
  | first :: second :: extra =>
    match first with
    | .string s => item s (some second) extra
    | first => item "" (some first) (second :: extra)

/-- One round of the loop of `deserialize`. -/
def deserializeItem : Reader σ OperationItem := do
  let op : Int32 ← MsgParcel.read .i32
  let operation ← Reader.ofOption (OperationType.fromI32 op)
  let singleParams ← readCounted σ (readSingleValueVariant σ)
  let multiValues ← readMultiValues σ
  pure (.ofVariants operation singleParams multiValues)

def deserialize : Reader σ DataSharePredicates := do
  let operations ← readCounted σ (deserializeItem σ)
  let whereClause ← MsgParcel.read .string
  let whereArgs ← readCounted σ (MsgParcel.read .string)
  let order ← MsgParcel.read .string
  let mode ← MsgParcel.read .i16
  pure (((((DataSharePredicates.fromOperations operations).setWhereClause whereClause).setWhereArgs
    whereArgs).setOrder order).setSettingMode mode)

/-- Deserializing the parcel that the values `fields` were written to. -/
def deserializeFrom (fields : List ParcelField) : Option DataSharePredicates :=
  ((deserialize σ).run (MsgParcel.ofFields fields)).1

end Reading

end Rust

end DataShare
