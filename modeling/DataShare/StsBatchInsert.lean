import DataShare.CppValuesBucket
import Mathlib.Data.List.Forall2
import Mathlib.Data.List.Induction
import Mathlib.Data.Set.List
import Mathlib.Logic.Function.Basic

/-!
# Batch inserts of the STS provider

`BatchInsert` hands its buckets over to Rust column by column, where a flag says that a column
begins a bucket. A bucket without columns has no column for the flag, and is lost. So the array
has a map for each bucket exactly if none is empty, and all texts are UTF-8
(`handsOver_iff`).
-/

namespace DataShare

namespace Ani

open Cpp (StdString ValueObject DataShareValuesBucket)

/-! ## The array in Rust -/

inductive BucketValue
  | s (val : String)
  | f64 (val : Double)
  | boolean (val : Bool)
  | i64 (val : Int64)
  | uint8Array (val : List UInt8)
  | null
deriving DecidableEq

/-- `HashMap<String, BucketValue>`. -/
abbrev BucketMap : Type :=
  String → Option BucketValue

/-- The `value_buckets` of a `ValuesBucketArrayWrap`. -/
abbrev ValuesBucketArrayWrap : Type :=
  List BucketMap

def BucketMap.new : BucketMap := fun _ => none

def BucketMap.insert (hm : BucketMap) (key : String) (value : BucketValue) : BucketMap :=
  Function.update hm key (some value)

def valuesBucketArrayPushKv (valueBuckets : ValuesBucketArrayWrap) (key : String)
    (value : BucketValue) (newHashmap : Bool) : ValuesBucketArrayWrap :=
  if newHashmap || valueBuckets.isEmpty then valueBuckets ++ [BucketMap.new.insert key value]
  else valueBuckets.dropLast ++ [(valueBuckets.getLastD .new).insert key value]

def valuesBucketArrayPushKvStr (valueBuckets : ValuesBucketArrayWrap) (key value : String)
    (newHashmap : Bool) : ValuesBucketArrayWrap :=
  valuesBucketArrayPushKv valueBuckets key (.s value) newHashmap

def valuesBucketArrayPushKvF64 (valueBuckets : ValuesBucketArrayWrap) (key : String)
    (value : Double) (newHashmap : Bool) : ValuesBucketArrayWrap :=
  valuesBucketArrayPushKv valueBuckets key (.f64 value) newHashmap

def valuesBucketArrayPushKvI64 (valueBuckets : ValuesBucketArrayWrap) (key : String)
    (value : Int64) (newHashmap : Bool) : ValuesBucketArrayWrap :=
  valuesBucketArrayPushKv valueBuckets key (.i64 value) newHashmap

def valuesBucketArrayPushKvBoolean (valueBuckets : ValuesBucketArrayWrap) (key : String)
    (value : Bool) (newHashmap : Bool) : ValuesBucketArrayWrap :=
  valuesBucketArrayPushKv valueBuckets key (.boolean value) newHashmap

def valuesBucketArrayPushKvUint8array (valueBuckets : ValuesBucketArrayWrap) (key : String)
    (value : List UInt8) (newHashmap : Bool) : ValuesBucketArrayWrap :=
  valuesBucketArrayPushKv valueBuckets key (.uint8Array value) newHashmap

def valuesBucketArrayPushKvNull (valueBuckets : ValuesBucketArrayWrap) (key : String)
    (newHashmap : Bool) : ValuesBucketArrayWrap :=
  valuesBucketArrayPushKv valueBuckets key .null newHashmap

/-! ## The loops in C++ -/

/-- `rust::String` of a `std::string`. It throws on bytes that are not UTF-8. -/
def rustString (s : StdString) : Option String :=
  fromUtf8 s

/-- One round of the loop of `PushBucketsArray`. -/
def pushColumn (valueBucketsArray : ValuesBucketArrayWrap) (column : StdString × ValueObject)
    (isNew : Bool) : Option ValuesBucketArrayWrap := do
  let key ← rustString column.1
  match column.2 with
  | .null => pure (valuesBucketArrayPushKvNull valueBucketsArray key isNew)
  | .int value => pure (valuesBucketArrayPushKvI64 valueBucketsArray key value isNew)
  | .double value => pure (valuesBucketArrayPushKvF64 valueBucketsArray key value isNew)
  | .string value => do
    let value ← rustString value
    pure (valuesBucketArrayPushKvStr valueBucketsArray key value isNew)
  | .bool value => pure (valuesBucketArrayPushKvBoolean valueBucketsArray key value isNew)
  | .blob value => pure (valuesBucketArrayPushKvUint8array valueBucketsArray key value isNew)

def pushColumns (valueBucketsArray : ValuesBucketArrayWrap) (isNew : Bool) :
    List (StdString × ValueObject) → Option ValuesBucketArrayWrap
  | [] => some valueBucketsArray
  | column :: columns => do
    let valueBucketsArray ← pushColumn valueBucketsArray column isNew
    pushColumns valueBucketsArray false columns

def pushBucketsArray (valueBucketsArray : ValuesBucketArrayWrap)
    (inputVal : DataShareValuesBucket) : Option ValuesBucketArrayWrap :=
  pushColumns valueBucketsArray true inputVal.valuesMap.entries

/-- The array `BatchInsert` gives to ArkTS. It gives none if an exception leaves its loop. -/
def batchInsertArray (values : List DataShareValuesBucket) : Option ValuesBucketArrayWrap :=
  values.foldlM pushBucketsArray []

/-! ## What is handed over -/

/-- The C++ value of a value in Rust. -/
def BucketValue.toCpp : BucketValue → ValueObject
  | .s val => .string (utf8Bytes val)
  | .f64 val => .double val
  | .boolean val => .bool val
  | .i64 val => .int val
  | .uint8Array val => .blob val
  | .null => .null

/-- The map has the columns of the bucket, with their values, and no others. -/
def Same (bucket : DataShareValuesBucket) (hm : BucketMap) : Prop :=
  ∀ column, column ∈ bucket.valuesMap.entries ↔
    ∃ key value, hm key = some value ∧ column = (utf8Bytes key, value.toCpp)

/-- The array has one map for each bucket, in their order. -/
def HandsOver (values : List DataShareValuesBucket) : Prop :=
  ∃ array, batchInsertArray values = some array ∧ List.Forall₂ Same values array

/-- The names and the texts of a bucket are UTF-8. -/
def IsText (bucket : DataShareValuesBucket) : Prop :=
  ∀ column ∈ bucket.valuesMap.entries, (fromUtf8 column.1).isSome ∧
    ∀ s, column.2 = .string s → (fromUtf8 s).isSome

/-! ## A column at a time -/

/-- A value as it is given to Rust. -/
def toBucketValue : ValueObject → Option BucketValue
  | .null => some .null
  | .int value => some (.i64 value)
  | .double value => some (.f64 value)
  | .string value => (rustString value).map .s
  | .bool value => some (.boolean value)
  | .blob value => some (.uint8Array value)

/-- A column as it is given to Rust. -/
def toColumn (column : StdString × ValueObject) : Option (String × BucketValue) := do
  let key ← rustString column.1
  let value ← toBucketValue column.2
  pure (key, value)

theorem fromUtf8_eq_some_iff {bs : List UInt8} {s : String} :
    fromUtf8 bs = some s ↔ utf8Bytes s = bs := by
  refine ⟨utf8Bytes_of_fromUtf8, ?_⟩
  rintro rfl
  exact fromUtf8_utf8Bytes s

theorem toBucketValue_eq_some {v : ValueObject} {value : BucketValue} :
    toBucketValue v = some value ↔ value.toCpp = v := by
  cases v with
  | string s =>
    rw [toBucketValue, Option.map_eq_some_iff]
    simp only [rustString, fromUtf8_eq_some_iff]
    cases value <;> simp [BucketValue.toCpp]
  | _ => cases value <;> simp [toBucketValue, BucketValue.toCpp, eq_comm]

theorem toColumn_eq_some {column : StdString × ValueObject} {c : String × BucketValue} :
    toColumn column = some c ↔ column = (utf8Bytes c.1, c.2.toCpp) := by
  obtain ⟨name, v⟩ := column
  obtain ⟨key, value⟩ := c
  simp only [toColumn, rustString, Option.bind_eq_bind, Option.bind_eq_some_iff,
    fromUtf8_eq_some_iff, toBucketValue_eq_some, Option.pure_def, Option.some_inj, Prod.mk.injEq]
  constructor
  · rintro ⟨_, rfl, _, rfl, rfl, rfl⟩
    exact ⟨rfl, rfl⟩
  · rintro ⟨rfl, rfl⟩
    exact ⟨key, rfl, value, rfl, rfl, rfl⟩

theorem pushColumn_eq (array : ValuesBucketArrayWrap) (column : StdString × ValueObject)
    (isNew : Bool) : pushColumn array column isNew =
      (toColumn column).map fun c => valuesBucketArrayPushKv array c.1 c.2 isNew := by
  obtain ⟨name, v⟩ := column
  rw [pushColumn, toColumn]
  cases rustString name with
  | none => rfl
  | some key =>
    cases v with
    | string s => cases hs : rustString s <;> simp [toBucketValue, hs, valuesBucketArrayPushKvStr]
    | _ => rfl

/-- The map of columns that are put one after the other. -/
def mapOf (columns : List (String × BucketValue)) : BucketMap :=
  columns.foldl (fun hm c => hm.insert c.1 c.2) .new

theorem mapOf_eq_some {columns : List (String × BucketValue)} (h : (columns.map Prod.fst).Nodup)
    {key : String} {value : BucketValue} :
    mapOf columns key = some value ↔ (key, value) ∈ columns := by
  induction columns using List.reverseRecOn with
  | nil => simp [mapOf, BucketMap.new]
  | append_singleton columns c ih =>
    rw [List.map_append, List.nodup_append] at h
    obtain ⟨hnodup, -, hne⟩ := h
    have hstep : mapOf (columns ++ [c]) = (mapOf columns).insert c.1 c.2 := by
      rw [mapOf, List.foldl_append]
      rfl
    rw [hstep, BucketMap.insert, Function.update_apply, List.mem_append, List.mem_singleton]
    split
    · next hkey =>
      subst hkey
      have hnot : (c.1, value) ∉ columns := fun hmem =>
        hne c.1 (List.mem_map.mpr ⟨_, hmem, rfl⟩) c.1 (by simp) rfl
      rw [or_iff_right hnot, Option.some_inj, Prod.ext_iff]
      exact ⟨fun h => ⟨rfl, h.symm⟩, fun h => h.2.symm⟩
    · next hkey =>
      rw [ih hnodup, or_iff_left fun h => hkey (Prod.ext_iff.mp h).1]

/-! ## A bucket at a time -/

theorem pushColumns_false (array : ValuesBucketArrayWrap) (hm : BucketMap) :
    ∀ columns : List (StdString × ValueObject), pushColumns (array ++ [hm]) false columns =
      (columns.mapM toColumn).map fun cs =>
        array ++ [cs.foldl (fun hm c => hm.insert c.1 c.2) hm]
  | [] => rfl
  | column :: columns => by
    rw [pushColumns, pushColumn_eq, List.mapM_cons]
    cases toColumn column with
    | none => rfl
    | some c =>
      have hpush : valuesBucketArrayPushKv (array ++ [hm]) c.1 c.2 false =
          array ++ [hm.insert c.1 c.2] := by
        simp [valuesBucketArrayPushKv]
      dsimp only [Option.map_some, Option.bind_eq_bind, Option.bind_some]
      rw [hpush, pushColumns_false array (hm.insert c.1 c.2) columns]
      cases columns.mapM toColumn <;> rfl

/-- A bucket with columns is pushed as a map of its own, and one without is not pushed. -/
theorem pushBucketsArray_eq (array : ValuesBucketArrayWrap) (bucket : DataShareValuesBucket) :
    pushBucketsArray array bucket = (bucket.valuesMap.entries.mapM toColumn).map fun columns =>
      array ++ if columns = [] then [] else [mapOf columns] := by
  rw [pushBucketsArray]
  cases bucket.valuesMap.entries with
  | nil =>
    rw [pushColumns, List.mapM_nil]
    exact congrArg some (List.append_nil array).symm
  | cons column columns =>
    rw [pushColumns, pushColumn_eq, List.mapM_cons]
    cases toColumn column with
    | none => rfl
    | some c =>
      have hpush : valuesBucketArrayPushKv array c.1 c.2 true =
          array ++ [BucketMap.new.insert c.1 c.2] := by
        simp [valuesBucketArrayPushKv]
      dsimp only [Option.map_some, Option.bind_eq_bind, Option.bind_some]
      rw [hpush, pushColumns_false array _ columns]
      cases columns.mapM toColumn <;> rfl

/-- The columns of a bucket as they are given to Rust. -/
def Given (bucket : DataShareValuesBucket) (columns : List (String × BucketValue)) : Prop :=
  bucket.valuesMap.entries.mapM toColumn = some columns

theorem foldlM_pushBucketsArray_eq_some {values : List DataShareValuesBucket}
    {array array' : ValuesBucketArrayWrap} :
    values.foldlM pushBucketsArray array = some array' ↔ ∃ buckets, List.Forall₂ Given values buckets ∧
      array' = array ++ (buckets.filter (· ≠ [])).map mapOf := by
  induction values generalizing array with
  | nil => simp [eq_comm]
  | cons bucket values ih =>
    rw [List.foldlM_cons, pushBucketsArray_eq]
    cases hcolumns : bucket.valuesMap.entries.mapM toColumn with
    | none =>
      refine iff_of_false (fun h => by cases h) ?_
      rintro ⟨_, hgiven, -⟩
      cases hgiven with
      | cons hfirst _ => exact absurd (hcolumns.symm.trans hfirst) (by simp)
    | some columns =>
      dsimp only [Option.map_some, Option.bind_eq_bind, Option.bind_some]
      rw [ih]
      constructor
      · rintro ⟨buckets, hgiven, rfl⟩
        refine ⟨columns :: buckets, .cons hcolumns hgiven, ?_⟩
        by_cases hnil : columns = [] <;> simp [hnil]
      · rintro ⟨_, hgiven, rfl⟩
        cases hgiven with
        | @cons _ columns' _ buckets hfirst hgiven =>
          obtain rfl := Option.some_inj.mp (hcolumns.symm.trans hfirst)
          refine ⟨buckets, hgiven, ?_⟩
          by_cases hnil : columns = [] <;> simp [hnil]

theorem mapM_toColumn_eq_some {entries : List (StdString × ValueObject)}
    {columns : List (String × BucketValue)} : entries.mapM toColumn = some columns ↔
      entries = columns.map fun c => (utf8Bytes c.1, c.2.toCpp) := by
  induction entries generalizing columns with
  | nil => cases columns <;> simp
  | cons column entries ih =>
    rw [List.mapM_cons]
    simp only [Option.bind_eq_bind, Option.bind_eq_some_iff, toColumn_eq_some, ih, Option.pure_def,
      Option.some_inj]
    constructor
    · rintro ⟨c, rfl, cs, rfl, rfl⟩
      rfl
    · intro h
      cases columns with
      | nil => cases h
      | cons c cs =>
        obtain ⟨rfl, rfl⟩ := List.cons.inj h
        exact ⟨c, rfl, cs, rfl, rfl⟩

/-- The map of the columns of a bucket has them, and no others. -/
theorem same_mapOf {bucket : DataShareValuesBucket} {columns : List (String × BucketValue)}
    (h : Given bucket columns) : Same bucket (mapOf columns) := by
  have hentries := mapM_toColumn_eq_some.mp h
  have hsorted := bucket.valuesMap.sorted
  rw [SortedKeys, hentries, List.pairwise_map] at hsorted
  have hnodup : (columns.map Prod.fst).Nodup :=
    List.pairwise_map.mpr (hsorted.imp fun {c c'} hlt heq => by
      have hself : compare (utf8Bytes c'.1) (utf8Bytes c'.1) = .eq := Std.ReflCmp.compare_self
      rw [heq, hself] at hlt
      cases hlt)
  intro column
  rw [hentries, List.mem_map]
  constructor
  · rintro ⟨c, hc, rfl⟩
    exact ⟨c.1, c.2, (mapOf_eq_some hnodup).mpr hc, rfl⟩
  · rintro ⟨key, value, hvalue, rfl⟩
    exact ⟨(key, value), (mapOf_eq_some hnodup).mp hvalue, rfl⟩

theorem exists_given_iff (bucket : DataShareValuesBucket) :
    (∃ columns, Given bucket columns) ↔ IsText bucket := by
  have hcolumn (column : StdString × ValueObject) :
      (∃ c : String × BucketValue, (utf8Bytes c.1, c.2.toCpp) = column) ↔
        (fromUtf8 column.1).isSome ∧ ∀ s, column.2 = .string s → (fromUtf8 s).isSome := by
    constructor
    · rintro ⟨c, rfl⟩
      refine ⟨Option.isSome_iff_exists.mpr ⟨c.1, fromUtf8_utf8Bytes c.1⟩, fun s hs => ?_⟩
      obtain ⟨key, value⟩ := c
      cases value with
      | s val =>
        obtain rfl := ValueObject.string.inj hs
        exact Option.isSome_iff_exists.mpr ⟨val, fromUtf8_utf8Bytes val⟩
      | _ => cases hs
    · rintro ⟨hname, htext⟩
      obtain ⟨key, hkey⟩ := Option.isSome_iff_exists.mp hname
      obtain ⟨value, hvalue⟩ : ∃ value, toBucketValue column.2 = some value := by
        cases hv : column.2 with
        | string s =>
          obtain ⟨val, hval⟩ := Option.isSome_iff_exists.mp (htext s hv)
          exact ⟨.s val, congrArg (Option.map BucketValue.s) hval⟩
        | _ => exact ⟨_, rfl⟩
      exact ⟨(key, value), Prod.ext (utf8Bytes_of_fromUtf8 hkey) (toBucketValue_eq_some.mp hvalue)⟩
  have hrange : (∃ columns, Given bucket columns) ↔ bucket.valuesMap.entries ∈
      Set.range (List.map fun c : String × BucketValue => (utf8Bytes c.1, c.2.toCpp)) := by
    simp only [Given, mapM_toColumn_eq_some, Set.mem_range, eq_comm]
  rw [hrange, Set.range_list_map]
  exact forall₂_congr fun column _ => hcolumn column

/-- Every bucket is handed over exactly if none is empty and all are of texts. -/
theorem handsOver_iff (values : List DataShareValuesBucket) : HandsOver values ↔
    ∀ bucket ∈ values, bucket.valuesMap.entries ≠ [] ∧ IsText bucket := by
  unfold HandsOver batchInsertArray
  simp only [foldlM_pushBucketsArray_eq_some, List.nil_append]
  constructor
  · rintro ⟨_, ⟨buckets, hgiven, rfl⟩, hsame⟩
    have hlength := hsame.length_eq.symm.trans hgiven.length_eq
    rw [List.length_map] at hlength
    have hnonempty : ∀ columns ∈ buckets, columns ≠ [] := fun columns hc =>
      of_decide_eq_true (List.length_filter_eq_length_iff.mp hlength columns hc)
    have hcolumns := (List.forall₂_and_left _ _).mpr ⟨hnonempty, hgiven.flip⟩
    refine ((List.forall₂_and_left (R := fun _ _ => True) _ buckets).mp ?_).1
    refine hcolumns.flip.imp fun bucket columns hc => ⟨⟨fun hnil => hc.1 ?_, ?_⟩, trivial⟩
    · have hmap := mapM_toColumn_eq_some.mp hc.2
      rw [hnil] at hmap
      exact List.map_eq_nil_iff.mp hmap.symm
    · exact (exists_given_iff bucket).mp ⟨columns, hc.2⟩
  · intro h
    have hexists (bucket : DataShareValuesBucket) : ∃ columns, bucket ∈ values →
        Given bucket columns := by
      by_cases hmem : bucket ∈ values
      · obtain ⟨columns, hc⟩ := (exists_given_iff bucket).mpr (h bucket hmem).2
        exact ⟨columns, fun _ => hc⟩
      · exact ⟨[], fun hc => absurd hc hmem⟩
    choose columns hcolumns using hexists
    have hgiven : List.Forall₂ Given values (values.map columns) :=
      List.forall₂_map_right_iff.mpr (List.forall₂_same.mpr hcolumns)
    have hnonempty : (values.map columns).filter (· ≠ []) = values.map columns := by
      refine List.filter_eq_self.mpr (List.forall_mem_map.mpr fun bucket hb => decide_eq_true ?_)
      intro hnil
      have hmap := mapM_toColumn_eq_some.mp (hcolumns bucket hb)
      rw [hnil] at hmap
      exact (h bucket hb).1 hmap
    refine ⟨_, ⟨values.map columns, hgiven, rfl⟩, ?_⟩
    rw [hnonempty, List.map_map]
    exact List.forall₂_map_right_iff.mpr
      (List.forall₂_same.mpr fun bucket hb => same_mapOf (hcolumns bucket hb))

/-- Of one bucket without columns no bucket arrives. -/
theorem not_handsOver_empty : ¬HandsOver [{}] := by
  rintro ⟨array, harray, hsame⟩
  have hnone : batchInsertArray [{}] = some [] := rfl
  obtain rfl := Option.some_inj.mp (hnone.symm.trans harray)
  cases hsame

end Ani

end DataShare
