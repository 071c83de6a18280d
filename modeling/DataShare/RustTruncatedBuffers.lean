import DataShare.BoundedReaders
import DataShare.PredicatesPaths
import DataShare.RustStatements

/-!
# Truncated buffers

`unmarshal_predicates_from_buffer` and `unmarshal_values_bucket_vec_from_buffer` are given bytes
by another process. Everything they read stands behind a tag or a count, so each of them
decodes the encoding of a value as a message, and refuses a buffer that ends within it
(`unmarshal_of_cut`). That needs no limit on strings or lists : a string that is too long for
the reader is refused as a whole.

On other bytes the decoders end as well. None leaves the buffer, and a loop makes at most one
round for each byte that is left and a last one that fails, whatever the count in the buffer.
-/

namespace DataShare

namespace Rust

/-! ## Values buckets as messages -/

/-- What the reader makes of a value : nothing if it is too long. -/
def DataShareValue.decode : DataShareValue → Option DataShareValue
  | .string v => (decodeString (some maxIpcSize) v).map .string
  | .blob v => if v.length > maxIpcSize then none else some (.blob v)
  | v => some v

def decodeColumn (column : String × DataShareValue) : Option (String × DataShareValue) :=
  (decodeString (some maxIpcSize) column.1).bind fun key => column.2.decode.map (key, ·)

def DataShareValuesBucket.decode (bucket : DataShareValuesBucket) :
    Option DataShareValuesBucket :=
  bucket.values.entries.foldlM
    (fun b column => (decodeColumn column).map fun column => b.put column.1 column.2) {}

theorem decodes_u8Vec (values : List UInt8) (hlen : values.length < 2 ^ 64) :
    Decodes Cursor.mk readU8Vec (writeU8Vec values)
      (if values.length > maxIpcSize then none else some values) := by
  refine (consumes_size hlen).bind ?_
  split
  · exact Refuses.fail _
  · exact consumes_readExact _

theorem decodes_datashareValue (column : String × DataShareValue)
    (hlen : (writeDatashareValue column).length < 2 ^ 64) :
    Decodes Cursor.mk readDatashareValue (writeDatashareValue column) (decodeColumn column) := by
  obtain ⟨key, value⟩ := column
  have htag := fun tag : UInt8 => consumes_basic tag
  simp only [writeDatashareValue, writeString, List.length_append, length_stringBytes] at hlen
  refine (decodes_string key (by omega)).bind fun key _ => ?_
  cases value with
  | null => exact (htag valueTypeNull).bind_nil (Consumes.pure (key, DataShareValue.null))
  | int v =>
    exact (htag valueTypeInt).bind
      ((consumes_basic v).decodes.map fun v => (key, DataShareValue.int v))
  | double v =>
    exact (htag valueTypeDouble).bind
      ((consumes_basic v).decodes.map fun v => (key, DataShareValue.double v))
  | string v =>
    simp only [DataShareValue.bytes, writeString, List.length_append, length_stringBytes] at hlen
    have h := (decodes_string v (by omega)).map fun v => (key, DataShareValue.string v)
    rw [DataShareValue.decode, Option.map_map]
    exact (htag valueTypeString).bind h
  | bool v =>
    exact (htag valueTypeBool).bind
      ((consumes_basic v).decodes.map fun v => (key, DataShareValue.bool v))
  | blob v =>
    simp only [DataShareValue.bytes, writeU8Vec, List.length_append, length_stringBytes] at hlen
    have h := (decodes_u8Vec v (by omega)).map fun v => (key, DataShareValue.blob v)
    rw [DataShareValue.decode, apply_ite (Option.map (key, ·))]
    rw [apply_ite (Option.map fun v => (key, DataShareValue.blob v))] at h
    exact (htag valueTypeBlob).bind h

theorem decodes_valuesBucket (bucket : DataShareValuesBucket)
    (hlen : (writeValuesBucketToBuffer bucket).length < 2 ^ 64) :
    Decodes Cursor.mk readValuesBucketFromBuffer (writeValuesBucketToBuffer bucket)
      bucket.decode := by
  rw [writeValuesBucketToBuffer] at hlen
  obtain ⟨hcount, hcolumn⟩ := bounds_of_vecBytes (l := bucket.values.entries)
    fun column _ => length_writeDatashareValue_pos column
  refine (consumes_size (hcount.trans_lt hlen)).bind (Decodes.foldN fun column hc b => ?_)
  exact (decodes_datashareValue column ((hcolumn column hc).trans_lt hlen)).map
    fun column => b.put column.1 column.2

theorem decodes_valuesBucketVec (values : List DataShareValuesBucket)
    (hlen : (marshalValuesBucketVecToBuffer values).length < 2 ^ 64) :
    Decodes Cursor.mk readValuesBucketVec (marshalValuesBucketVecToBuffer values)
      (values.mapM (·.decode)) :=
  decodes_vec (fun bucket _ => length_writeValuesBucketToBuffer_pos bucket) hlen
    fun bucket _ hbucket => decodes_valuesBucket bucket hbucket

/-! ## Any bytes -/

instance : BoundedFeed Cursor where
  takes_take n bs := by
    by_cases hn : n ≤ bs.length
    · refine ⟨bs.drop n, List.drop_suffix n bs, ?_, fun _ => ?_⟩
      · simp [ByteFeed.take, Cursor.readExact, Cursor.feed_eq, hn]
      · rw [List.length_drop]
        omega
    · refine ⟨[], List.nil_suffix, ?_, ?_⟩ <;>
        simp [ByteFeed.take, Cursor.readExact, Cursor.feed_eq, hn]

theorem takes_string : Takes 8 readString :=
  (takes_bytes (σ := Cursor) maxIpcSize).bind_any fun _ => .ofOption _

theorem takes_basicVec (α : Type) [BasicType α] : Takes 8 (readBasicVec α) :=
  takes_boundedVec _ (takes_basic α).zero

/-- A tag and what may follow it. -/
theorem takes_tagged {α : Type} {f : UInt8 → Reader Cursor α} (hf : ∀ tag, Takes 0 (f tag)) :
    Takes 1 (readBasic Cursor UInt8 >>= f) :=
  (takes_basic UInt8).bind_any hf

theorem takes_singleValue : Takes 1 readSingleValue := by
  refine takes_tagged fun tag => ?_
  refine .ite (.pure _) (.ite ((takes_basic Int32).zero_map _) (.ite ?_ (.ite ?_ (.ite ?_ ?_))))
  · exact (takes_basic Double).zero_map _
  · exact takes_string.zero_map _
  · exact (takes_basic Bool).zero_map _
  · exact .ite ((takes_basic Int64).zero_map _) (.fail 0)

theorem takes_multiValue : Takes 1 readMultiValue := by
  refine takes_tagged fun tag => ?_
  refine .ite (.pure _) (.ite ?_ (.ite ?_ (.ite ?_ (.ite ?_ (.fail 0)))))
  · exact (takes_basicVec Int32).zero_map _
  · exact (takes_basicVec Int64).zero_map _
  · exact (takes_basicVec Double).zero_map _
  · exact (takes_vec takes_string.zero).zero_map _

theorem takes_operationItem : Takes 4 readOperationItem := by
  refine (takes_basic Int32).bind_any fun op => ?_
  have hsingles : Takes 8 readSingleValueVec := takes_vec takes_singleValue.zero
  have hmultis : Takes 8 readMultiValueVec := takes_vec takes_multiValue.zero
  exact hsingles.zero.bind_any fun _ => hmultis.zero_map _

theorem takes_predicates : Takes 0 readPredicates := by
  have hitems : Takes 8 readOperationItemVec :=
    takes_vec takes_operationItem.zero
  have hargs : Takes 8 readStringVec := takes_vec takes_string.zero
  refine hitems.zero.bind_any fun _ => ?_
  refine takes_string.zero.bind_any fun _ => ?_
  refine hargs.zero.bind_any fun _ => ?_
  exact takes_string.zero.bind_any fun _ => (takes_basic Int16).zero_map _

theorem takes_column (bucket : DataShareValuesBucket) : Takes 8 (readColumn bucket) := by
  have hcolumn : Takes 8 readDatashareValue := by
    refine takes_string.bind_any fun key => (takes_tagged fun tag => ?_).zero
    refine .ite (.pure _) (.ite ((takes_basic Int64).zero_map _) (.ite ?_ (.ite ?_ (.ite ?_ ?_))))
    · exact (takes_basic Double).zero_map _
    · exact takes_string.zero_map _
    · exact (takes_basic Bool).zero_map _
    · exact .ite ((takes_bytes maxIpcSize).zero_map _) (.fail 0)
  exact hcolumn.bind_any fun _ => .pure _

theorem takes_valuesBucket : Takes 8 readValuesBucketFromBuffer :=
  takes_size.bind_any fun n =>
    Takes.foldN (fun bucket => (takes_column bucket).zero) n {}

/-- Whatever the count and the bytes that are left, a loop ends within a round for each of them
and one more. -/
def RoundsBounded {α : Type} (step : α → Reader Cursor α) : Prop :=
  ∀ (count : ℕ) (a : α) (bs : List UInt8), Reader.rounds step count a ⟨bs⟩ ≤ bs.length + 1

theorem roundsBounded_of_takes {α : Type} {k : ℕ} {step : α → Reader Cursor α} (hk : 0 < k)
    (h : ∀ a, Takes k (step a)) : RoundsBounded step :=
  Reader.rounds_le fun a => (h a).mono hk

/-! ## The decoders -/

/-- Any proper prefix of an encoding is refused. On any bytes the decoders take what they read
off the front, and each loop ends with them. -/
theorem unmarshal_of_cut :
    (∀ (p : DataSharePredicates), (marshalPredicatesToBuffer p).length < 2 ^ 64 →
      ∀ data, data <+: marshalPredicatesToBuffer p → data ≠ marshalPredicatesToBuffer p →
        unmarshalPredicatesFromBuffer data = none) ∧
    (∀ values : List DataShareValuesBucket,
      (marshalValuesBucketVecToBuffer values).length < 2 ^ 64 →
      ∀ data, data <+: marshalValuesBucketVecToBuffer values →
        data ≠ marshalValuesBucketVecToBuffer values →
        unmarshalValuesBucketVecFromBuffer data = none) ∧
    (∀ data, (readPredicates.run ⟨data⟩).2.rest <:+ data ∧
      (readValuesBucketVec.run ⟨data⟩).2.rest <:+ data) ∧
    (RoundsBounded fun _ => readOperationItem) ∧ (RoundsBounded fun _ => readSingleValue) ∧
    (RoundsBounded fun _ => readMultiValue) ∧ (RoundsBounded fun _ => readString) ∧
    (RoundsBounded fun _ => readValuesBucketFromBuffer) ∧ RoundsBounded readColumn := by
  refine ⟨fun p hlen data hdata hne => ?_, fun values hlen data hdata hne => ?_, fun data => ?_,
    roundsBounded_of_takes (by decide) fun _ => takes_operationItem,
    roundsBounded_of_takes (by decide) fun _ => takes_singleValue,
    roundsBounded_of_takes (by decide) fun _ => takes_multiValue,
    roundsBounded_of_takes (by decide) fun _ => takes_string,
    roundsBounded_of_takes (by decide) fun _ => takes_valuesBucket,
    roundsBounded_of_takes (by decide) takes_column⟩
  · obtain ⟨rest, hrest⟩ := hdata
    have hpos : rest ≠ [] := fun h => hne (by rw [← hrest, h, List.append_nil])
    rw [marshalPredicates_eq] at hlen hrest
    have hdecodes := decodes_buffer p.wire hlen
    rw [← hrest] at hdecodes
    exact hdecodes.run_cut hpos
  · obtain ⟨rest, hrest⟩ := hdata
    have hpos : rest ≠ [] := fun h => hne (by rw [← hrest, h, List.append_nil])
    have hdecodes := decodes_valuesBucketVec values hlen
    rw [← hrest] at hdecodes
    exact hdecodes.run_cut hpos
  · have hbuckets : Takes 8 readValuesBucketVec :=
      takes_vec takes_valuesBucket.zero
    obtain ⟨rest, hrest, hs, -⟩ := takes_predicates data
    obtain ⟨rest', hrest', hs', -⟩ := hbuckets data
    rw [Cursor.feed_eq] at hs hs'
    rw [hs, hs']
    exact ⟨hrest, hrest'⟩

/-- The encoding of a value without the last of its bytes. -/
theorem unmarshal_sampleBucket_cut :
    unmarshalPredicatesFromBuffer (marshalPredicatesToBuffer {}).dropLast = none ∧
      unmarshalValuesBucketVecFromBuffer
        (marshalValuesBucketVecToBuffer [sampleBucket]).dropLast = none :=
  ⟨unmarshal_of_cut.1 {} (by decide) _ (List.dropLast_prefix _) (by decide),
    unmarshal_of_cut.2.1 [sampleBucket] (by decide +kernel) _ (List.dropLast_prefix _)
      (by decide +kernel)⟩

end Rust

end DataShare
