import DataShare.RustStatements

/-!
# The operation codes on the wire

The buffer decoders turn a wire code into an `OperationType` or an `Operation`. Here the
same buffers are read for their codes alone : `predicatesCodes` and `statementsCodes` read
the fields in the same order and keep the codes (`parallel_operationItem`,
`parallel_statement`).

The decoders substitute `EqualTo` and `Insert` for a code they do not know, so what they
decode has the codes of the wire exactly when all these codes are in the enumerations
(`keepsCodes_iff`). The parcel decoder of the same predicates refuses such a code.
-/

namespace DataShare

namespace Rust

/-! ## Reading the codes -/

def readOperationItemCode : Reader Cursor Int32 := do
  let op ← readBasic Cursor Int32
  let _ ← readSingleValueVec
  let _ ← readMultiValueVec
  pure op

def readPredicatesCodes : Reader Cursor (List Int32) := do
  let codes ← readVec readOperationItemCode
  let _ ← readString
  let _ ← readStringVec
  let _ ← readString
  let _ ← readBasic Cursor Int16
  pure codes

/-- The code of a statement and the codes of its predicates. -/
def readStatementCodes : Reader Cursor (Int32 × List Int32) := do
  let op ← readBasic Cursor Int32
  let _ ← readString
  let codes ← readPredicatesCodes
  let _ ← readValuesBucketFromBuffer
  let _ ← readBackReference
  pure (op, codes)

/-- The operation codes in a buffer of predicates. -/
def predicatesCodes (data : List UInt8) : Option (List Int32) :=
  (readPredicatesCodes.run ⟨data⟩).1

/-- The operation codes in a buffer of statements. -/
def statementsCodes (data : List UInt8) : Option (List (Int32 × List Int32)) :=
  ((readVec readStatementCodes).run ⟨data⟩).1

/-! ## What the decoders make of a code -/

/-- `unwrap_or` of `read_operation_item`. -/
def OperationType.ofCode (code : Int32) : OperationType :=
  (fromI32 code).getD .equalTo

/-- `unwrap_or` of the statement decoder. -/
def Operation.ofCode (code : Int32) : Operation :=
  (fromI32 code).getD .insert

/-- A decoder with a default keeps a code exactly when it knows it. -/
theorem code_getD_iff {τ : Type} {fromI32 : Int32 → Option τ} {toI32 : τ → Int32}
    (hto : ∀ t, fromI32 (toI32 t) = some t)
    (hfrom : ∀ {code t}, fromI32 code = some t → toI32 t = code) (default : τ) (code : Int32) :
    toI32 ((fromI32 code).getD default) = code ↔ ∃ t, fromI32 code = some t := by
  constructor
  · intro h
    rw [← h, hto]
    exact ⟨_, rfl⟩
  · rintro ⟨t, ht⟩
    rw [ht, Option.getD_some, hfrom ht]

theorem OperationType.toI32_ofCode (code : Int32) :
    (ofCode code).toI32 = code ↔ ∃ t, fromI32 code = some t :=
  code_getD_iff fromI32_toI32 toI32_of_fromI32 .equalTo code

theorem Operation.toI32_ofCode (code : Int32) :
    (ofCode code).toI32 = code ↔ ∃ t, fromI32 code = some t :=
  code_getD_iff fromI32_toI32 toI32_of_fromI32 .insert code

theorem parallel_operationItem : Reader.Parallel
    (fun (item : OperationItem) code => item.operation = .ofCode code)
    readOperationItem readOperationItemCode := by
  refine Reader.Parallel.bind_same _ fun op => ?_
  refine Reader.Parallel.bind_same _ fun singleParams => ?_
  refine Reader.Parallel.bind_same _ fun multiParams => ?_
  exact Reader.Parallel.pure (OperationItem.operation_ofParams _ _ _)

/-- The operations of decoded predicates, against the codes of their buffer. -/
def DataSharePredicates.FromCodes (p : DataSharePredicates) (codes : List Int32) : Prop :=
  p.operations.map (·.operation) = codes.map .ofCode

theorem map_operation_eq {items : List OperationItem} {codes : List Int32}
    (h : List.Forall₂ (fun item code => item.operation = .ofCode code) items codes) :
    items.map (·.operation) = codes.map .ofCode := by
  induction h with
  | nil => rfl
  | cons hitem _ ih => rw [List.map_cons, List.map_cons, hitem, ih]

theorem parallel_predicates : Reader.Parallel DataSharePredicates.FromCodes
    readPredicates readPredicatesCodes := by
  refine (parallel_readVec parallel_operationItem).bind fun operations codes hops => ?_
  refine Reader.Parallel.bind_same _ fun whereClause => ?_
  refine Reader.Parallel.bind_same _ fun whereArgs => ?_
  refine Reader.Parallel.bind_same _ fun order => ?_
  refine Reader.Parallel.bind_same _ fun mode => ?_
  exact Reader.Parallel.pure (map_operation_eq hops)

/-- A decoded statement, against the codes of its buffer. -/
def OperationStatement.FromCodes (stmt : OperationStatement) (codes : Int32 × List Int32) : Prop :=
  stmt.operationType = .ofCode codes.1 ∧ stmt.predicates.FromCodes codes.2

theorem parallel_statement : Reader.Parallel OperationStatement.FromCodes
    readOperationStatement readStatementCodes := by
  refine Reader.Parallel.bind_same _ fun op => ?_
  refine Reader.Parallel.bind_same _ fun uri => ?_
  refine parallel_predicates.bind fun predicates codes hpreds => ?_
  refine Reader.Parallel.bind_same _ fun valuesBucket => ?_
  refine Reader.Parallel.bind_same _ fun backReference => ?_
  exact Reader.Parallel.pure ⟨rfl, hpreds⟩

/-! ## When the codes are kept -/

/-- The codes of the operations of predicates. -/
def DataSharePredicates.codes (p : DataSharePredicates) : List Int32 :=
  p.operations.map (·.operation.toI32)

def OperationStatement.codes (stmt : OperationStatement) : Int32 × List Int32 :=
  (stmt.operationType.toI32, stmt.predicates.codes)

/-- Accepted predicates have the codes of the buffer. -/
def PredicatesKeepCodes (data : List UInt8) : Prop :=
  ∀ p, unmarshalPredicatesFromBuffer data = some p → predicatesCodes data = some p.codes

/-- Accepted statements have the codes of the buffer. -/
def StatementsKeepCodes (data : List UInt8) : Prop :=
  ∀ stmts, unmarshalOperationStatementVecFromBuffer data = some stmts →
    statementsCodes data = some (stmts.map (·.codes))

/-- Every code is one of `OperationType`. -/
def KnownItemCodes (codes : List Int32) : Prop :=
  ∀ code ∈ codes, ∃ t, OperationType.fromI32 code = some t

/-- The code of the statement is one of `Operation`, and those of its predicates are of
`OperationType`. -/
def KnownStatementCodes (codes : Int32 × List Int32) : Prop :=
  (∃ t, Operation.fromI32 codes.1 = some t) ∧ KnownItemCodes codes.2

theorem DataSharePredicates.FromCodes.codes_eq_iff {p : DataSharePredicates} {codes : List Int32}
    (h : p.FromCodes codes) : codes = p.codes ↔ KnownItemCodes codes := by
  have hcodes : p.codes = codes.map fun code => (OperationType.ofCode code).toI32 := by
    have hmap := congrArg (List.map OperationType.toI32) h
    rwa [List.map_map, List.map_map] at hmap
  rw [hcodes, eq_comm]
  constructor
  · intro heq code hmem
    have heach := List.map_inj_left.mp (heq.trans (List.map_id _).symm)
    exact (OperationType.toI32_ofCode code).mp (heach code hmem)
  · intro hknown
    exact (List.map_congr_left fun code hmem =>
      (OperationType.toI32_ofCode code).mpr (hknown code hmem)).trans (List.map_id _)

theorem OperationStatement.FromCodes.codes_eq_iff {stmt : OperationStatement}
    {codes : Int32 × List Int32} (h : stmt.FromCodes codes) :
    codes = stmt.codes ↔ KnownStatementCodes codes := by
  rw [Prod.ext_iff, OperationStatement.codes, h.1, eq_comm, Operation.toI32_ofCode]
  exact and_congr_right fun _ => h.2.codes_eq_iff

theorem map_codes_eq_iff {stmts : List OperationStatement} {codes : List (Int32 × List Int32)}
    (h : List.Forall₂ OperationStatement.FromCodes stmts codes) :
    codes = stmts.map (·.codes) ↔ ∀ c ∈ codes, KnownStatementCodes c := by
  induction h with
  | nil => simp
  | cons hstmt _ ih => rw [List.map_cons, List.cons_eq_cons, hstmt.codes_eq_iff, ih,
      List.forall_mem_cons]

/-- The decoder that reads in parallel with `codes?` keeps the codes exactly when they are
known. -/
theorem keeps_iff {α κ : Type} {R : α → κ → Prop} {o : Option α} {codes? : Option κ}
    {codes : α → κ} {known : κ → Prop} (hrel : Option.Rel R o codes?)
    (hiff : ∀ a c, R a c → (c = codes a ↔ known c)) :
    (∀ a, o = some a → codes? = some (codes a)) ↔ ∀ c, codes? = some c → known c := by
  cases hrel with
  | none => simp
  | some h => simpa using hiff _ _ h

theorem predicatesKeepCodes_iff (data : List UInt8) :
    PredicatesKeepCodes data ↔ ∀ codes, predicatesCodes data = some codes → KnownItemCodes codes :=
  keeps_iff (parallel_predicates.rel ⟨data⟩) fun _ _ => DataSharePredicates.FromCodes.codes_eq_iff

theorem statementsKeepCodes_iff (data : List UInt8) :
    StatementsKeepCodes data ↔
      ∀ codes, statementsCodes data = some codes → ∀ c ∈ codes, KnownStatementCodes c :=
  keeps_iff ((parallel_readVec parallel_statement).rel ⟨data⟩) fun _ _ => map_codes_eq_iff

/-- The codes of a buffer are kept exactly when they are in the enumerations. -/
theorem keepsCodes_iff (data : List UInt8) :
    (PredicatesKeepCodes data ↔
      ∀ codes, predicatesCodes data = some codes → KnownItemCodes codes) ∧
    (StatementsKeepCodes data ↔
      ∀ codes, statementsCodes data = some codes → ∀ c ∈ codes, KnownStatementCodes c) :=
  ⟨predicatesKeepCodes_iff data, statementsKeepCodes_iff data⟩

/-- One statement with the code 99 and no predicates, values or back reference. -/
def unknownStatement : List UInt8 :=
  sizeBytes 1 ++ (writeBasic (99 : Int32) ++ (writeString "u" ++ (marshalPredicatesToBuffer {} ++
    (writeValuesBucketToBuffer {} ++ writeBackReference {}))))

/-- It is taken for an insertion. -/
theorem unknownStatement_inserts :
    (unmarshalOperationStatementVecFromBuffer unknownStatement).map
        (·.map fun stmt => (stmt.operationType, stmt.uri)) = some [(.insert, "u")] ∧
      ¬∀ data, PredicatesKeepCodes data ∧ StatementsKeepCodes data := by
  refine ⟨by decide +kernel, fun h => ?_⟩
  have hcodes : statementsCodes unknownStatement = some [(99, [])] := by decide +kernel
  have hknown := (statementsKeepCodes_iff unknownStatement).mp (h unknownStatement).2 _ hcodes
  obtain ⟨⟨t, ht⟩, -⟩ := hknown _ (List.mem_singleton_self _)
  cases (by decide : Operation.fromI32 99 = none).symm.trans ht

end Rust

end DataShare
