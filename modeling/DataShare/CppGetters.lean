import DataShare.CppResultSet

/-!
# The C++ getters

A getter that succeeds has found a cell in the row of the cursor (`exists_unit_of_read`), and its
argument then has what the cell gives (`CellAt.read_eq`), except where the getter goes wrong :
`GetInt` does not look at the type of the cell, `GetString` leaves its argument as it is at
a null, and `GetBlob` returns no bytes for a number (`Read.Safe`).
-/

namespace DataShare

namespace Cpp

open Rust (Refines Table sizeOfCellUnit cellUnitTypeNull cellUnitTypeInteger cellUnitTypeFloat
  cellUnitTypeString cellUnitTypeBlob)

/-! ## Cells -/

/-- A cell of the source. A string is written with a NUL behind it. -/
inductive Cell
  | null
  | long (v : Int64)
  | double (v : Double)
  | string (v : StdString)
  | blob (v : List UInt8)

namespace Cell

def kind : Cell → ℕ
  | null => cellUnitTypeNull
  | long _ => cellUnitTypeInteger
  | double _ => cellUnitTypeFloat
  | string _ => cellUnitTypeString
  | blob _ => cellUnitTypeBlob

/-- The bytes outside of the cell. -/
def payload : Cell → List UInt8
  | string s => s ++ [0]
  | blob bs => bs
  | _ => []

/-- The union, if the payload is at `p`. -/
def value (p : ℕ) : Cell → List UInt8
  | null => leBytes 4 0 ++ leBytes 4 0
  | long v => basicBytes v
  | double v => basicBytes v
  | v => leBytes 4 p ++ leBytes 4 v.payload.length

/-- A cell that `shared_block.rs` writes as well. -/
def ofRust : Rust.Cell → Cell
  | .null => null
  | .long v => long v
  | .double v => double v
  | .string s => string (utf8Bytes s)
  | .blob bs => blob bs

theorem kind_lt (v : Cell) : v.kind < 256 ^ 4 := by
  cases v <;> simp only [kind] <;> decide

theorem length_payload_string (s : StdString) : (string s).payload.length = s.length + 1 :=
  List.length_append

theorem encode_ofRust (p : ℕ) (v : Rust.Cell) :
    leBytes 4 (ofRust v).kind ++ (ofRust v).value p = v.encode p := by
  cases v <;> rfl

theorem payload_ofRust (v : Rust.Cell) : (ofRust v).payload = v.payload := by
  cases v <;> rfl

/-- What a getter for strings makes of a cell : a string ends at its first NUL. -/
def asString (conv : Conversions) : Cell → Option StdString
  | null => some []
  | long v => some (utf8Bytes (toString v.toInt))
  | double v => some (conv.toString v)
  | string s => some (s.takeWhile (· ≠ 0))
  | blob _ => none

def asLong (conv : Conversions) : Cell → Int64
  | long v => v
  | double v => conv.asI64 v
  | string s => if s = [] then 0 else conv.strtoll (s.takeWhile (· ≠ 0))
  | _ => 0

def asBlob : Cell → Option (List UInt8)
  | null => some []
  | string s => some (s ++ [0])
  | blob bs => some bs
  | _ => none

end Cell

/-- The cell `v` is in the block at `ptr`, and its payload at `p`. -/
structure CellAt (b : SharedBlock) (ptr : ℕ) (v : Cell) (p : ℕ) : Prop where
  cell : b.mem.load ptr sizeOfCellUnit = some (leBytes 4 v.kind ++ v.value p)
  bound : p + v.payload.length < 2 ^ 32
  payload : v.payload ≠ [] → b.offsetToPtr p v.payload.length = some p ∧
    b.mem.load p v.payload.length = some v.payload

theorem cellAt_ofRefines {b : SharedBlock} {t : Table} (h : Refines b t) {r c ptr : ℕ}
    (hunit : b.getCellUnit r c = some (some ptr)) :
    r < t.rowNums ∧ c < t.columnNums ∧ ∃ p, CellAt b ptr (.ofRust (t.cell r c)) p := by
  obtain ⟨A, L, rfl, hinv⟩ := h
  by_cases hrc : r < t.rowNums ∧ c < t.columnNums
  · obtain ⟨d, p, hcell⟩ := hinv.cell r hrc.1 c hrc.2
    rw [hinv.getCellUnit_eq hcell hrc.1 hrc.2] at hunit
    cases hunit
    have hload := hcell.cell.holds.load_eq
    have hlt := hcell.payload_lt
    have hsize := hinv.base.size_lt
    rw [Rust.Cell.length_encode] at hload
    refine ⟨hrc.1, hrc.2, p, ?_, ?_, fun _ => ?_⟩
    · rw [Cell.encode_ofRust]
      exact hload
    · rw [Cell.payload_ofRust]
      omega
    · rw [Cell.payload_ofRust]
      exact ⟨Rust.offsetToPtr_ofArena hsize hlt, hcell.payload.holds.load_eq⟩
  · rw [hinv.base.getCellUnit_eq_none hrc] at hunit
    cases hunit

/-! ## Getters -/

/-- A getter, with what is in its argument. -/
inductive Read
  | string (value : StdString)
  | int (value : Int32)
  | long (value : Int64)
  | blob (value : List UInt8)

/-- The code of a getter, and its argument afterwards. -/
def DataShareResultSet.read {σ : Type} (br : ResultSetBridge σ) (conv : Conversions)
    (rs : DataShareResultSet σ) (columnIndex : Int32) :
    Read → Option (Int32 × Read × DataShareResultSet σ)
  | .string value => (rs.getString conv columnIndex value).map fun r => (r.1, .string r.2, rs)
  | .int value => (rs.getInt columnIndex value).map fun r => (r.1, .int r.2, rs)
  | .long value => (rs.getLong conv columnIndex value).map fun r => (r.1, .long r.2, rs)
  | .blob value => (rs.getBlob br columnIndex value).map fun r => (r.1, .blob r.2.1, r.2.2)

/-- What should be in the argument after a cell is read, if the cell has a value of the type. -/
def Cell.get (conv : Conversions) (v : Cell) : Read → Option Read
  | .string _ => (v.asString conv).map .string
  | .int _ => some (.int (v.asLong conv).toInt32)
  | .long _ => some (.long (v.asLong conv))
  | .blob _ => v.asBlob.map .blob

/-- The getter reads the cell right. -/
def Read.Safe (v : Cell) : Read → Prop
  | .string value => v = .null → value = []
  | .int _ => v = .null ∨ ∃ n, v = .long n
  | .long _ => True
  | .blob _ => (∀ n, v ≠ .long n) ∧ ∀ x, v ≠ .double x

section Units

variable {σ : Type} {br : ResultSetBridge σ} {conv : Conversions} {rs rs' : DataShareResultSet σ}
  {b : SharedBlock} {v : Cell} {ptr p : ℕ} {columnIndex : Int32} {r r' : Read}

theorem type_eq (v : Cell) (p : ℕ) : leNat ((leBytes 4 v.kind ++ v.value p).take 4) = v.kind := by
  rw [List.take_left' (length_leBytes _ _), leNat_leBytes, Nat.mod_eq_of_lt v.kind_lt]

theorem cell_eq (v : Cell) (p : ℕ) : (leBytes 4 v.kind ++ v.value p).drop 4 = v.value p :=
  List.drop_left' (length_leBytes _ _)

/-- The offset and the size of a string or a blob. -/
theorem CellAt.offset_eq (h : CellAt b ptr v p)
    (hv : v.value p = leBytes 4 p ++ leBytes 4 v.payload.length) (type : ℕ) :
    CellUnit.offset ⟨type, v.value p⟩ = p ∧ CellUnit.size ⟨type, v.value p⟩ = v.payload.length := by
  have hbound := h.bound
  unfold CellUnit.offset CellUnit.size
  rw [hv, List.take_left' (length_leBytes _ _), List.drop_left' (length_leBytes _ _),
    leNat_leBytes, leNat_leBytes]
  exact ⟨Nat.mod_eq_of_lt (by omega), Nat.mod_eq_of_lt (by omega)⟩

/-- The cell that a getter finds. -/
theorem CellAt.cellUnit_eq (h : CellAt b ptr v p)
    (hunit : b.getCellUnit (rs.rowPos - rs.startRowPos).toUInt32.toNat
      columnIndex.toUInt32.toNat = some (some ptr)) :
    rs.cellUnit b columnIndex = some (some ⟨v.kind, v.value p⟩) := by
  unfold DataShareResultSet.cellUnit
  rw [hunit]
  simp only [Option.bind_eq_bind, Option.bind_some, h.cell, type_eq, cell_eq]
  rfl

theorem ok_inj {α : Type} {x y : α} (h : some (eOk, x) = some (eOk, y)) : x = y :=
  (Prod.mk.inj (Option.some.inj h)).2

theorem longValue_eq (type : ℕ) (n : Int64) : CellUnit.longValue ⟨type, basicBytes n⟩ = n :=
  ofBasicBytes_basicBytes n

theorem doubleValue_eq (type : ℕ) (x : Double) : CellUnit.doubleValue ⟨type, basicBytes x⟩ = x :=
  ofBasicBytes_basicBytes x

/-- The string of a cell, as its getters read it. -/
theorem CellAt.cString_eq {s : StdString} (h : CellAt b ptr (.string s) p) :
    b.offsetToPtr p (s.length + 1) = some p ∧
      ∀ x, b.mem.cString (b.mem.size - p) p = some x → x = s.takeWhile (· ≠ 0) := by
  obtain ⟨hptr, hload⟩ := h.payload (by simp [Cell.payload])
  simp only [Cell.payload, List.length_append, List.length_singleton] at hptr hload
  have hholds := Memory.holds_of_load hload
  have hbound := hholds.bound
  rw [List.length_append, List.length_singleton] at hbound
  refine ⟨hptr, fun x hx => ?_⟩
  rw [Memory.cString_of_holds hholds (by omega)] at hx
  exact (Option.some.inj hx).symm

theorem CellAt.getString_eq {type : ℕ} (h : CellAt b ptr v p) (hkind : type = v.kind)
    (hblock : rs.sharedBlock = some b)
    (hunit : rs.cellUnit b columnIndex = some (some ⟨type, v.value p⟩)) {value x : StdString}
    (hget : rs.getString conv columnIndex value = some (eOk, x)) :
    (v = .null ∧ x = value) ∨ v.asString conv = some x := by
  unfold DataShareResultSet.getString at hget
  rw [hblock] at hget
  simp only [Option.bind_eq_bind, hunit, Option.bind_some, Option.pure_def] at hget
  rcases v with - | n | d | s | bs
  · obtain rfl : type = cellUnitTypeNull := hkind
    rw [if_neg (by decide), if_pos rfl] at hget
    exact .inl ⟨rfl, (ok_inj hget).symm⟩
  · obtain rfl : type = cellUnitTypeInteger := hkind
    rw [if_neg (by decide), if_neg (by decide), if_pos rfl, Cell.value, longValue_eq] at hget
    exact .inr (congrArg some (ok_inj hget))
  · obtain rfl : type = cellUnitTypeFloat := hkind
    rw [if_neg (by decide), if_neg (by decide), if_neg (by decide), if_pos rfl, Cell.value,
      doubleValue_eq] at hget
    exact .inr (congrArg some (ok_inj hget))
  · obtain rfl : type = cellUnitTypeString := hkind
    obtain ⟨hoffset, hsize⟩ := h.offset_eq rfl cellUnitTypeString
    obtain ⟨hptr, hstr⟩ := h.cString_eq
    rw [Cell.length_payload_string] at hsize
    rw [if_pos rfl, hoffset, hsize, hptr] at hget
    obtain ⟨x', hx', hres⟩ := Option.bind_eq_some_iff.mp hget
    refine .inr (congrArg some ?_)
    rw [← ok_inj hres, hstr x' hx']
  · obtain rfl : type = cellUnitTypeBlob := hkind
    rw [if_neg (by decide), if_neg (by decide), if_neg (by decide), if_neg (by decide)] at hget
    exact absurd (congrArg Prod.fst (Option.some.inj hget)) (by decide : eError ≠ eOk)

theorem getInt_eq {type : ℕ} (hblock : rs.sharedBlock = some b)
    (hunit : rs.cellUnit b columnIndex = some (some ⟨type, v.value p⟩))
    (hsafe : v = .null ∨ ∃ n, v = .long n) {value x : Int32}
    (hget : rs.getInt columnIndex value = some (eOk, x)) : (v.asLong conv).toInt32 = x := by
  unfold DataShareResultSet.getInt at hget
  rw [hblock] at hget
  simp only [Option.bind_eq_bind, hunit, Option.bind_some, Option.pure_def] at hget
  have hx := ok_inj hget
  rcases hsafe with rfl | ⟨n, rfl⟩
  · have hzero : CellUnit.longValue ⟨type, leBytes 4 0 ++ leBytes 4 0⟩ = 0 := by
      show ofBasicBytes (leBytes 4 0 ++ leBytes 4 0) = (0 : Int64)
      decide
    rw [Cell.value, hzero] at hx
    exact hx
  · rw [Cell.value, longValue_eq] at hx
    exact hx

theorem CellAt.getLong_eq {type : ℕ} (h : CellAt b ptr v p) (hkind : type = v.kind)
    (hblock : rs.sharedBlock = some b)
    (hunit : rs.cellUnit b columnIndex = some (some ⟨type, v.value p⟩)) {value x : Int64}
    (hget : rs.getLong conv columnIndex value = some (eOk, x)) : v.asLong conv = x := by
  unfold DataShareResultSet.getLong at hget
  rw [hblock] at hget
  simp only [Option.bind_eq_bind, hunit, Option.bind_some, Option.pure_def] at hget
  rcases v with - | n | d | s | bs
  · obtain rfl : type = cellUnitTypeNull := hkind
    rw [if_neg (by decide), if_neg (by decide), if_neg (by decide), if_pos rfl] at hget
    exact ok_inj hget
  · obtain rfl : type = cellUnitTypeInteger := hkind
    rw [if_pos rfl, Cell.value, longValue_eq] at hget
    exact ok_inj hget
  · obtain rfl : type = cellUnitTypeFloat := hkind
    rw [if_neg (by decide), if_neg (by decide), if_pos rfl, Cell.value, doubleValue_eq] at hget
    exact ok_inj hget
  · obtain rfl : type = cellUnitTypeString := hkind
    obtain ⟨hoffset, hsize⟩ := h.offset_eq rfl cellUnitTypeString
    obtain ⟨hptr, hstr⟩ := h.cString_eq
    rw [Cell.length_payload_string] at hsize
    rw [if_neg (by decide), if_pos rfl, hoffset, hsize, hptr] at hget
    dsimp only at hget
    split at hget
    · rename_i hlong
      have hs : s ≠ [] := by
        rintro rfl
        exact absurd hlong (lt_irrefl 1)
      obtain ⟨x', hx', hres⟩ := Option.bind_eq_some_iff.mp hget
      rw [Cell.asLong, if_neg hs, ← hstr x' hx']
      exact ok_inj hres
    · rename_i hshort
      have hs : s = [] := List.eq_nil_of_length_eq_zero (by omega)
      rw [Cell.asLong, if_pos hs]
      exact ok_inj hget
  · obtain rfl : type = cellUnitTypeBlob := hkind
    rw [if_neg (by decide), if_neg (by decide), if_neg (by decide), if_neg (by decide),
      if_pos rfl] at hget
    exact ok_inj hget

/-- `CheckState` may keep the number of columns, and no more. -/
theorem checkState_eq (rs : DataShareResultSet σ) (columnIndex : Int32) :
    ∃ count, (rs.checkState br columnIndex).2 = { rs with count := count } := by
  have hcount : ∃ count, (rs.getColumnCount br).2 = { rs with count := count } := by
    unfold DataShareResultSet.getColumnCount
    split
    · dsimp only
      split
      · exact ⟨rs.count, rfl⟩
      · exact ⟨_, rfl⟩
    · exact ⟨rs.count, rfl⟩
  unfold DataShareResultSet.checkState
  dsimp only
  split
  · exact hcount
  · split
    · exact hcount
    · exact hcount

theorem CellAt.getBlob_eq {type : ℕ} (h : CellAt b ptr v p) (hkind : type = v.kind)
    (hblock : rs.sharedBlock = some b)
    (hunit : rs.cellUnit b columnIndex = some (some ⟨type, v.value p⟩))
    (hsafe : (∀ n, v ≠ .long n) ∧ ∀ x, v ≠ .double x) {value x : List UInt8}
    (hget : rs.getBlob br columnIndex value = some (eOk, x, rs')) : v.asBlob = some x := by
  obtain ⟨count, hcount⟩ := @checkState_eq _ br rs columnIndex
  unfold DataShareResultSet.getBlob at hget
  rw [hblock] at hget
  rcases hstate : rs.checkState br columnIndex with ⟨code, rs₁⟩
  obtain rfl : rs₁ = { rs with count := count } := by rw [← hcount, hstate]
  have hunit₁ : DataShareResultSet.cellUnit { rs with count := count } b columnIndex =
      some (some ⟨type, v.value p⟩) := hunit
  simp only [Option.bind_eq_bind, hstate, hunit₁, Option.bind_some, Option.pure_def] at hget
  split at hget
  · rename_i hcode
    exact absurd (congrArg Prod.fst (Option.some.inj hget)) hcode
  have hbytes : ∀ bs : List UInt8, v.payload = bs →
      v.value p = leBytes 4 p ++ leBytes 4 v.payload.length → (type = cellUnitTypeBlob ∨
        type = cellUnitTypeString) → x = bs := by
    intro bs hpay hvalue htype
    obtain ⟨hoffset, hsize⟩ := h.offset_eq hvalue type
    have hpayload := h.payload
    rw [hpay] at hsize hpayload
    rw [if_pos htype, hoffset, hsize] at hget
    by_cases hnil : bs = []
    · subst hnil
      split at hget
      · exact (Prod.mk.inj (ok_inj hget)).1.symm
      · obtain ⟨blob, hload, hres⟩ := Option.bind_eq_some_iff.mp hget
        have hblob : blob = [] := List.eq_nil_of_length_eq_zero (Memory.length_of_load hload)
        exact ((Prod.mk.inj (ok_inj hres)).1.symm.trans hblob)
    · obtain ⟨hptr, hload⟩ := hpayload hnil
      rw [hptr] at hget
      simp only [hload, Option.bind_some] at hget
      exact (Prod.mk.inj (ok_inj hget)).1.symm
  rcases v with - | n | d | s | bs
  · obtain rfl : type = cellUnitTypeNull := hkind
    rw [if_neg (by decide), if_neg (by decide), if_pos rfl] at hget
    exact congrArg some (Prod.mk.inj (ok_inj hget)).1
  · exact absurd rfl (hsafe.1 n)
  · exact absurd rfl (hsafe.2 d)
  · exact congrArg some (hbytes _ rfl rfl (.inr hkind)).symm
  · exact congrArg some (hbytes _ rfl rfl (.inl hkind)).symm

/-- What a getter that succeeds leaves in its argument. -/
theorem CellAt.read_eq (h : CellAt b ptr v p) (hblock : rs.sharedBlock = some b)
    (hunit : b.getCellUnit (rs.rowPos - rs.startRowPos).toUInt32.toNat
      columnIndex.toUInt32.toNat = some (some ptr))
    (hread : rs.read br conv columnIndex r = some (eOk, r', rs')) (hsafe : r.Safe v) :
    v.get conv r = some r' := by
  have hunit' := h.cellUnit_eq hunit
  rcases r with value | value | value | value
  · obtain ⟨⟨code, x⟩, hget, hres⟩ := Option.map_eq_some_iff.mp hread
    cases hres
    rcases h.getString_eq rfl hblock hunit' hget with ⟨rfl, rfl⟩ | hx
    · rw [hsafe rfl]
      rfl
    · exact congrArg (Option.map Read.string) hx
  · obtain ⟨⟨code, x⟩, hget, hres⟩ := Option.map_eq_some_iff.mp hread
    cases hres
    exact congrArg (some ∘ Read.int) (getInt_eq hblock hunit' hsafe hget)
  · obtain ⟨⟨code, x⟩, hget, hres⟩ := Option.map_eq_some_iff.mp hread
    cases hres
    exact congrArg (some ∘ Read.long) (h.getLong_eq rfl hblock hunit' hget)
  · obtain ⟨⟨code, x, rs₁⟩, hget, hres⟩ := Option.map_eq_some_iff.mp hread
    cases hres
    exact congrArg (Option.map Read.blob) (h.getBlob_eq rfl hblock hunit' hsafe hget)

theorem eq_of_bind_none {α β : Type} {o : Option (Option α)} {f : Option α → Option β} {x : β}
    (ho : o = none ∨ o = some none) (h : o.bind f = some x) : f none = some x := by
  rcases ho with rfl | rfl
  · cases h
  · exact h

/-- A getter that finds no cell fails. -/
theorem read_ne_ok (hblock : rs.sharedBlock = some b)
    (hcell : rs.cellUnit b columnIndex = none ∨ rs.cellUnit b columnIndex = some none) :
    rs.read br conv columnIndex r ≠ some (eOk, r', rs') := by
  have hne : eError ≠ eOk := by decide
  intro hread
  rcases r with value | value | value | value <;>
    obtain ⟨x, hget, hres⟩ := Option.map_eq_some_iff.mp hread
  · unfold DataShareResultSet.getString at hget
    rw [hblock] at hget
    have hx : some (eError, value) = some x := eq_of_bind_none hcell hget
    cases hx
    exact hne (congrArg Prod.fst hres)
  · unfold DataShareResultSet.getInt at hget
    rw [hblock] at hget
    have hx : some (eError, value) = some x := eq_of_bind_none hcell hget
    cases hx
    exact hne (congrArg Prod.fst hres)
  · unfold DataShareResultSet.getLong at hget
    rw [hblock] at hget
    have hx : some (eError, value) = some x := eq_of_bind_none hcell hget
    cases hx
    exact hne (congrArg Prod.fst hres)
  · obtain ⟨count, hcount⟩ := @checkState_eq _ br rs columnIndex
    have hcell' : (rs.checkState br columnIndex).2.cellUnit b columnIndex = none ∨
        (rs.checkState br columnIndex).2.cellUnit b columnIndex = some none := by
      rw [hcount]
      exact hcell
    unfold DataShareResultSet.getBlob at hget
    rw [hblock] at hget
    dsimp only at hget
    split at hget
    · rename_i hcode
      cases hget
      exact hcode (congrArg Prod.fst hres)
    · have hx : some (eError, value, (rs.checkState br columnIndex).2) = some x :=
        eq_of_bind_none hcell' hget
      cases hx
      exact hne (congrArg Prod.fst hres)

/-- A getter that succeeds has found a cell in the row of the cursor. -/
theorem exists_unit_of_read (hread : rs.read br conv columnIndex r = some (eOk, r', rs')) :
    ∃ b ptr, rs.sharedBlock = some b ∧
      b.getCellUnit (rs.rowPos - rs.startRowPos).toUInt32.toNat
        columnIndex.toUInt32.toNat = some (some ptr) := by
  rcases hblock : rs.sharedBlock with - | b
  · rcases r with value | value | value | value <;>
      simp only [DataShareResultSet.read, DataShareResultSet.getString, DataShareResultSet.getInt,
        DataShareResultSet.getLong, DataShareResultSet.getBlob, hblock, Option.pure_def,
        Option.map_some, Option.some.injEq, Prod.mk.injEq] at hread <;>
      exact absurd hread.1 (by decide)
  rcases hunit : b.getCellUnit (rs.rowPos - rs.startRowPos).toUInt32.toNat
    columnIndex.toUInt32.toNat with - | - | ptr
  · have hcell : rs.cellUnit b columnIndex = none := by
      unfold DataShareResultSet.cellUnit
      rw [hunit]
      rfl
    exact absurd hread (read_ne_ok hblock (.inl hcell))
  · have hcell : rs.cellUnit b columnIndex = some none := by
      unfold DataShareResultSet.cellUnit
      rw [hunit]
      rfl
    exact absurd hread (read_ne_ok hblock (.inr hcell))
  · exact ⟨b, ptr, rfl, hunit⟩

end Units

end Cpp

end DataShare
