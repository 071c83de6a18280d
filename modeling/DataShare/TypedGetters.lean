import DataShare.CppGetters
import DataShare.RustResultSet

/-!
# The typed getters on a cell

What the getters of `result_set.rs` and of `datashare_result_set.cpp` return, success or not, at a
position that they accept, for every content that the cell may have (`Content`) : a value of a
known type, a text with any bytes before its NUL, or any bytes under another type.
-/

namespace DataShare

open Rust (DataShareError FloatConversions parseI64 sizeOfCellUnit cellUnitTypeNull
  cellUnitTypeInteger cellUnitTypeFloat cellUnitTypeString cellUnitTypeBlob)

open Cpp (StdString Conversions eOk eError eInvalidObjectType)

/-! ## Cells -/

/-- What a cell may hold : a value of a known type, or any bytes under another type. -/
inductive Content
  | cell (v : Cpp.Cell)
  | unknown (type : ℕ) (value : List UInt8)
      (h : (4 < type ∧ type < 2 ^ 32) ∧ value.length = 8)

namespace Content

def type : Content → ℕ
  | cell v => v.kind
  | unknown type _ _ => type

/-- The union, if the payload is at `p`. -/
def value (p : ℕ) : Content → List UInt8
  | cell v => v.value p
  | unknown _ value _ => value

def payload : Content → List UInt8
  | cell v => v.payload
  | unknown _ _ _ => []

theorem type_lt (content : Content) : content.type < 256 ^ 4 := by
  cases content with
  | cell v => exact v.kind_lt
  | unknown type value h => exact h.1.2

end Content

/-- The block has the content at `ptr`, and its payload at `p`. -/
structure Placed (b : Rust.SharedBlock) (ptr : ℕ) (content : Content) (p : ℕ) : Prop where
  unit : b.mem.load ptr sizeOfCellUnit = some (leBytes 4 content.type ++ content.value p)
  bound : p + content.payload.length < 2 ^ 32
  ptr : b.offsetToPtr p content.payload.length = some p
  payload : b.mem.load p content.payload.length = some content.payload

/-- The part of a text before its first NUL. -/
def text (s : StdString) : StdString :=
  s.takeWhile (· ≠ 0)

/-- Both result sets are at a cell with the same content. -/
structure AtCell {σ τ : Type} (br : Cpp.ResultSetBridge τ) (rs : Rust.DataShareResultSet σ)
    (cs : Cpp.DataShareResultSet τ) (column : Int32) (content : Content) (p : ℕ) : Prop where
  rust : rs.checkState column = some (.ok ()) ∧ ∃ b ptr q, rs.block = some b ∧
    b.getCellUnit rs.blockRowIndex.toUInt32.toNat column.toUInt32.toNat = some (some ptr) ∧
      Placed b ptr content q
  cpp : (cs.checkState br column).1 = eOk ∧ ∃ b ptr, cs.sharedBlock = some b ∧
    b.getCellUnit (cs.rowPos - cs.startRowPos).toUInt32.toNat column.toUInt32.toNat =
      some (some ptr) ∧ Placed b ptr content p

/-! ## The Rust getters -/

namespace Content

def legacy (p : ℕ) (content : Content) : Rust.SharedBlock.CellValueLegacy :=
  .ofBytes (leBytes 4 content.type ++ content.value p)

def rustBlob : Content → Except DataShareError (List UInt8)
  | .cell (.string s) => .ok (s ++ [0])
  | .cell (.blob bs) => .ok bs
  | _ => .error .invalidOperation

/-- A text of the bytes, if they are UTF-8. -/
def rustText (bs : List UInt8) : Except DataShareError String :=
  match fromUtf8 bs with
  | none => .error .invalidOperation
  | some s => .ok s

def rustString (conv : FloatConversions) : Content → Except DataShareError String
  | .cell .null => .ok ""
  | .cell (.long v) => .ok (toString v.toInt)
  | .cell (.double d) => .ok (conv.toString d)
  | .cell (.string s) => rustText (text s)
  | .cell (.blob bs) => rustText bs
  | .unknown _ _ _ => .ok ""

def rustLong (conv : FloatConversions) : Content → Int64
  | .cell (.long v) => v
  | .cell (.double d) => conv.asI64 d
  | .cell (.string s) => (parseI64 ((fromUtf8 (text s)).getD "")).getD 0
  | _ => 0

end Content

section Rust

open Rust.DataShareResultSet

variable {b : Rust.SharedBlock} {content : Content} {ptr p : ℕ}

theorem legacy_eq {type : ℕ} (h : content.type = type) (p : ℕ) : content.legacy p =
    if type = cellUnitTypeInteger then
      { cellType := type, longValue := ofBasicBytes (content.value p) }
    else if type = cellUnitTypeFloat then
      { cellType := type, doubleValue := ofBasicBytes (content.value p) }
    else if type = cellUnitTypeString ∨ type = cellUnitTypeBlob then
      { cellType := type, stringOrBlobOffset := leNat ((content.value p).take 4),
        stringOrBlobSize := leNat ((content.value p).drop 4) }
    else { cellType := type } := by
  have htype : leNat ((leBytes 4 content.type ++ content.value p).take 4) = type := by
    rw [List.take_left' (length_leBytes _ _), leNat_leBytes, Nat.mod_eq_of_lt content.type_lt, h]
  have hvalue : (leBytes 4 content.type ++ content.value p).drop 4 = content.value p :=
    List.drop_left' (length_leBytes _ _)
  rw [Content.legacy, Rust.SharedBlock.CellValueLegacy.ofBytes, htype, hvalue]

theorem type_legacy (content : Content) (p : ℕ) : (content.legacy p).cellType = content.type := by
  rw [legacy_eq rfl]
  split
  · rfl
  split
  · rfl
  split
  · rfl
  · rfl

/-- The offset and the size of a text or a blob. -/
theorem Placed.offset_eq {v : Cpp.Cell} (h : Placed b ptr (.cell v) p)
    (hv : v.value p = leBytes 4 p ++ leBytes 4 v.payload.length) :
    leNat ((v.value p).take 4) = p ∧ leNat ((v.value p).drop 4) = v.payload.length := by
  have hbound : p + v.payload.length < 2 ^ 32 := h.bound
  rw [hv, List.take_left' (length_leBytes _ _), List.drop_left' (length_leBytes _ _),
    leNat_leBytes, leNat_leBytes]
  exact ⟨Nat.mod_eq_of_lt (by omega), Nat.mod_eq_of_lt (by omega)⟩

theorem Placed.legacy_string {s : StdString} (h : Placed b ptr (.cell (.string s)) p) :
    (Content.cell (.string s)).legacy p =
      { cellType := cellUnitTypeString, stringOrBlobOffset := p,
        stringOrBlobSize := s.length + 1 } := by
  obtain ⟨hoffset, hsize⟩ := h.offset_eq rfl
  rw [Cpp.Cell.length_payload_string] at hsize
  have hvalue : (Content.cell (.string s)).value p = (Cpp.Cell.string s).value p := rfl
  rw [@legacy_eq (.cell (.string s)) cellUnitTypeString rfl, if_neg (by decide),
    if_neg (by decide), if_pos (by decide), hvalue, hoffset, hsize]

theorem Placed.legacy_blob {bs : List UInt8} (h : Placed b ptr (.cell (.blob bs)) p) :
    (Content.cell (.blob bs)).legacy p =
      { cellType := cellUnitTypeBlob, stringOrBlobOffset := p, stringOrBlobSize := bs.length } := by
  obtain ⟨hoffset, hsize⟩ := h.offset_eq rfl
  have hvalue : (Content.cell (.blob bs)).value p = (Cpp.Cell.blob bs).value p := rfl
  rw [@legacy_eq (.cell (.blob bs)) cellUnitTypeBlob rfl, if_neg (by decide), if_neg (by decide),
    if_pos (by decide), hvalue, hoffset, hsize]
  rfl

theorem legacy_null (p : ℕ) : (Content.cell .null).legacy p = { cellType := cellUnitTypeNull } := by
  rw [@legacy_eq (.cell .null) cellUnitTypeNull rfl, if_neg (by decide), if_neg (by decide),
    if_neg (by decide)]

theorem legacy_long (p : ℕ) (v : Int64) :
    (Content.cell (.long v)).legacy p = { cellType := cellUnitTypeInteger, longValue := v } := by
  have hvalue : ofBasicBytes ((Content.cell (.long v)).value p) = v := ofBasicBytes_basicBytes v
  rw [@legacy_eq (.cell (.long v)) cellUnitTypeInteger rfl, if_pos rfl, hvalue]

theorem legacy_double (p : ℕ) (d : Double) :
    (Content.cell (.double d)).legacy p = { cellType := cellUnitTypeFloat, doubleValue := d } := by
  have hvalue : ofBasicBytes ((Content.cell (.double d)).value p) = d := ofBasicBytes_basicBytes d
  rw [@legacy_eq (.cell (.double d)) cellUnitTypeFloat rfl, if_neg (by decide), if_pos rfl, hvalue]

theorem legacy_unknown {type : ℕ} {value : List UInt8}
    (h : (4 < type ∧ type < 2 ^ 32) ∧ value.length = 8) (p : ℕ) :
    (Content.unknown type value h).legacy p = { cellType := type } := by
  have hne : ∀ known ≤ 4, type ≠ known := fun known hknown => (hknown.trans_lt h.1.1).ne'
  rw [@legacy_eq (.unknown type value h) type rfl, if_neg (hne _ (by decide)),
    if_neg (hne _ (by decide)), if_neg (not_or.mpr ⟨hne _ (by decide), hne _ (by decide)⟩)]

theorem takeWhile_append_nul (s : StdString) : (s ++ [0]).takeWhile (· ≠ 0) = text s := by
  unfold text
  induction s with
  | nil => rfl
  | cons c s ih =>
    by_cases hc : c = 0
    · subst hc
      rfl
    · rw [List.cons_append, List.takeWhile_cons_of_pos (by simpa using hc), ih,
        List.takeWhile_cons_of_pos (by simpa using hc)]

theorem Placed.getCellValue_eq {row col : ℕ} (h : Placed b ptr content p)
    (hunit : b.getCellUnit row col = some (some ptr)) :
    b.getCellValue row col = some (.ok (content.legacy p)) := by
  rw [Rust.SharedBlock.getCellValue, hunit]
  simp only [Option.bind_eq_bind, Option.bind_some, h.unit]
  rfl

theorem Placed.getStringData_eq (h : Placed b ptr content p) :
    b.getStringData p content.payload.length = some (.ok content.payload) := by
  rw [Rust.SharedBlock.getStringData, h.ptr]
  simp only [Option.bind_eq_bind, h.payload]
  rfl

theorem Placed.getCellUnitStr_eq {s : StdString} (h : Placed b ptr (.cell (.string s)) p) :
    b.getCellUnitStr ((Content.cell (.string s)).legacy p) = some (Content.rustText (text s)) := by
  have hptr := h.ptr
  have hload := h.payload
  simp only [Content.payload, Cpp.Cell.payload, List.length_append, List.length_singleton]
    at hptr hload
  rw [h.legacy_string, Rust.SharedBlock.getCellUnitStr, if_neg (by simp)]
  simp only [hptr, hload, Option.bind_eq_bind, Option.bind_some, takeWhile_append_nul,
    Content.rustText]
  cases fromUtf8 (text s) with
  | none => rfl
  | some t => rfl

theorem AtCell.withCell_eq {σ τ α : Type} {br : Cpp.ResultSetBridge τ}
    {rs : Rust.DataShareResultSet σ} {cs : Cpp.DataShareResultSet τ} {column : Int32} {q : ℕ}
    (h : AtCell br rs cs column content q) (noBlock : Except DataShareError α)
    (f : Rust.SharedBlock → Rust.SharedBlock.CellValueLegacy → Option (Except DataShareError α)) :
    ∃ b ptr p, Placed b ptr content p ∧ rs.withCell column noBlock f = f b (content.legacy p) := by
  obtain ⟨hstate, b, ptr, p, hblock, hunit, hplaced⟩ := h.rust
  refine ⟨b, ptr, p, hplaced, ?_⟩
  rw [Rust.DataShareResultSet.withCell, hstate]
  simp only [Option.bind_eq_bind, Option.bind_some, hblock, hplaced.getCellValue_eq hunit]

theorem Placed.blobOf_eq (h : Placed b ptr content p) :
    blobOf b (content.legacy p) = some content.rustBlob := by
  unfold blobOf
  rcases content with (_ | v | d | s | bs) | ⟨type, value, htype⟩
  · rw [legacy_null]
    rfl
  · rw [legacy_long]
    rfl
  · rw [legacy_double]
    rfl
  · have hdata := h.getStringData_eq
    rw [h.legacy_string, if_pos (Or.inl rfl)]
    simpa [Content.payload, Cpp.Cell.payload, Content.rustBlob] using hdata
  · rw [h.legacy_blob, if_pos (Or.inr rfl)]
    exact h.getStringData_eq
  · have hne : ∀ known ≤ 4, type ≠ known := fun known hknown => (hknown.trans_lt htype.1.1).ne'
    rw [legacy_unknown, if_neg (not_or.mpr ⟨hne _ (by decide), hne _ (by decide)⟩)]
    rfl

theorem Placed.stringOf_eq (conv : FloatConversions) (h : Placed b ptr content p) :
    stringOf conv b (content.legacy p) = some (content.rustString conv) := by
  unfold stringOf
  rcases content with (_ | v | d | s | bs) | ⟨type, value, htype⟩
  · rw [legacy_null]
    rfl
  · rw [legacy_long]
    rfl
  · rw [legacy_double]
    rfl
  · have hstr := h.getCellUnitStr_eq
    rw [h.legacy_string] at hstr ⊢
    dsimp only
    rw [if_neg (by decide), if_neg (by decide), if_pos rfl, hstr]
    rfl
  · have hdata : b.getStringData p bs.length = some (.ok bs) := h.getStringData_eq
    rw [h.legacy_blob]
    dsimp only
    rw [if_neg (by decide), if_neg (by decide), if_neg (by decide), if_pos rfl]
    simp only [hdata, Option.bind_eq_bind, Option.bind_some, Content.rustString, Content.rustText]
    cases fromUtf8 bs with
    | none => rfl
    | some t => rfl
  · have hne : ∀ known ≤ 4, type ≠ known := fun known hknown => (hknown.trans_lt htype.1.1).ne'
    rw [legacy_unknown, if_neg (hne _ (by decide)), if_neg (hne _ (by decide)),
      if_neg (hne _ (by decide)), if_neg (hne _ (by decide))]
    rfl

theorem Placed.longOf_eq (conv : FloatConversions) (h : Placed b ptr content p) :
    longOf conv b (content.legacy p) = some (.ok (content.rustLong conv)) := by
  unfold longOf
  rcases content with (_ | v | d | s | bs) | ⟨type, value, htype⟩
  · rw [legacy_null]
    rfl
  · rw [legacy_long]
    rfl
  · rw [legacy_double]
    rfl
  · have hstr := h.getCellUnitStr_eq
    rw [h.legacy_string] at hstr ⊢
    dsimp only
    rw [if_neg (by decide), if_neg (by decide), if_pos rfl, hstr]
    simp only [Option.bind_eq_bind, Option.bind_some, Content.rustLong, Content.rustText]
    cases fromUtf8 (text s) with
    | none => rfl
    | some t => rfl
  · rw [h.legacy_blob]
    rfl
  · have hne : ∀ known ≤ 4, type ≠ known := fun known hknown => (hknown.trans_lt htype.1.1).ne'
    rw [legacy_unknown, if_neg (hne _ (by decide)), if_neg (hne _ (by decide)),
      if_neg (hne _ (by decide))]
    rfl

end Rust

/-! ## The C++ getters -/

namespace Content

def cppString (conv : Conversions) (value : StdString) : Content → Int32 × StdString
  | .cell .null => (eOk, value)
  | .cell (.long v) => (eOk, utf8Bytes (toString v.toInt))
  | .cell (.double d) => (eOk, conv.toString d)
  | .cell (.string s) => (eOk, text s)
  | _ => (eError, value)

def cppLong (conv : Conversions) (value : Int64) : Content → Int32 × Int64
  | .cell (.long v) => (eOk, v)
  | .cell (.double d) => (eOk, conv.asI64 d)
  | .cell (.string s) => (eOk, if s = [] then 0 else conv.strtoll (text s))
  | .cell _ => (eOk, 0)
  | .unknown _ _ _ => (eInvalidObjectType, value)

def cppInt (p : ℕ) (content : Content) : Int32 :=
  (ofBasicBytes (content.value p) : Int64).toInt32

def cppBlob : Content → Int32 × List UInt8
  | .cell (.string s) => (eOk, s ++ [0])
  | .cell (.blob bs) => (eOk, bs)
  | .cell _ => (eOk, [])
  | .unknown _ _ _ => (eInvalidObjectType, [])

end Content

section Cpp

variable {τ : Type} {br : Cpp.ResultSetBridge τ} {cs : Cpp.DataShareResultSet τ}
  {b : Rust.SharedBlock} {content : Content} {ptr p : ℕ} {column : Int32}

theorem Placed.cellUnit_eq (h : Placed b ptr content p)
    (hunit : b.getCellUnit (cs.rowPos - cs.startRowPos).toUInt32.toNat column.toUInt32.toNat =
      some (some ptr)) :
    cs.cellUnit b column = some (some ⟨content.type, content.value p⟩) := by
  have htype : leNat ((leBytes 4 content.type ++ content.value p).take 4) = content.type := by
    rw [List.take_left' (length_leBytes _ _), leNat_leBytes, Nat.mod_eq_of_lt content.type_lt]
  have hvalue : (leBytes 4 content.type ++ content.value p).drop 4 = content.value p :=
    List.drop_left' (length_leBytes _ _)
  unfold Cpp.DataShareResultSet.cellUnit
  rw [hunit]
  simp only [Option.bind_eq_bind, Option.bind_some, h.unit, htype, hvalue]
  rfl

theorem Placed.cString_eq {s : StdString} (h : Placed b ptr (.cell (.string s)) p) :
    b.offsetToPtr p (s.length + 1) = some p ∧
      b.mem.cString (b.mem.size - p) p = some (text s) := by
  have hptr := h.ptr
  have hload := h.payload
  simp only [Content.payload, Cpp.Cell.payload, List.length_append, List.length_singleton]
    at hptr hload
  have hholds := Memory.holds_of_load hload
  have hbound := hholds.bound
  rw [List.length_append, List.length_singleton] at hbound
  exact ⟨hptr, Memory.cString_of_holds hholds (by omega)⟩

theorem getString_eq (conv : Conversions) (h : Placed b ptr content p)
    (hblock : cs.sharedBlock = some b)
    (hunit : cs.cellUnit b column = some (some ⟨content.type, content.value p⟩))
    (value : StdString) :
    cs.getString conv column value = some (content.cppString conv value) := by
  unfold Cpp.DataShareResultSet.getString
  rw [hblock]
  simp only [Option.bind_eq_bind, hunit, Option.bind_some, Option.pure_def]
  rcases content with (_ | v | d | s | bs) | ⟨type, bytes, htype⟩
  · rfl
  · have hvalue : Cpp.CellUnit.longValue ⟨cellUnitTypeInteger, basicBytes v⟩ = v :=
      Cpp.longValue_eq _ v
    show some (eOk, utf8Bytes (toString (Cpp.CellUnit.longValue
      ⟨cellUnitTypeInteger, basicBytes v⟩).toInt)) = _
    rw [hvalue]
    rfl
  · show some (eOk, conv.toString (Cpp.CellUnit.doubleValue
      ⟨cellUnitTypeFloat, basicBytes d⟩)) = _
    rw [Cpp.doubleValue_eq]
    rfl
  · obtain ⟨hoffset, hsize⟩ := h.offset_eq rfl
    obtain ⟨hptr, hstr⟩ := h.cString_eq
    rw [Cpp.Cell.length_payload_string] at hsize
    have hcell : Cpp.CellUnit.offset ⟨cellUnitTypeString, (Cpp.Cell.string s).value p⟩ = p ∧
        Cpp.CellUnit.size ⟨cellUnitTypeString, (Cpp.Cell.string s).value p⟩ = s.length + 1 :=
      ⟨hoffset, hsize⟩
    simp only [Content.type, Content.value, Cpp.Cell.kind, if_true, hcell.1, hcell.2, hptr, hstr,
      Option.bind_some]
    rfl
  · rfl
  · have hne : ∀ known ≤ 4, (Content.unknown type bytes htype).type ≠ known :=
      fun known hknown => (hknown.trans_lt htype.1.1).ne'
    rw [if_neg (hne _ (by decide)), if_neg (hne _ (by decide)), if_neg (hne _ (by decide)),
      if_neg (hne _ (by decide))]
    rfl

theorem getInt_eq (hblock : cs.sharedBlock = some b)
    (hunit : cs.cellUnit b column = some (some ⟨content.type, content.value p⟩)) (value : Int32) :
    cs.getInt column value = some (eOk, content.cppInt p) := by
  unfold Cpp.DataShareResultSet.getInt
  rw [hblock]
  simp only [Option.bind_eq_bind, hunit, Option.bind_some, Option.pure_def]
  rfl

theorem getLong_eq (conv : Conversions) (h : Placed b ptr content p)
    (hblock : cs.sharedBlock = some b)
    (hunit : cs.cellUnit b column = some (some ⟨content.type, content.value p⟩))
    (value : Int64) : cs.getLong conv column value = some (content.cppLong conv value) := by
  unfold Cpp.DataShareResultSet.getLong
  rw [hblock]
  simp only [Option.bind_eq_bind, hunit, Option.bind_some, Option.pure_def]
  rcases content with (_ | v | d | s | bs) | ⟨type, bytes, htype⟩
  · rfl
  · show some (eOk, Cpp.CellUnit.longValue ⟨cellUnitTypeInteger, basicBytes v⟩) = _
    rw [Cpp.longValue_eq]
    rfl
  · show some (eOk, conv.asI64 (Cpp.CellUnit.doubleValue ⟨cellUnitTypeFloat, basicBytes d⟩)) = _
    rw [Cpp.doubleValue_eq]
    rfl
  · obtain ⟨hoffset, hsize⟩ := h.offset_eq rfl
    obtain ⟨hptr, hstr⟩ := h.cString_eq
    rw [Cpp.Cell.length_payload_string] at hsize
    have hcell : Cpp.CellUnit.offset ⟨cellUnitTypeString, (Cpp.Cell.string s).value p⟩ = p ∧
        Cpp.CellUnit.size ⟨cellUnitTypeString, (Cpp.Cell.string s).value p⟩ = s.length + 1 :=
      ⟨hoffset, hsize⟩
    simp only [Content.type, Content.value, Cpp.Cell.kind, if_true, hcell.1, hcell.2, hptr, hstr,
      Option.bind_some, if_neg (by decide : cellUnitTypeString ≠ cellUnitTypeInteger)]
    by_cases hs : s = []
    · subst hs
      rfl
    · have hlong : s.length + 1 > 1 := Nat.succ_lt_succ (List.length_pos_iff.mpr hs)
      rw [if_pos hlong, Content.cppLong, if_neg hs]
  · rfl
  · have hne : ∀ known ≤ 4, (Content.unknown type bytes htype).type ≠ known :=
      fun known hknown => (hknown.trans_lt htype.1.1).ne'
    rw [if_neg (hne _ (by decide)), if_neg (hne _ (by decide)), if_neg (hne _ (by decide)),
      if_neg (hne _ (by decide)), if_neg (hne _ (by decide))]
    rfl

/-- A getter that checks the cursor first reads the same cell then. -/
theorem cellUnit_checkState (br : Cpp.ResultSetBridge τ) (cs : Cpp.DataShareResultSet τ)
    (b : Rust.SharedBlock) (column : Int32) :
    (cs.checkState br column).2.cellUnit b column = cs.cellUnit b column := by
  obtain ⟨count, hcount⟩ := @Cpp.checkState_eq _ br cs column
  rw [hcount]
  rfl

theorem getBlob_eq (h : Placed b ptr content p) (hstate : (cs.checkState br column).1 = eOk)
    (hblock : cs.sharedBlock = some b)
    (hunit : cs.cellUnit b column = some (some ⟨content.type, content.value p⟩))
    (value : List UInt8) :
    ((cs.getBlob br column value).map fun r => (r.1, r.2.1)) = some content.cppBlob := by
  have hunit' := (cellUnit_checkState br cs b column).trans hunit
  unfold Cpp.DataShareResultSet.getBlob
  rw [hblock]
  simp only [hstate, Option.bind_eq_bind, hunit', Option.bind_some, Option.pure_def,
    if_neg (not_not.mpr rfl)]
  rcases content with (_ | v | d | s | bs) | ⟨type, bytes, htype⟩
  · rfl
  · rfl
  · rfl
  · obtain ⟨hoffset, hsize⟩ := h.offset_eq rfl
    have hcell : Cpp.CellUnit.offset ⟨cellUnitTypeString, (Cpp.Cell.string s).value p⟩ = p ∧
        Cpp.CellUnit.size ⟨cellUnitTypeString, (Cpp.Cell.string s).value p⟩ =
          (Cpp.Cell.string s).payload.length := ⟨hoffset, hsize⟩
    have hptr : b.offsetToPtr p (Cpp.Cell.string s).payload.length = some p := h.ptr
    have hload : b.mem.load p (Cpp.Cell.string s).payload.length =
        some (Cpp.Cell.string s).payload := h.payload
    simp only [Content.type, Content.value, Cpp.Cell.kind, or_true, if_true, hcell.1, hcell.2,
      hptr, hload, Option.bind_some]
    rfl
  · obtain ⟨hoffset, hsize⟩ := h.offset_eq rfl
    have hcell : Cpp.CellUnit.offset ⟨cellUnitTypeBlob, (Cpp.Cell.blob bs).value p⟩ = p ∧
        Cpp.CellUnit.size ⟨cellUnitTypeBlob, (Cpp.Cell.blob bs).value p⟩ =
          (Cpp.Cell.blob bs).payload.length := ⟨hoffset, hsize⟩
    have hptr : b.offsetToPtr p (Cpp.Cell.blob bs).payload.length = some p := h.ptr
    have hload : b.mem.load p (Cpp.Cell.blob bs).payload.length =
        some (Cpp.Cell.blob bs).payload := h.payload
    simp only [Content.type, Content.value, Cpp.Cell.kind, true_or, if_true, hcell.1, hcell.2,
      hptr, hload, Option.bind_some]
    rfl
  · have hne : ∀ known ≤ 4, (Content.unknown type bytes htype).type ≠ known :=
      fun known hknown => (hknown.trans_lt htype.1.1).ne'
    rw [if_neg (not_or.mpr ⟨hne _ (by decide), hne _ (by decide)⟩), if_neg (hne _ (by decide)),
      if_neg (hne _ (by decide)), if_neg (hne _ (by decide))]
    rfl

theorem isColumnNull_eq (hstate : (cs.checkState br column).1 = eOk)
    (hblock : cs.sharedBlock = some b)
    (hunit : cs.cellUnit b column = some (some ⟨content.type, content.value p⟩)) (isNull : Bool) :
    ((cs.isColumnNull br column isNull).map fun r => (r.1, r.2.1)) =
      some (eOk, content.type == cellUnitTypeNull) := by
  have hunit' := (cellUnit_checkState br cs b column).trans hunit
  unfold Cpp.DataShareResultSet.isColumnNull
  rw [hblock]
  simp only [hstate, Option.bind_eq_bind, hunit', Option.bind_some, Option.pure_def,
    if_neg (not_not.mpr rfl), Option.map_some]

end Cpp

end DataShare
