import DataShare.CppSharedBlock
import DataShare.SharedBlockRefinement

/-!
# Blocks filled in either language

A block is created, cleared and given its columns, and then filled by `BlockCall`s with any
arguments. Blocks are `Interchangeable` if both languages return the same codes for that and leave
the same bytes.

The size of a region is a signed 32-bit number, so a block below 4 GiB is as large as its region or
is not created at all. There every row keeps a directory of its own (`Shape`), whatever the strings
and blobs are, so the header stays intact and the calls are the same (`interchangeable`).
From 4 GiB on the block goes by a size that its region does not have, and `unusedOffset` wraps : a
long blob that is refused leaves it inside the header, and the next rows are not the same any more
(`not_interchangeable_large`).
-/

namespace DataShare

open Rust (Status SharedBlock sizeOfHeader sizeOfRowGroup sizeOfCellUnit colMaxNum nextGroupField)

/-! ## Calls -/

/-- The calls that fill a block. A string is any bytes too. -/
inductive BlockCall
  | allocRow
  | freeLastRow
  | putLong (row column : ℕ) (value : Int64)
  | putDouble (row column : ℕ) (value : Double)
  | putNull (row column : ℕ)
  | putString (row column : ℕ) (value : List UInt8)
  | putBlob (row column : ℕ) (value : List UInt8)
deriving DecidableEq

namespace Rust.SharedBlock

def perform (b : SharedBlock) : BlockCall → Option (Status × SharedBlock)
  | .allocRow => b.allocRow
  | .freeLastRow => b.freeLastRow
  | .putLong row column value => b.putLong row column value
  | .putDouble row column value => b.putDouble row column value
  | .putNull row column => b.putNull row column
  | .putString row column value => b.putString row column value
  | .putBlob row column value => b.putBlob row column value

/-- A new block, cleared and with its columns, and what the two calls returned. -/
def prepare (size numColumns : ℕ) : Option (Except Status (List Status × SharedBlock)) := do
  match ← create size with
  | .error st => pure (.error st)
  | .ok b => do
    let (cleared, b) ← b.clear
    let (set, b) ← b.setColumnNum numColumns
    pure (.ok ([cleared, set], b))

end Rust.SharedBlock

namespace Cpp.AppDataFwk

def perform (b : SharedBlock) : BlockCall → Option (Status × SharedBlock)
  | .allocRow => allocRow b
  | .freeLastRow => freeLastRow b
  | .putLong row column value => putLong b row column value
  | .putDouble row column value => putDouble b row column value
  | .putNull row column => putNull b row column
  | .putString row column value => putString b row column value
  | .putBlob row column value => putBlob b row column value

def prepare (size numColumns : ℕ) : Option (Except Status (List Status × SharedBlock)) :=
  match Cpp.SharedBlock.create size with
  | .error st => pure (.error st)
  | .ok b => do
    let (cleared, b) ← clear b
    let (set, b) ← setColumnNum b numColumns
    pure (.ok ([cleared, set], b))

end Cpp.AppDataFwk

/-- The calls in turn, with what each of them returned. -/
def performAll (perform : SharedBlock → BlockCall → Option (Status × SharedBlock)) :
    SharedBlock → List BlockCall → Option (List Status × SharedBlock)
  | b, [] => pure ([], b)
  | b, call :: calls => do
    let (st, b) ← perform b call
    let (sts, b) ← performAll perform b calls
    pure (st :: sts, b)

/-- Both languages make the same block of a size, and do the same on it call by call. -/
structure Interchangeable (size numColumns : ℕ) (calls : List BlockCall) : Prop where
  prepared : Cpp.AppDataFwk.prepare size numColumns = SharedBlock.prepare size numColumns
  performed : ∀ sts b, SharedBlock.prepare size numColumns = some (.ok (sts, b)) →
    performAll Cpp.AppDataFwk.perform b calls = performAll SharedBlock.perform b calls

/-- Every row that is allocated finds an intact header. -/
def KeepsIntact (b : SharedBlock) (calls : List BlockCall) : Prop :=
  ∀ before after, calls = before ++ .allocRow :: after →
    ∀ sts b', performAll SharedBlock.perform b before = some (sts, b') → Cpp.AppDataFwk.Intact b'

theorem perform_eq {b : SharedBlock} {call : BlockCall}
    (h : call = .allocRow → Cpp.AppDataFwk.Intact b) :
    Cpp.AppDataFwk.perform b call = b.perform call := by
  cases call with
  | allocRow => exact Cpp.AppDataFwk.allocRow_eq (h rfl)
  | freeLastRow => exact Cpp.AppDataFwk.freeLastRow_eq b
  | putLong row column value =>
    exact Cpp.AppDataFwk.putCell_eq b row column _ _ fun b cellUnit =>
      Cpp.AppDataFwk.assign_eq b cellUnit _ _
  | putDouble row column value =>
    exact Cpp.AppDataFwk.putCell_eq b row column _ _ fun b cellUnit =>
      Cpp.AppDataFwk.assign_eq b cellUnit _ _
  | putNull row column =>
    exact Cpp.AppDataFwk.putCell_eq b row column _ _ fun b cellUnit =>
      Cpp.AppDataFwk.assignStringOrBlob_eq b cellUnit _ _ _
  | putString row column value => exact Cpp.AppDataFwk.putBlobOrString_eq b row column value _
  | putBlob row column value => exact Cpp.AppDataFwk.putBlobOrString_eq b row column value _

/-- As long as the header is intact, the calls are the same. -/
theorem performAll_eq : ∀ {b : SharedBlock} {calls : List BlockCall}, KeepsIntact b calls →
    performAll Cpp.AppDataFwk.perform b calls = performAll SharedBlock.perform b calls
  | _, [], _ => rfl
  | b, call :: calls, h => by
    have hcall : Cpp.AppDataFwk.perform b call = b.perform call :=
      perform_eq fun heq => h [] calls (congrArg (· :: calls) heq) [] b rfl
    rw [performAll, performAll, hcall]
    cases hst : b.perform call with
    | none => rfl
    | some r =>
      obtain ⟨st, b₁⟩ := r
      have hrest : KeepsIntact b₁ calls := by
        intro before after heq sts b' hbefore
        refine h (call :: before) after (congrArg _ heq) (st :: sts) b' ?_
        rw [performAll, hst]
        simp only [Option.bind_eq_bind, Option.bind_some, hbefore]
        rfl
      simp only [Option.bind_eq_bind, Option.bind_some, performAll_eq hrest]

/-! ## New blocks -/

section New

variable {b b₁ : SharedBlock}

/-- The header of an empty block. -/
def emptyHeader : List UInt8 :=
  leBytes 4 (sizeOfHeader + sizeOfRowGroup) ++ (leBytes 4 sizeOfHeader ++ (leBytes 4 0 ++
    (leBytes 4 0 ++ (leBytes 4 0 ++ (leBytes 4 0 ++ leBytes 4 0)))))

theorem resetHeader_eq_store (b : SharedBlock) : b.resetHeader = b.store 0 emptyHeader := by
  have hset : ∀ (b : SharedBlock) (a v : ℕ) (bs : List UInt8),
      (b.storeU32 a v >>= fun b => b.store (a + 4) bs) = b.store a (leBytes 4 v ++ bs) :=
    Cpp.AppDataFwk.assign_eq
  unfold emptyHeader
  rw [← hset, ← funext fun b => hset b _ _ _, ← funext fun b => hset b _ _ _,
    ← funext fun b => hset b _ _ _, ← funext fun b => hset b _ _ _, ← funext fun b => hset b _ _ _]
  rfl

/-- `clear` goes by the header that it has written. -/
theorem clear_congr (hw : b.readOnly = false) (hw₁ : b₁.readOnly = false)
    (h : b.resetHeader = b₁.resetHeader) : b.clear = b₁.clear := by
  unfold Rust.SharedBlock.clear
  rw [if_neg (by simp [hw]), if_neg (by simp [hw₁]), h]

/-- A store of zeros where there are zeros. -/
theorem store_zeros {a n : ℕ} (h : ∀ x, a ≤ x → b.mem.byte x = 0) :
    b.store a (List.replicate n 0) = if a + n ≤ b.mem.size then some b else none := by
  rw [Cpp.AppDataFwk.store_eq, List.length_replicate]
  refine if_ctx_congr Iff.rfl (fun hle => ?_) fun _ => rfl
  have hholds : b.mem.Holds a (List.replicate n 0) := by
    refine ⟨by rwa [List.length_replicate], fun i hi => ?_⟩
    rw [List.getElem_replicate]
    exact h _ (Nat.le_add_right _ _)
  rw [hholds.write_eq]

/-- The Rust code has made the header of an empty block before it is cleared, in a region of
zeros. -/
theorem prepare_eq (size numColumns : ℕ) :
    Cpp.AppDataFwk.prepare size numColumns = SharedBlock.prepare size numColumns := by
  unfold Cpp.AppDataFwk.prepare SharedBlock.prepare Cpp.SharedBlock.create SharedBlock.create
  cases hashmem : SharedBlock.createAshmemInstance (Int32.ofNat size) with
  | none => rfl
  | some ashmem =>
    have hzero : ∀ x, ashmem.byte x = 0 := by
      unfold SharedBlock.createAshmemInstance at hashmem
      split at hashmem
      · obtain rfl := Option.some.inj hashmem
        exact fun _ => rfl
      · cases hashmem
    by_cases hlt : ashmem.size < sizeOfHeader
    · simp only [if_pos hlt]
      rfl
    have hlen : emptyHeader.length = sizeOfHeader := by decide
    have hle : 0 + emptyHeader.length ≤ ashmem.size := by omega
    have hheld := Memory.holds_write hle
    obtain ⟨b, hb⟩ : ∃ b : SharedBlock, b = ⟨size, false, ashmem.write 0 emptyHeader⟩ := ⟨_, rfl⟩
    have hmem : b.mem = ashmem.write 0 emptyHeader := by rw [hb]
    have hreset : SharedBlock.resetHeader ⟨size, false, ashmem⟩ = some b := by
      rw [resetHeader_eq_store, Cpp.AppDataFwk.store_eq, if_pos hle, hb]
    have hreset' : b.resetHeader = some b := by
      rw [resetHeader_eq_store, Cpp.AppDataFwk.store_eq, hmem, if_pos hheld.bound, hheld.write_eq,
        hb]
    have hclear : Rust.SharedBlock.clear ⟨size, false, ashmem⟩ = b.clear :=
      clear_congr rfl (by rw [hb]) (hreset.trans hreset'.symm)
    have hbyte : ∀ x, sizeOfHeader ≤ x → b.mem.byte x = 0 := fun x hx => by
      rw [hmem, Memory.byte_write_of_ge (by omega), hzero]
    simp only [if_neg hlt, Cpp.AppDataFwk.clear_eq, hclear, Option.bind_eq_bind, hreset,
      Option.bind_some]
    cases hptr : b.offsetToPtr sizeOfHeader sizeOfRowGroup with
    | none => rfl
    | some first =>
      have hfirst : sizeOfHeader = first := by
        unfold SharedBlock.offsetToPtr at hptr
        split_ifs at hptr
        exact Option.some.inj hptr
      have hgroup : b.store first (List.replicate sizeOfRowGroup 0) =
          if first + sizeOfRowGroup ≤ b.mem.size then some b else none :=
        store_zeros fun x hx => hbyte x (hfirst ▸ hx)
      have hlink : b.storeU32 (first + nextGroupField) 0 =
          if first + sizeOfRowGroup ≤ b.mem.size then some b else none :=
        store_zeros (n := 4) fun x hx => hbyte x (by omega)
      simp only [hgroup]
      by_cases hroom : first + sizeOfRowGroup ≤ b.mem.size
      · simp only [if_pos hroom, Option.bind_some, hlink]
        rfl
      · have hheader : b.header .firstRowGroupOffset = some sizeOfHeader := by
          rw [SharedBlock.header, hmem]
          exact hheld.part.loadU32_eq (by decide)
        have hfault : b.clear = none := by
          unfold SharedBlock.clear
          rw [if_neg (by simp [hb]), hreset']
          simp only [Option.bind_eq_bind, Option.bind_some, hheader, hptr, hlink, if_neg hroom]
          rfl
        simp only [if_neg hroom, hfault]
        rfl

end New

/-! ## The shape of the rows -/

namespace Rust

open Arena

/-- The row offset of row `r` points to a directory of `cols` cells. -/
structure RowAt (A : Arena Region) (L : Layout) (cols r d : ℕ) : Prop where
  slot : A.Word (L.slot r) (.slot r) d
  bound : d + cols * sizeOfCellUnit < A.mem.size
  cells : ∀ c < cols, A.Owned (d + c * sizeOfCellUnit) sizeOfCellUnit (.cell r c)

/-- Every row has a directory, whatever its cells hold. -/
structure Shape (A : Arena Region) (L : Layout) (rows cols : ℕ) : Prop where
  base : Base A L rows cols
  row : ∀ r < rows, ∃ d, RowAt A L cols r d

theorem RowAt.frame {A A' : Arena Region} {L L' : Layout} {cols r d : ℕ} {P : Region → Prop}
    (h : RowAt A L cols r d) (hf : Frame A A' P) (hslot : ¬P (.slot r)) (hL : L'.slot r = L.slot r) :
    RowAt A' L' cols r d where
  slot := hL ▸ hf.pointsTo hslot h.slot
  bound := hf.size ▸ h.bound
  cells c hc := hf.owned (h.cells c hc)

namespace Shape

variable {A : Arena Region} {L : Layout} {rows cols : ℕ}

theorem row_of_grows {A' : Arena Region} {L' : Layout} (h : Shape A L rows cols)
    (hgrows : Grows A L rows A' L') : ∀ r < rows, ∃ d, RowAt A' L' cols r d := by
  intro r hr
  obtain ⟨d, hrow⟩ := h.row r hr
  exact ⟨d, hrow.frame hgrows.frame id (hgrows.slot r hr)⟩

/-- A change of the bytes of cells and payloads. -/
theorem frame {A' : Arena Region} {P : Region → Prop} (h : Shape A L rows cols)
    (hf : Frame A A' P) (hslot : ∀ r, ¬P (.slot r)) (hbase : Base A' L rows cols) :
    Shape A' L rows cols := by
  refine ⟨hbase, fun r hr => ?_⟩
  obtain ⟨d, hrow⟩ := h.row r hr
  exact ⟨d, hrow.frame hf (hslot r) rfl⟩

/-- What a call does to the block. -/
def Kept (cols : ℕ) (result : Option (Status × SharedBlock)) : Prop :=
  ∃ st A' L' rows', result = some (st, ofArena A') ∧ Shape A' L' rows' cols

/-- The directory of a row is new. -/
theorem allocRow (h : Shape A L rows cols) (hcols : 0 < cols) :
    Kept cols (ofArena A).allocRow := by
  obtain ⟨A₁, L₁, hgrows, ⟨hcall, hbase⟩ | ⟨hbase, a, A₂, hres, hcall⟩⟩ := h.base.allocRow_spec
  · exact ⟨.noMemory, A₁, L₁, rows, hcall, hbase, h.row_of_grows hgrows⟩
  have hlt := hres.lt
  rcases hcall with hcall | ⟨hzero, -⟩
  · have hfill := hbase.fill hres (List.replicate (cols * sizeOfCellUnit) 0) (dirRegion rows)
    have hframe := hres.frame_fill (List.replicate (cols * sizeOfCellUnit) 0) (dirRegion rows)
    obtain ⟨hframe', hslot, hbase'⟩ := hfill.write_slot a
    refine ⟨.ok, _, L₁, rows + 1, hcall, hbase', fun r hr => ?_⟩
    rcases Nat.lt_succ_iff_lt_or_eq.mp hr with hr | rfl
    · obtain ⟨d, hrow⟩ := h.row_of_grows hgrows r hr
      exact ⟨d, (hrow.frame hframe (by simp) rfl).frame hframe' (by simpa using hr.ne) rfl⟩
    · refine ⟨a, hslot, ?_, fun c hc => hframe'.owned (owned_claim hres.brk_le ?_ fun i hi => ?_)⟩
      · rw [(hframe.trans hframe').size]
        exact hlt
      · rw [← Nat.succ_mul]
        exact Nat.mul_le_mul_right _ hc
      · rw [dirRegion, Nat.add_comm, Nat.add_mul_div_right _ _ (by decide), Nat.div_eq_of_lt hi,
          Nat.zero_add]
  · exact absurd hzero hcols.ne'

theorem freeLastRow (h : Shape A L rows cols) : Kept cols (ofArena A).freeLastRow := by
  obtain ⟨A', huncount, hbase, hgrows⟩ := h.base.uncountRow_spec
  refine ⟨.ok, A', L, rows - 1, ?_, hbase, fun r hr => ?_⟩
  · unfold SharedBlock.freeLastRow
    rw [if_neg (by simp [ofArena]), huncount]
    rfl
  · exact h.row_of_grows (hgrows _) r (hr.trans_le (Nat.sub_le _ _))

/-- The cell at row `row` and column `col` is there, in its directory, or it is not. -/
theorem getCellUnit (h : Shape A L rows cols) (row col : ℕ) :
    (ofArena A).getCellUnit row col = some none ∨ 0 < L.groups ∧
      ∃ cell, (ofArena A).getCellUnit row col = some (some cell) ∧
        cell + sizeOfCellUnit ≤ A.mem.size ∧ A.Owned cell sizeOfCellUnit (.cell row col) := by
  by_cases hrc : row < rows ∧ col < cols
  · obtain ⟨d, hrow⟩ := h.row row hrc.1
    have hbound := hrow.bound
    have hle : (col + 1) * sizeOfCellUnit ≤ cols * sizeOfCellUnit := Nat.mul_le_mul_right _ hrc.2
    rw [Nat.succ_mul] at hle
    exact .inr ⟨h.base.groups_pos_of_lt hrc.1, _,
      h.base.getCellUnit_eq hrow.slot (by omega) hrc.1 hrc.2, by omega, hrow.cells col hrc.2⟩
  · exact .inl (h.base.getCellUnit_eq_none hrc)

/-- A cell is written over. -/
theorem write_cell {row col cell : ℕ} {bs : List UInt8} (h : Shape A L rows cols)
    (hlen : bs.length = sizeOfCellUnit) (ho : A.Owned cell sizeOfCellUnit (.cell row col)) :
    Shape (A.write cell bs) L rows cols := by
  have ho' : A.Owned cell bs.length (.cell row col) := hlen ▸ ho
  have hframe := frame_write ho'
  exact h.frame hframe (by simp) (h.base.frame hframe (by simp) (by simp) rfl)

theorem putCell (h : Shape A L rows cols) (row col cellType : ℕ) {value : List UInt8}
    (hlen : value.length = 8) : Kept cols ((ofArena A).putCell row col cellType value) := by
  have hbytes : (leBytes 4 cellType ++ value).length = sizeOfCellUnit := by
    rw [List.length_append, length_leBytes, hlen]
    rfl
  rcases h.getCellUnit row col with hunit | ⟨-, cell, hunit, hle, ho⟩
  · refine ⟨.badValue, A, L, rows, ?_, h⟩
    unfold SharedBlock.putCell
    rw [if_neg (by simp [ofArena]), hunit]
    rfl
  · refine ⟨.ok, _, L, rows, ?_, h.write_cell hbytes ho⟩
    unfold SharedBlock.putCell
    rw [if_neg (by simp [ofArena]), hunit]
    simp only [Option.bind_eq_bind, Option.bind_some]
    rw [store_ofArena (hbytes ▸ hle)]
    rfl

/-- The bytes of a string or blob are new. -/
theorem putBlobOrString (h : Shape A L rows cols) (row col : ℕ) (data : List UInt8) (kind : ℕ) :
    Kept cols ((ofArena A).putBlobOrString row col data kind) := by
  rcases h.getCellUnit row col with hunit | ⟨hpos, cell, hunit, hle, ho⟩
  · refine ⟨.badValue, A, L, rows, ?_, h⟩
    unfold SharedBlock.putBlobOrString
    rw [if_neg (by simp [ofArena]), hunit]
    rfl
  · rcases h.base.putBlobOrString_spec hpos hunit hle data kind with hput | ⟨a, A₁, hres, hput⟩
    · exact ⟨.noMemory, A, L, rows, hput, h⟩
    · have hframe := hres.frame_fill data fun _ => .payload row col
      have hfill := h.frame hframe (by simp) (h.base.fill hres data _)
      refine ⟨.ok, _, L, rows, hput, hfill.write_cell ?_ (hframe.owned ho)⟩
      simp only [List.length_append, length_leBytes]
      rfl

theorem perform (h : Shape A L rows cols) (hcols : 0 < cols) (call : BlockCall) :
    Kept cols ((ofArena A).perform call) := by
  cases call with
  | allocRow => exact h.allocRow hcols
  | freeLastRow => exact h.freeLastRow
  | putLong row column value => exact h.putCell row column _ (length_basicBytes value)
  | putDouble row column value => exact h.putCell row column _ (length_basicBytes value)
  | putNull row column => exact h.putCell row column _ rfl
  | putString row column value => exact h.putBlobOrString row column value _
  | putBlob row column value => exact h.putBlobOrString row column value _

/-- Any calls end, and keep the shape. -/
theorem performAll : ∀ {A : Arena Region} {L : Layout} {rows : ℕ} (_ : Shape A L rows cols)
    (_ : 0 < cols) (calls : List BlockCall), ∃ sts A' L' rows',
      DataShare.performAll SharedBlock.perform (ofArena A) calls = some (sts, ofArena A') ∧
        Shape A' L' rows' cols
  | A, L, rows, h, _, [] => ⟨[], A, L, rows, rfl, h⟩
  | A, L, rows, h, hcols, call :: calls => by
    obtain ⟨st, A₁, L₁, rows₁, hcall, h₁⟩ := h.perform hcols call
    obtain ⟨sts, A₂, L₂, rows₂, hcalls, h₂⟩ := h₁.performAll hcols calls
    refine ⟨st :: sts, A₂, L₂, rows₂, ?_, h₂⟩
    rw [DataShare.performAll, hcall]
    simp only [Option.bind_eq_bind, Option.bind_some, hcalls]
    rfl

theorem intact (h : Shape A L rows cols) (hcols : 0 < cols) :
    Cpp.AppDataFwk.Intact (ofArena A) := by
  have hrows := h.base.rows_lt
  have hle := h.base.cols_le
  unfold colMaxNum at hle
  have hrowNum : (ofArena A).rowNum = some rows := header_ofArena h.base.rowNums (by omega)
  have hcolumnNum : (ofArena A).columnNum = some cols :=
    header_ofArena h.base.columnNums (by omega)
  rw [Cpp.AppDataFwk.Intact, hrowNum, hcolumnNum]
  exact ⟨fun heq => absurd (Option.some.inj heq) (by omega),
    fun heq => hcols.ne' (Option.some.inj heq)⟩

end Shape

end Rust

/-! ## Blocks below 4 GiB -/

open Rust (Shape ofArena)

/-- A region of 2 GiB or more is not created. -/
theorem create_eq_error_of_ge {size : ℕ} (hge : 2 ^ 31 ≤ size) (hlt : size < 2 ^ 32) :
    SharedBlock.create size = some (.error .ashmemError) := by
  have hneg : ¬(0 : Int32) < Int32.ofNat size := by
    rw [Int32.lt_iff_toInt_lt, Int32.toInt_ofNat', Int32.toInt_zero]
    rw [Int.bmod_def, Int32.size]
    omega
  unfold SharedBlock.create
  rw [SharedBlock.createAshmemInstance, if_neg hneg]
  rfl

/-- A block that is created has no rows yet. -/
theorem shape_of_prepare {size numColumns : ℕ} (hsize : size < 2 ^ 32)
    (hle : numColumns ≤ colMaxNum) {sts : List Status} {b : SharedBlock}
    (h : SharedBlock.prepare size numColumns = some (.ok (sts, b))) :
    ∃ A L, b = ofArena A ∧ Shape A L 0 numColumns := by
  unfold SharedBlock.prepare at h
  rcases Nat.lt_or_ge size sizeOfHeader with hsmall | hheader
  · rw [Rust.create_eq_error hsmall] at h
    cases h
  rcases Nat.lt_or_ge size (2 ^ 31) with hlt | hge
  · obtain ⟨A, L, hcreate, hinv⟩ := Rust.create_spec hheader hlt
    obtain ⟨st, A₁, L₁, hclear, hinv₁⟩ := hinv.clear
    have hset := hinv₁.setColumnNum_eq numColumns
    rw [if_neg (fun hset => hset.1.elim (Nat.lt_irrefl 0) (Nat.lt_irrefl 0)),
      if_neg (not_lt.mpr hle)] at hset
    rw [hcreate] at h
    simp only [Option.bind_eq_bind, Option.bind_some, hclear, hset] at h
    obtain ⟨-, rfl⟩ := Prod.mk.inj (Except.ok.inj (Option.some.inj h))
    exact ⟨_, L₁, rfl, hinv₁.base.write_columnNums hle, fun r hr => absurd hr (Nat.not_lt_zero r)⟩
  · rw [create_eq_error_of_ge hge hsize] at h
    cases h

/-- A block below 4 GiB is filled alike in both languages, and no call faults. From 4 GiB on it is
as long as the rows that are allocated find an intact header. -/
theorem interchangeable {size numColumns : ℕ} (hpos : 0 < numColumns)
    (hle : numColumns ≤ colMaxNum) (calls : List BlockCall)
    (h : size < 2 ^ 32 ∨ ∀ sts b, SharedBlock.prepare size numColumns = some (.ok (sts, b)) →
      KeepsIntact b calls) :
    Interchangeable size numColumns calls ∧ (size < 2 ^ 32 → ∀ sts b,
      SharedBlock.prepare size numColumns = some (.ok (sts, b)) →
        (performAll SharedBlock.perform b calls).isSome) := by
  refine ⟨⟨prepare_eq size numColumns, fun sts b hb => performAll_eq ?_⟩, fun hsize sts b hb => ?_⟩
  · rcases h with hsize | h
    · obtain ⟨A, L, rfl, hshape⟩ := shape_of_prepare hsize hle hb
      intro before after _ sts' b' hbefore
      obtain ⟨sts₁, A₁, L₁, rows₁, hrun, hshape₁⟩ := hshape.performAll hpos before
      obtain ⟨-, rfl⟩ := Prod.mk.inj (Option.some.inj (hbefore.symm.trans hrun))
      exact hshape₁.intact hpos
    · exact h sts b hb
  · obtain ⟨A, L, rfl, hshape⟩ := shape_of_prepare hsize hle hb
    obtain ⟨sts₁, A₁, L₁, rows₁, hrun, -⟩ := hshape.performAll hpos calls
    rw [hrun]
    rfl

theorem interchangeable_4096 :
    Interchangeable 4096 2 [.allocRow, .putLong 0 1 5, .putString 0 0 [255]] ∧
      (4096 < 2 ^ 32 → ∀ sts b, SharedBlock.prepare 4096 2 = some (.ok (sts, b)) →
        (performAll SharedBlock.perform b
          [.allocRow, .putLong 0 1 5, .putString 0 0 [255]]).isSome) :=
  interchangeable (by decide) (by decide) _ (.inl (by decide))

/-! ## A block of more than 4 GiB -/

/-- A put of bytes that wrap `unused_offset` is refused, and leaves it wrapped. -/
theorem putBlob_of_wrap {b b' : SharedBlock} {row column cell unused : ℕ} {value : List UInt8}
    (hw : b.readOnly = false) (hunit : b.getCellUnit row column = some (some cell))
    (hunused : b.header .unusedOffset = some unused) (hpos : 0 < unused)
    (hword : unused < 2 ^ 32) (hvalue : value.length < 2 ^ 32)
    (hwrap : 2 ^ 32 ≤ unused + value.length) (hlt : unused + value.length < b.size)
    (hset : b.setHeader .unusedOffset (unused + value.length - 2 ^ 32) = some b') :
    b.putBlob row column value = some (.noMemory, b') := by
  have halloc : b.alloc value.length false = some (unused, b') := by
    have hmod : (unused + value.length % 2 ^ 32) % 2 ^ 32 = unused + value.length - 2 ^ 32 := by
      omega
    unfold SharedBlock.alloc
    rw [hunused]
    simp only [Option.bind_eq_bind, Option.bind_some, Bool.false_eq_true, if_false, Nat.add_zero,
      Nat.mod_eq_of_lt hword, if_neg (not_le.mpr hlt), hmod, hset]
    rfl
  have hptr : b'.offsetToPtr unused (value.length % 2 ^ 32) = none := by
    rw [SharedBlock.offsetToPtr, Nat.mod_eq_of_lt hvalue]
    split
    · rfl
    · exact if_pos (by omega)
  unfold SharedBlock.putBlob SharedBlock.putBlobOrString
  rw [if_neg (by simp [hw]), hunit]
  simp only [Option.bind_eq_bind, Option.bind_some, halloc, if_neg hpos.ne', hptr]
  rfl

/-- The blob that wraps `unused_offset` to 8 after the first row. -/
def wrappingBlob : List UInt8 :=
  List.replicate (2 ^ 32 - 436) 0

/-- In a block of `2 ^ 32 + 4096` bytes the row after that clears the number of columns, and the one
after that is a row of no columns. -/
theorem not_interchangeable_large : ¬∀ size numColumns : ℕ, 0 < numColumns →
    numColumns ≤ colMaxNum → ∀ calls, Interchangeable size numColumns calls := by
  intro h
  have hrun : (SharedBlock.prepare (2 ^ 32 + 4096) 1).any fun r => r.toOption.any fun r =>
      Cpp.AppDataFwk.Intact r.2 ∧ (r.2.perform .allocRow).any fun r => r.2.readOnly = false ∧
        r.2.size = 2 ^ 32 + 4096 ∧ r.2.getCellUnit 0 0 = some (some 432) ∧
        r.2.header .unusedOffset = some 444 ∧ (r.2.setHeader .unusedOffset 8).any fun b =>
          (performAll SharedBlock.perform b [.allocRow, .allocRow]).map Prod.fst =
              some [.ok, .ok] ∧
            (performAll Cpp.AppDataFwk.perform b [.allocRow, .allocRow]).map Prod.fst =
              some [.ok, .noMemory] := by
    decide +kernel
  obtain ⟨r | ⟨sts, b⟩, hprepare, hr⟩ := (Option.any_eq_true _ _).mp hrun
  · cases hr
  obtain ⟨_, ⟨⟩, hr⟩ := (Option.any_eq_true _ _).mp hr
  obtain ⟨hintact, hr⟩ := of_decide_eq_true hr
  obtain ⟨⟨st₁, b₁⟩, hrow, hr⟩ := (Option.any_eq_true _ _).mp hr
  obtain ⟨hw, hsize, hunit, hunused, hr⟩ := of_decide_eq_true hr
  obtain ⟨b₂, hset, hr⟩ := (Option.any_eq_true _ _).mp hr
  obtain ⟨hrust, hcpp⟩ := of_decide_eq_true hr
  have hlen : wrappingBlob.length = 2 ^ 32 - 436 := List.length_replicate
  have hput : b₁.perform (.putBlob 0 0 wrappingBlob) = some (.noMemory, b₂) := by
    refine putBlob_of_wrap hw hunit hunused (by decide) (by decide) ?_ ?_ ?_ ?_
    · omega
    · omega
    · rw [hsize]
      omega
    · rw [hlen]
      exact hset
  have hsts : ∀ perform, perform b .allocRow = some (st₁, b₁) →
      perform b₁ (.putBlob 0 0 wrappingBlob) = some (.noMemory, b₂) →
        (performAll perform b
          [.allocRow, .putBlob 0 0 wrappingBlob, .allocRow, .allocRow]).map Prod.fst =
          ((performAll perform b₂ [.allocRow, .allocRow]).map Prod.fst).map
            fun sts => st₁ :: .noMemory :: sts := by
    intro perform hrow hput
    rw [performAll, hrow]
    simp only [Option.bind_eq_bind, Option.bind_some]
    rw [performAll, hput]
    simp only [Option.bind_eq_bind, Option.bind_some]
    rcases performAll perform b₂ [.allocRow, .allocRow] with - | r <;> rfl
  have hsame := congrArg (Option.map Prod.fst) ((h (2 ^ 32 + 4096) 1 (by decide) (by decide)
    [.allocRow, .putBlob 0 0 wrappingBlob, .allocRow, .allocRow]).performed sts b hprepare)
  rw [hsts _ ((perform_eq fun _ => hintact).trans hrow) ((perform_eq (by simp)).trans hput),
    hsts _ hrow hput, hrust, hcpp] at hsame
  cases hsame

end DataShare
