import DataShare.DataSharePermission
import Mathlib.Data.List.Forall2

/-!
# The permission of a proxy data uri

A bundle declares the uris of its proxy data with the permissions that guard them, in the list
of each of its modules. `GetFromProxyData` takes the first declared uri, in the order of the
modules and of their lists, whose characters the uri without its query begins with. So
`.../table1` governs `.../table10`, and of two declared uris that both fit, the first one does.

The longest declared uri that ends at a path segment decides in every order exactly if all that
the uri begins with declare the permissions of that one (`governedByLongest_iff`).
-/

namespace DataShare

namespace Cpp

/-! ## The lookup -/

/-- The permissions of an entry, to read and to write. -/
def ProxyData.permissions (data : ProxyData) : StdString × StdString :=
  (data.requiredReadPermission, data.requiredWritePermission)

/-- All entries, in the order of the two loops. -/
def BundleInfo.proxyDatas (bundleInfo : BundleInfo) : List ProxyData :=
  bundleInfo.hapModuleInfos.flatMap HapModuleInfo.proxyDatas

/-- `GetFromProxyData`, to the permissions that it sets. -/
def getFromProxyData (bundleInfo : Option BundleInfo) (uri : StdString) :
    Except Int32 (StdString × StdString) :=
  match bundleInfo with
  | none => .error eBundleNameNotExist
  | some bundleInfo =>
    let uriWithoutQuery := removeFromQuery uri
    match bundleInfo.proxyDatas.find? fun data => data.uri.isPrefixOf uriWithoutQuery with
    | none => .error eUriNotExist
    | some data => .ok data.permissions

section Silent

variable {β : Type} (pf : Platform β)

/-- `GetProviderInfo` calls it if the uri has a bundle name. -/
theorem getProviderInfo_eq (bms : β) (uri : StdString) (user : Int32) (now : ℕ) :
    getProviderInfo pf bms uri user now =
      if calledBundleName pf uri = [] then .error eBundleNameNotExist
      else (getFromProxyData
          (pf.getBundleInfo bms (calledBundleName pf uri) (bmsUser pf user)) uri).map fun p =>
        ⟨calledBundleName pf uri, p.1, p.2, now⟩ := by
  rw [getProviderInfo]
  by_cases hname : calledBundleName pf uri = []
  · simp [hname]
  · simp only [hname, if_false, getFromProxyData]
    rcases pf.getBundleInfo bms (calledBundleName pf uri) (bmsUser pf user) with _ | bundleInfo
    · rfl
    · simp only [BundleInfo.proxyDatas]
      cases bundleInfo.hapModuleInfos.flatMap HapModuleInfo.proxyDatas |>.find?
          fun data => data.uri.isPrefixOf (removeFromQuery uri) with
      | none => rfl
      | some data => rfl

namespace DataSharePermission

/-- `GetSilentUriPermission` of a uri that its cache does not have. -/
def getSilentUriPermission (bms : β) (uri : StdString) (user : Int32) (isRead : Bool) (now : ℕ) :
    Int32 × StdString :=
  match getProviderInfo pf bms uri user now with
  | .error ret => (ret, [])
  | .ok p => (eOk, p.get isRead)

/-- The lookup makes these calls one after the other, if no other comes between them. -/
def Lookup.finish {cm : Cache} (bms : β) (now : ℕ) : ℕ → Lookup × cm.Map → Lookup × cm.Map
  | 0, r => r
  | n + 1, r => Lookup.finish bms now n (r.1.advance pf bms now r.2)

end DataSharePermission

/-- The platform where every bundle declares this. -/
def Platform.declaring (bundleInfo : BundleInfo) : Platform β :=
  { pf with getBundleInfo := fun _ _ _ => some bundleInfo }

end Silent

/-! ## The declared uris -/

/-- What stands before the query of a uri. -/
def queryFree (uri : StdString) : StdString :=
  uri.takeWhile (· ≠ 63)

/-- `declared` is the uri, or what it begins with up to the end of a path segment. `/` is 47. -/
def CoversSegments (declared uri : StdString) : Prop :=
  declared = uri ∨
    declared <+: uri ∧ (declared.getLast? = some 47 ∨ uri[declared.length]? = some 47)

namespace BundleInfo

/-- The longest of the declared uris that cover the uri. -/
structure Longest (bundleInfo : BundleInfo) (uri : StdString) (data : ProxyData) : Prop where
  mem : data ∈ bundleInfo.proxyDatas
  covers : CoversSegments data.uri (queryFree uri)
  longest : ∀ other ∈ bundleInfo.proxyDatas, CoversSegments other.uri (queryFree uri) →
    other.uri.length ≤ data.uri.length

/-- The modules, or the entries of each, in another order. -/
def Permuted (bundleInfo other : BundleInfo) : Prop :=
  ∃ modules, bundleInfo.hapModuleInfos.Perm modules ∧
    List.Forall₂ (fun m m' => m.proxyDatas.Perm m'.proxyDatas) modules other.hapModuleInfos

/-- The longest declared uri decides, with an error where there is none. -/
structure Exact (bundleInfo : BundleInfo) (uri : StdString) : Prop where
  longest : ∀ data, bundleInfo.Longest uri data →
    getFromProxyData (some bundleInfo) uri = .ok data.permissions
  none : (¬∃ data, bundleInfo.Longest uri data) →
    getFromProxyData (some bundleInfo) uri = .error eUriNotExist

/-- The longest declared uri decides, and no order makes a difference to what is looked up or
to what `GetSilentUriPermission` enforces. -/
structure GovernedByLongest (bundleInfo : BundleInfo) (uri : StdString) : Prop where
  exact : bundleInfo.Exact uri
  permuted : ∀ other, bundleInfo.Permuted other →
    getFromProxyData (some other) uri = getFromProxyData (some bundleInfo) uri
  enforced : ∀ other, bundleInfo.Permuted other → ∀ {β : Type} (pf : Platform β) (bms : β)
    (user : Int32) (isRead : Bool) (now : ℕ),
      DataSharePermission.getSilentUriPermission (pf.declaring other) bms uri user isRead now =
        DataSharePermission.getSilentUriPermission (pf.declaring bundleInfo) bms uri user isRead now

end BundleInfo

/-! ## What covers a uri is what it begins with -/

theorem removeFromQuery_append {before after : StdString} (hafter : 63 ∉ after) :
    removeFromQuery (before ++ 63 :: after) = before := by
  have hreverse : (before ++ 63 :: after).reverse = after.reverse ++ 63 :: before.reverse := by
    simp
  have hskip : (after.reverse ++ 63 :: before.reverse).dropWhile (· ≠ 63) =
      63 :: before.reverse := by
    rw [List.dropWhile_append_of_pos]
    · simp
    · intro c hc
      have hne : c ≠ 63 := fun h => hafter (h ▸ List.mem_reverse.mp hc)
      simpa using hne
  rw [removeFromQuery, if_pos (by simp), hreverse, hskip, List.drop_one, List.tail_cons,
    List.reverse_reverse]

/-- The part before the last `?` begins with the part before the first. -/
theorem queryFree_begins (uri : StdString) : queryFree uri <+: removeFromQuery uri := by
  by_cases hquery : 63 ∈ uri
  · obtain ⟨after, before, hsplit, hafter⟩ :=
      List.eq_append_cons_of_mem (List.mem_reverse.mpr hquery)
    have huri : uri = before.reverse ++ 63 :: after.reverse := by
      rw [← List.reverse_reverse uri, hsplit]
      simp
    rw [huri, removeFromQuery_append (fun h => hafter (List.mem_reverse.mp h)), queryFree,
      List.takeWhile_append]
    split
    · simp
    · exact List.takeWhile_prefix _
  · rw [removeFromQuery, if_neg hquery]
    exact List.takeWhile_prefix _

theorem CoversSegments.begins {declared uri : StdString} (h : CoversSegments declared uri) :
    declared <+: uri := by
  rcases h with rfl | h
  · exact List.prefix_refl _
  · exact h.1

namespace BundleInfo

variable {bundleInfo other : BundleInfo} {uri : StdString} {data : ProxyData}

theorem Longest.isPrefixOf (h : bundleInfo.Longest uri data) :
    data.uri.isPrefixOf (removeFromQuery uri) = true :=
  List.isPrefixOf_iff_prefix.mpr (h.covers.begins.trans (queryFree_begins uri))

/-- What is looked up is declared, and the uri begins with it. -/
theorem getFromProxyData_cases (bundleInfo : BundleInfo) (uri : StdString) :
    (∃ data ∈ bundleInfo.proxyDatas, data.uri.isPrefixOf (removeFromQuery uri) = true ∧
        getFromProxyData (some bundleInfo) uri = .ok data.permissions) ∨
      ((∀ data ∈ bundleInfo.proxyDatas, data.uri.isPrefixOf (removeFromQuery uri) = false) ∧
        getFromProxyData (some bundleInfo) uri = .error eUriNotExist) := by
  cases hfind : bundleInfo.proxyDatas.find? fun data =>
      data.uri.isPrefixOf (removeFromQuery uri) with
  | none =>
    refine Or.inr ⟨fun data hdata => ?_, ?_⟩
    · exact Bool.eq_false_iff.mpr (List.find?_eq_none.mp hfind data hdata)
    · simp only [getFromProxyData, hfind]
  | some data =>
    have hbegins := List.find?_some hfind
    refine Or.inl ⟨data, List.mem_of_find?_eq_some hfind, hbegins, ?_⟩
    simp only [getFromProxyData, hfind]

/-! ## Other orders -/

theorem perm_flatMap {modules modules' : List HapModuleInfo}
    (h : List.Forall₂ (fun m m' => m.proxyDatas.Perm m'.proxyDatas) modules modules') :
    (modules.flatMap HapModuleInfo.proxyDatas).Perm (modules'.flatMap HapModuleInfo.proxyDatas) := by
  induction h with
  | nil => exact List.Perm.refl _
  | cons hentry _ ih =>
    rw [List.flatMap_cons, List.flatMap_cons]
    exact hentry.append ih

theorem Permuted.perm (h : bundleInfo.Permuted other) :
    bundleInfo.proxyDatas.Perm other.proxyDatas := by
  obtain ⟨modules, hmodules, hentries⟩ := h
  exact (hmodules.flatMap_right HapModuleInfo.proxyDatas).trans (perm_flatMap hentries)

/-- Some order puts an entry before all others. -/
theorem exists_permuted_first (hdata : data ∈ bundleInfo.proxyDatas) :
    ∃ other rest, bundleInfo.Permuted other ∧ other.proxyDatas = data :: rest := by
  obtain ⟨m, hm, hentry⟩ := List.mem_flatMap.mp hdata
  obtain ⟨before, after, hmodules⟩ := List.mem_iff_append.mp hm
  obtain ⟨entriesBefore, entriesAfter, hentries⟩ := List.mem_iff_append.mp hentry
  refine ⟨⟨⟨data :: (entriesBefore ++ entriesAfter)⟩ :: (before ++ after)⟩, _,
    ⟨m :: (before ++ after), ?_, List.Forall₂.cons ?_ ?_⟩, rfl⟩
  · rw [hmodules]
    exact List.perm_middle
  · rw [hentries]
    exact List.perm_middle
  · exact List.forall₂_same.mpr fun _ _ => List.Perm.refl _

/-- All that the uri begins with declare the permissions of the longest declared uri that ends
at a path segment, and there is one if the uri begins with any. -/
def PrefixesAgree (bundleInfo : BundleInfo) (uri : StdString) : Prop :=
  ∀ data ∈ bundleInfo.proxyDatas, data.uri.isPrefixOf (removeFromQuery uri) = true →
    (∃ longest, bundleInfo.Longest uri longest) ∧
      ∀ longest, bundleInfo.Longest uri longest → longest.permissions = data.permissions

theorem PrefixesAgree.exact (h : bundleInfo.PrefixesAgree uri) : bundleInfo.Exact uri := by
  rcases getFromProxyData_cases bundleInfo uri with ⟨data, hdata, hbegins, hfound⟩ | ⟨hno, hfound⟩
  · obtain ⟨hexists, hpermissions⟩ := h data hdata hbegins
    refine ⟨fun longest hlongest => ?_, fun hnone => absurd hexists hnone⟩
    rw [hfound, hpermissions longest hlongest]
  · refine ⟨fun longest hlongest => ?_, fun _ => hfound⟩
    exact Bool.noConfusion ((hno longest hlongest.mem).symm.trans hlongest.isPrefixOf)

/-- With the entries in another order another one may be found first, which declares the same. -/
theorem PrefixesAgree.permuted (h : bundleInfo.PrefixesAgree uri)
    (hpermuted : bundleInfo.Permuted other) :
    getFromProxyData (some other) uri = getFromProxyData (some bundleInfo) uri := by
  have hmem : ∀ data, data ∈ bundleInfo.proxyDatas ↔ data ∈ other.proxyDatas :=
    fun _ => hpermuted.perm.mem_iff
  rcases getFromProxyData_cases other uri with ⟨data, hdata, hbegins, hfound⟩ | ⟨hno, hfound⟩
  · obtain ⟨⟨longest, hlongest⟩, hpermissions⟩ := h data ((hmem data).mpr hdata) hbegins
    rw [hfound, h.exact.longest longest hlongest, hpermissions longest hlongest]
  · rw [hfound, h.exact.none fun ⟨longest, hlongest⟩ => ?_]
    exact Bool.noConfusion ((hno longest ((hmem longest).mp hlongest.mem)).symm.trans hlongest.isPrefixOf)

/-- Only what is looked up matters to what is enforced. -/
theorem getSilentUriPermission_congr {β : Type} (pf : Platform β) (bms : β) (user : Int32)
    (isRead : Bool) (now : ℕ)
    (h : getFromProxyData (some other) uri = getFromProxyData (some bundleInfo) uri) :
    DataSharePermission.getSilentUriPermission (pf.declaring other) bms uri user isRead now =
      DataSharePermission.getSilentUriPermission (pf.declaring bundleInfo) bms uri user isRead
        now := by
  have hprovider : getProviderInfo (pf.declaring other) bms uri user now =
      getProviderInfo (pf.declaring bundleInfo) bms uri user now := by
    rw [getProviderInfo_eq, getProviderInfo_eq]
    show (if calledBundleName pf uri = [] then _ else
        (getFromProxyData (some other) uri).map _) =
      if calledBundleName pf uri = [] then _ else (getFromProxyData (some bundleInfo) uri).map _
    rw [h]
    rfl
  rw [DataSharePermission.getSilentUriPermission, hprovider,
    DataSharePermission.getSilentUriPermission]

/-- Exactly when the longest declared uri decides in every order. -/
theorem governedByLongest_iff (bundleInfo : BundleInfo) (uri : StdString) :
    bundleInfo.GovernedByLongest uri ↔ bundleInfo.PrefixesAgree uri := by
  constructor
  · intro h data hdata hbegins
    -- the order that puts `data` first finds it
    obtain ⟨other, rest, hpermuted, hfirst⟩ := exists_permuted_first hdata
    have hfound : getFromProxyData (some bundleInfo) uri = .ok data.permissions := by
      rw [← h.permuted other hpermuted]
      simp only [getFromProxyData, hfirst, List.find?_cons, hbegins]
    constructor
    · by_contra hnone
      have herror := h.exact.none hnone
      rw [hfound] at herror
      exact absurd herror (by simp)
    · intro longest hlongest
      have hok := h.exact.longest longest hlongest
      rw [hfound] at hok
      exact (Except.ok.inj hok).symm
  · intro h
    exact ⟨h.exact, fun other hpermuted => h.permuted hpermuted,
      fun other hpermuted β pf bms user isRead now =>
        getSilentUriPermission_congr pf bms user isRead now (h.permuted hpermuted)⟩

/-- A bundle that declares `/t1`. -/
def declaresTable : BundleInfo where
  hapModuleInfos := [⟨[⟨[47, 116, 49], [82], [87]⟩]⟩]

/-- The uri `/t10` is governed by `/t1`. -/
theorem not_governedByLongest_table :
    ¬∀ (bundleInfo : BundleInfo) (uri : StdString), bundleInfo.GovernedByLongest uri := by
  intro h
  have hnone : ¬∃ data, declaresTable.Longest [47, 116, 49, 48] data := by
    rintro ⟨data, hdata⟩
    obtain rfl := List.mem_singleton.mp hdata.mem
    rcases hdata.covers with heq | ⟨-, hend⟩
    · exact absurd heq (by decide)
    · exact absurd hend (by decide)
  have herror := (h declaresTable [47, 116, 49, 48]).exact.none hnone
  exact absurd herror (by simp [getFromProxyData, declaresTable, BundleInfo.proxyDatas,
    removeFromQuery])

end BundleInfo

end Cpp

end DataShare
