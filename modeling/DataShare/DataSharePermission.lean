import DataShare.CppResultSet

/-!
# Uri permissions and their caches

A lookup asks its cache for the permission of a uri. If the permission is not there, it reads
it from the bundle manager and puts it into the cache. These are separate calls of maps that lock
themselves, so other lookups, and the `DeleteCache` of a package event, come between them. A step
(`DataSharePermission.step`) is one such call of one lookup or of one `DeleteCache`.
-/

namespace DataShare

namespace Cpp

def eUriNotExist : Int32 := 1048
def eBundleNameNotExist : Int32 := 1049
def eDatashareInvalidUri : Int32 := 1078
def eEmptyUri : Int32 := 1081

/-- `find_last_of('?')` and `resize`. -/
def removeFromQuery (uri : StdString) : StdString :=
  if 63 ∈ uri then ((uri.reverse.dropWhile (· ≠ 63)).drop 1).reverse else uri

/-! ## The bundle manager -/

structure ProxyData where
  uri : StdString
  requiredReadPermission : StdString
  requiredWritePermission : StdString

structure HapModuleInfo where
  proxyDatas : List ProxyData

structure BundleInfo where
  hapModuleInfos : List HapModuleInfo

structure ExtensionAbilityInfo where
  /-- The type is `DATASHARE`. -/
  isDataShare : Bool
  bundleName : StdString
  readPermission : StdString
  writePermission : StdString

/-- Parts of a `Uri`, queries to the bundle manager in its state `β`, and the trusted uris of the
config. -/
structure Platform (β : Type) where
  getScheme : StdString → StdString
  getAuthority : StdString → StdString
  getPathSegments : StdString → List StdString
  anyUserId : Int32
  getBundleInfo : β → StdString → Int32 → Option BundleInfo
  queryExtensionAbilityInfoByUri : β → StdString → Int32 → Option ExtensionAbilityInfo
  uriTrusts : Option (List StdString)

/-- A cached permission, with the time of its read, which the code does not keep. -/
structure Permission where
  bundleName : StdString
  readPermission : StdString
  writePermission : StdString
  readAt : ℕ
deriving DecidableEq

def Permission.get (p : Permission) (isRead : Bool) : StdString :=
  if isRead then p.readPermission else p.writePermission

section Bms

variable {β : Type} (pf : Platform β)

def schemeProxy : StdString := utf8Bytes "datashareproxy"

/-- The bundle name that `DataShareCalledConfig` takes from the uri. -/
def calledBundleName (uri : StdString) : StdString :=
  if pf.getScheme uri = schemeProxy then pf.getAuthority uri
  else (pf.getPathSegments uri).headD (pf.getAuthority uri)

def bmsUser (user : Int32) : Int32 :=
  if user = 0 then pf.anyUserId else user

/-- `GetExtensionInfoFromBMS`, to what the caller keeps of it. -/
def getExtensionInfoFromBMS (bms : β) (uri : StdString) (user : Int32) (now : ℕ) :
    Option Permission := do
  let info ← pf.queryExtensionAbilityInfoByUri bms uri (bmsUser pf user)
  if info.isDataShare then
    pure ⟨info.bundleName, info.readPermission, info.writePermission, now⟩
  else none

/-- `GetProviderInfo`, to what the caller keeps of it. -/
def getProviderInfo (bms : β) (uri : StdString) (user : Int32) (now : ℕ) :
    Except Int32 Permission :=
  let bundleName := calledBundleName pf uri
  if bundleName = [] then .error eBundleNameNotExist
  else
    match pf.getBundleInfo bms bundleName (bmsUser pf user) with
    | none => .error eBundleNameNotExist
    | some bundleInfo =>
      let datas := bundleInfo.hapModuleInfos.flatMap HapModuleInfo.proxyDatas
      match datas.find? fun data => data.uri.isPrefixOf (removeFromQuery uri) with
      | none => .error eUriNotExist
      | some data =>
        .ok ⟨bundleName, data.requiredReadPermission, data.requiredWritePermission, now⟩

def isInUriTrusts (uri : StdString) : Bool :=
  (pf.uriTrusts.getD []).any fun item => item.isPrefixOf uri

def uriIsTrust (uri : StdString) : Int32 :=
  let scheme := pf.getScheme uri
  if scheme = utf8Bytes "sharepreferences" ∨ scheme = utf8Bytes "rdb" ∨
      scheme = utf8Bytes "file" then eOk
  else if isInUriTrusts pf uri then eOk
  else if scheme ≠ utf8Bytes "datashare" ∧ scheme ≠ schemeProxy then eDatashareInvalidUri
  else eError

end Bms

/-! ## The maps -/

structure UriKey where
  uri : StdString
  userId : Int32
deriving DecidableEq

/-- `operator<`. It is no order : of two keys each can be less than the other. -/
def UriKey.lt (k other : UriKey) : Bool :=
  decide (k.uri < other.uri) || decide (k.userId < other.userId)

/-- A map that locks itself, with what its operations say of its entries. What `Find` finds has
an equivalent key, and that it finds a key that is there is not relied on. -/
structure ConcurrentMap (κ ν : Type) (lt : κ → κ → Bool) where
  Map : Type
  entries : Map → List (κ × ν)
  empty : Map
  find : Map → κ → Option ν
  emplace : Map → κ → ν → Map
  eraseIf : Map → (κ → ν → Bool) → Map
  entries_empty : entries empty = []
  mem_of_find : ∀ {m k v}, find m k = some v →
    ∃ k', (k', v) ∈ entries m ∧ lt k k' = false ∧ lt k' k = false
  mem_emplace : ∀ {m k v e}, e ∈ entries (emplace m k v) → e = (k, v) ∨ e ∈ entries m
  length_emplace : ∀ {m k v}, (entries (emplace m k v)).length ≤ (entries m).length + 1
  entries_eraseIf : ∀ {m p}, entries (eraseIf m p) = (entries m).filter fun e => !p e.1 e.2

def ConcurrentMap.size {κ ν : Type} {lt : κ → κ → Bool} (cm : ConcurrentMap κ ν lt)
    (m : cm.Map) : ℕ :=
  (cm.entries m).length

namespace DataSharePermission

/-- `CACHE_SIZE`. -/
def cacheSize : ℕ := 32

inductive CacheKind
  | extension
  | silent
deriving DecidableEq

/-- The call that a lookup makes next, or what it returns. -/
inductive Phase
  | find
  | read
  | size (p : Permission)
  | clear (p : Permission)
  | emplace (p : Permission)
  | done (ret : Int32) (permission : StdString)
deriving DecidableEq

/-- `GetExtensionUriPermission` or `GetSilentUriPermission`. With `fallback` it is
`GetUriPermission`, which goes on to the extension when the silent lookup fails. -/
structure Lookup where
  cache : CacheKind
  key : UriKey
  isRead : Bool
  fallback : Bool
  phase : Phase
deriving DecidableEq

/-- A `DeleteCache`, with the caches it has not erased yet. -/
structure Deletion where
  bundleName : StdString
  receivedAt : ℕ
  pending : List CacheKind
deriving DecidableEq

abbrev Cache := ConcurrentMap UriKey Permission UriKey.lt

/-- The time is the number of steps so far. -/
structure State (cm : Cache) (β : Type) where
  bms : β
  cache : CacheKind → cm.Map
  lookups : List Lookup
  deletions : List Deletion
  clock : ℕ

inductive CommonEvent
  | packageRemoved
  | sandboxPackageRemoved
  | packageChanged
  | other
deriving DecidableEq

inductive Action (β : Type)
  | getExtensionUriPermission (uri : StdString) (user : Int32) (isRead : Bool)
  | getSilentUriPermission (uri : StdString) (user : Int32) (isRead : Bool)
  | getUriPermission (uri : StdString) (user : Int32) (isRead : Bool)
  | lookup (i : ℕ)
  | receive (event : CommonEvent) (bundleName : StdString)
  | erase (j : ℕ)
  | bms (bms : β)

variable {β : Type}

/-- The lookup that `GetUriPermission` begins with. -/
def getUriPermission (pf : Platform β) (uri : StdString) (user : Int32) (isRead : Bool) : Lookup :=
  let key : UriKey := ⟨removeFromQuery uri, user⟩
  let answer (ret : Int32) (permission : StdString) : Lookup :=
    ⟨.extension, key, isRead, false, .done ret permission⟩
  if uri = [] then answer eEmptyUri []
  else
    let ret := uriIsTrust pf uri
    if ret = eOk then answer eOk (utf8Bytes "noPermission")
    else if ret = eDatashareInvalidUri then answer eDatashareInvalidUri []
    else if pf.getScheme uri = schemeProxy then ⟨.silent, key, isRead, true, .find⟩
    else ⟨.extension, key, isRead, false, .find⟩

/-- What a lookup reads, or the code it fails with. -/
def Lookup.read (pf : Platform β) (bms : β) (now : ℕ) (l : Lookup) : Except Int32 Permission :=
  match l.cache with
  | .extension =>
    match getExtensionInfoFromBMS pf bms l.key.uri l.key.userId now with
    | none => .error eUriNotExist
    | some p => .ok p
  | .silent => getProviderInfo pf bms l.key.uri l.key.userId now

/-- The next call of a lookup, with what it makes of its cache. -/
def Lookup.advance {cm : Cache} (pf : Platform β) (bms : β) (now : ℕ) (m : cm.Map) (l : Lookup) :
    Lookup × cm.Map :=
  match l.phase with
  | .find =>
    match cm.find m l.key with
    | some p => ({ l with phase := .done eOk (p.get l.isRead) }, m)
    | none => ({ l with phase := .read }, m)
  | .read =>
    match l.read pf bms now with
    | .ok p => ({ l with phase := .size p }, m)
    | .error ret =>
      if l.fallback then ({ l with cache := .extension, fallback := false, phase := .find }, m)
      else ({ l with phase := .done ret [] }, m)
  | .size p =>
    if cm.size m ≥ cacheSize then ({ l with phase := .clear p }, m)
    else ({ l with phase := .emplace p }, m)
  | .clear p => ({ l with phase := .emplace p }, cm.empty)
  | .emplace p => ({ l with phase := .done eOk (p.get l.isRead) }, cm.emplace m l.key p)
  | .done _ _ => (l, m)

/-- One call. -/
def step {cm : Cache} (pf : Platform β) (s : State cm β) (a : Action β) : Option (State cm β) :=
  let s' := { s with clock := s.clock + 1 }
  match a with
  | .getExtensionUriPermission uri user isRead =>
    pure { s' with lookups := s.lookups ++ [⟨.extension, ⟨uri, user⟩, isRead, false, .find⟩] }
  | .getSilentUriPermission uri user isRead =>
    pure { s' with lookups := s.lookups ++ [⟨.silent, ⟨uri, user⟩, isRead, false, .find⟩] }
  | .getUriPermission uri user isRead =>
    pure { s' with lookups := s.lookups ++ [getUriPermission pf uri user isRead] }
  | .lookup i => do
    let l ← s.lookups[i]?
    let (l', m) := l.advance pf s.bms s.clock (s.cache l.cache)
    pure { s' with lookups := s.lookups.set i l', cache := Function.update s.cache l.cache m }
  | .receive event bundleName =>
    if event = .other then pure s'
    else
      pure { s' with
        deletions := s.deletions ++ [⟨bundleName, s.clock, [.extension, .silent]⟩] }
  | .erase j => do
    let d ← s.deletions[j]?
    match d.pending with
    | [] => none
    | c :: pending =>
      let m := cm.eraseIf (s.cache c) fun _ value => value.bundleName = d.bundleName
      pure { s' with
        deletions := s.deletions.set j { d with pending }
        cache := Function.update s.cache c m }
  | .bms bms => pure { s' with bms }

def init (cm : Cache) (bms : β) : State cm β where
  bms := bms
  cache _ := cm.empty
  lookups := []
  deletions := []
  clock := 0

end DataSharePermission

end Cpp

end DataShare
