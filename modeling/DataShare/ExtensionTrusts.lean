import DataShare.CppBuffer

/-!
# Trusted consumers of an extension

`IsInExtensionTrusts` of `data_share_permission.cpp` decides whether a consumer may observe a
provider, from the called-config and the app identifiers that the bundle manager knows. The
loop keeps the identifier that the config lists for the consumer. It starts with an empty
one, so a consumer that is not listed is compared with the empty identifier.

The decision is sound unless the bundle manager gives the consumer an empty identifier
(`isInExtensionTrusts_sound_iff`).
-/

namespace DataShare

namespace Cpp

/-! ## The config -/

structure Bundle where
  name : StdString
  appIdentifier : StdString
deriving DecidableEq

structure ConsumerProvider where
  consumer : List Bundle
  provider : Bundle
deriving DecidableEq

structure DataShareConfig where
  extensionObsTrusts : List ConsumerProvider
deriving DecidableEq

/-- `GetBundleInfoFromBMS`, to the app identifier that is kept of it. -/
abbrev AppIdentifiers := StdString → Option StdString

/-! ## The decision -/

section Decision

variable (bms : AppIdentifiers) (consumer provider : StdString)

def checkAppIdentifier (name appIdentifier : StdString) : Bool :=
  match bms name with
  | none => false
  | some identifier => identifier == appIdentifier

/-- The loop over the entries, with the `appIdentifier` it leaves unless it returns. -/
def trustedIdentifier : List ConsumerProvider → StdString → Option StdString
  | [], appIdentifier => some appIdentifier
  | item :: items, appIdentifier =>
    if item.provider.name ≠ provider then trustedIdentifier items appIdentifier
    else if checkAppIdentifier bms item.provider.name item.provider.appIdentifier = false then none
    else
      match item.consumer.find? fun bundle => bundle.name == consumer with
      | some bundle => trustedIdentifier items bundle.appIdentifier
      | none => trustedIdentifier items appIdentifier

def isInExtensionTrusts (config : Option DataShareConfig) : Bool :=
  match config with
  | none => false
  | some config =>
    match trustedIdentifier bms consumer provider config.extensionObsTrusts [] with
    | none => false
    | some appIdentifier =>
      if consumer = provider then true else checkAppIdentifier bms consumer appIdentifier

/-! ## What the config lists -/

/-- Some entry of the provider lists the consumer with the identifier. -/
def ListedWith (items : List ConsumerProvider) (identifier : StdString) : Prop :=
  ∃ item ∈ items, item.provider.name = provider ∧
    ∃ bundle ∈ item.consumer, bundle.name = consumer ∧ bundle.appIdentifier = identifier

/-- Some entry of the provider lists the consumer. -/
def IsListed (items : List ConsumerProvider) : Prop :=
  ∃ identifier, ListedWith consumer provider items identifier

/-- The bundle manager knows the provider by the identifier of each of its entries. -/
def ProviderVerified (items : List ConsumerProvider) : Prop :=
  ∀ item ∈ items, item.provider.name = provider → bms provider = some item.provider.appIdentifier

/-- What makes a consumer a trusted one. -/
def Trusted (config : Option DataShareConfig) : Prop :=
  consumer = provider ∨ ∃ items identifier, config.map (·.extensionObsTrusts) = some items ∧
    ListedWith consumer provider items identifier ∧ bms consumer = some identifier

end Decision

section Loop

variable {bms : AppIdentifiers} {consumer provider : StdString}

theorem checkAppIdentifier_iff {name appIdentifier : StdString} :
    checkAppIdentifier bms name appIdentifier = true ↔ bms name = some appIdentifier := by
  unfold checkAppIdentifier
  cases bms name <;> simp

theorem listedWith_cons_of_ne {item : ConsumerProvider} {items : List ConsumerProvider}
    {identifier : StdString} (h : item.provider.name ≠ provider) :
    ListedWith consumer provider (item :: items) identifier ↔
      ListedWith consumer provider items identifier := by
  simp [ListedWith, h]

theorem ListedWith.tail {item : ConsumerProvider} {items : List ConsumerProvider}
    {identifier : StdString} (h : ListedWith consumer provider items identifier) :
    ListedWith consumer provider (item :: items) identifier := by
  obtain ⟨entry, hentry, hlisted⟩ := h
  exact ⟨entry, List.mem_cons_of_mem item hentry, hlisted⟩

/-- The loop returns at an entry whose provider is not the one the bundle manager knows. -/
theorem trustedIdentifier_isSome_iff : ∀ (items : List ConsumerProvider) (appIdentifier : StdString),
    (trustedIdentifier bms consumer provider items appIdentifier).isSome ↔
      ProviderVerified bms provider items
  | [], _ => by simp [trustedIdentifier, ProviderVerified]
  | item :: items, appIdentifier => by
    have ih := trustedIdentifier_isSome_iff items
    unfold ProviderVerified at ih ⊢
    rw [List.forall_mem_cons, trustedIdentifier]
    by_cases hname : item.provider.name = provider
    · subst hname
      rw [if_neg (not_not_intro rfl), ← checkAppIdentifier_iff]
      by_cases hcheck : checkAppIdentifier bms item.provider.name item.provider.appIdentifier = true
      · rw [hcheck, if_neg (by simp)]
        split <;> simp [ih]
      · rw [Bool.not_eq_true] at hcheck
        simp [hcheck]
    · simp [hname, ih]

/-- What the loop leaves is an identifier listed for the consumer, or what it started with
if there is none. -/
theorem trustedIdentifier_cases : ∀ {items : List ConsumerProvider} {first last : StdString},
    trustedIdentifier bms consumer provider items first = some last →
      ListedWith consumer provider items last ∨
        ¬IsListed consumer provider items ∧ last = first
  | [], first, last, h => by
    refine Or.inr ⟨?_, (Option.some.inj h).symm⟩
    rintro ⟨identifier, item, hitem, -⟩
    exact absurd hitem List.not_mem_nil
  | item :: items, first, last, h => by
    rw [trustedIdentifier] at h
    by_cases hname : item.provider.name = provider
    · rw [if_neg (not_not_intro hname)] at h
      split at h
      · cases h
      split at h
      · next bundle hfind =>
        have hbundle : ListedWith consumer provider (item :: items) bundle.appIdentifier :=
          ⟨item, List.mem_cons_self, hname, bundle, List.mem_of_find?_eq_some hfind,
            by simpa using List.find?_some hfind, rfl⟩
        rcases trustedIdentifier_cases h with hlisted | ⟨-, rfl⟩
        · exact Or.inl hlisted.tail
        · exact Or.inl hbundle
      · next hfind =>
        rcases trustedIdentifier_cases h with hlisted | ⟨hunlisted, rfl⟩
        · exact Or.inl hlisted.tail
        · refine Or.inr ⟨?_, rfl⟩
          rintro ⟨identifier, entry, hentry, hprovider, bundle, hbundle, hconsumer, hidentifier⟩
          rcases List.mem_cons.mp hentry with rfl | hentry
          · have hnone := List.find?_eq_none.mp hfind bundle hbundle
            simp [hconsumer] at hnone
          · exact hunlisted ⟨identifier, entry, hentry, hprovider, bundle, hbundle, hconsumer,
              hidentifier⟩
    · rw [if_pos hname] at h
      simp only [IsListed, listedWith_cons_of_ne hname]
      exact trustedIdentifier_cases h

end Loop

/-! ## Soundness -/

/-- The empty identifier of a consumer is taken for one that is listed. -/
theorem isInExtensionTrusts_of_unlisted {bms : AppIdentifiers} {consumer provider : StdString}
    {config : DataShareConfig} (hunlisted : ¬IsListed consumer provider config.extensionObsTrusts)
    (hverified : ProviderVerified bms provider config.extensionObsTrusts)
    (hempty : bms consumer = some []) :
    isInExtensionTrusts bms consumer provider (some config) = true := by
  have hsome : (trustedIdentifier bms consumer provider config.extensionObsTrusts []).isSome :=
    (trustedIdentifier_isSome_iff config.extensionObsTrusts []).mpr hverified
  obtain ⟨last, hlast⟩ := Option.isSome_iff_exists.mp hsome
  rcases trustedIdentifier_cases hlast with hlisted | ⟨-, rfl⟩
  · exact absurd ⟨last, hlisted⟩ hunlisted
  · have hcheck := checkAppIdentifier_iff.mpr hempty
    simp [isInExtensionTrusts, hlast, hcheck]

/-- Exactly when a positive answer is a right one. -/
theorem isInExtensionTrusts_sound_iff (bms : AppIdentifiers) (consumer provider : StdString)
    (config : Option DataShareConfig) :
    (isInExtensionTrusts bms consumer provider config = true →
        Trusted bms consumer provider config) ↔
      (bms consumer = some [] → ∀ items, config.map (·.extensionObsTrusts) = some items →
        ProviderVerified bms provider items →
          consumer = provider ∨ IsListed consumer provider items) := by
  rcases config with _ | config
  · simp [isInExtensionTrusts]
  constructor
  · rintro hsound hempty items hitems hverified
    obtain rfl : config.extensionObsTrusts = items := Option.some.inj hitems
    by_contra hneither
    obtain ⟨hne, hunlisted⟩ := not_or.mp hneither
    rcases hsound (isInExtensionTrusts_of_unlisted hunlisted hverified hempty) with
      heq | ⟨items, identifier, hitems, hlisted, -⟩
    · exact hne heq
    · obtain rfl : config.extensionObsTrusts = items := Option.some.inj hitems
      exact hunlisted ⟨identifier, hlisted⟩
  · intro hcond htrue
    by_cases hne : consumer = provider
    · exact Or.inl hne
    obtain ⟨last, hlast⟩ : ∃ last, trustedIdentifier bms consumer provider
        config.extensionObsTrusts [] = some last := by
      by_contra hnone
      have hnone := Option.eq_none_iff_forall_ne_some.mpr (not_exists.mp hnone)
      simp [isInExtensionTrusts, hnone] at htrue
    have hcheck : bms consumer = some last := by
      rw [← checkAppIdentifier_iff]
      simpa [isInExtensionTrusts, hlast, hne] using htrue
    have hlisted : ListedWith consumer provider config.extensionObsTrusts last := by
      rcases trustedIdentifier_cases hlast with hlisted | ⟨hunlisted, rfl⟩
      · exact hlisted
      · have hverified := (trustedIdentifier_isSome_iff config.extensionObsTrusts []).mp
          (Option.isSome_iff_exists.mpr ⟨_, hlast⟩)
        rcases hcond hcheck _ rfl hverified with heq | hlisted
        · exact absurd heq hne
        · exact absurd hlisted hunlisted
    exact Or.inr ⟨_, last, rfl, hlisted, hcheck⟩

/-- A config that lists no consumer for any provider trusts one without an identifier. -/
theorem isInExtensionTrusts_unsound :
    ¬∀ bms consumer provider config,
      isInExtensionTrusts bms consumer provider config = true →
        Trusted bms consumer provider config := by
  intro h
  rcases h (fun _ => some []) [1] [2] (some ⟨[]⟩) rfl with
    heq | ⟨items, identifier, hitems, ⟨item, hitem, -⟩, -⟩
  · exact absurd heq (by decide)
  · obtain rfl : [] = items := Option.some.inj hitems
    exact absurd hitem List.not_mem_nil

end Cpp

end DataShare
