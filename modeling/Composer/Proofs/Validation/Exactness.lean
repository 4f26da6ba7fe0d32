import Composer.Proofs.Validation.Judgement

/-!
Validation is exact. Although inclusions are judged from left to right, each by what the earlier ones
left, the host is clean just where `Host.Sound` holds, a condition in which no order occurs.
`Host.Admissible` is the same condition relative to claims that were made before; it follows the run.
-/

namespace Composer

def Registry.registeredAmong (registry : Registry) (inclusions : List Inclusion) : List Inclusion :=
  inclusions.filter fun inclusion => (registry.get? inclusion.component).isSome

namespace Host

variable (host : Host) (registry : Registry) (defaultLayout : Layout)

def nativeNames : List String := (host.storage.filter (·.isNative)).map (·.name)

/-- The names of members that hold a component, or want to, without being flat. -/
def nestedNames : List String :=
  (host.storage.filter fun member => !member.isNative && member.layout? ≠ some .flat).map (·.name)

structure Sound : Prop where
  members_distinct : (host.storage.map (·.name)).Nodup
  variants_distinct : (host.events.map (·.name)).Nodup
  components_known : ∀ inclusion ∈ host.inclusions,
    (registry.get? inclusion.component).isSome ∨ registry.isRejected inclusion.component
  storage_fields_distinct :
    ((registry.registeredAmong host.inclusions).map (·.storageField)).Nodup
  event_variants_distinct :
    ((registry.registeredAmong host.inclusions).map (·.eventVariant)).Nodup
  storage_held : ∀ inclusion ∈ registry.registeredAmong host.inclusions,
    ∃ member ∈ host.storage, member.name = inclusion.storageField ∧
      member.type = Component.storageTypeOf inclusion.component ∧
      ∃ layout, member.substorage = .layout layout
  events_nested : ∀ inclusion ∈ registry.registeredAmong host.inclusions,
    ∃ variant ∈ host.events, variant.name = inclusion.eventVariant ∧
      variant.payload = some (Component.eventTypeOf inclusion.component)
  root_names_distinct :
    (host.nativeNames ++ host.nestedNames ++
      (registry.registeredAmong host.inclusions).flatMap (host.flatNames registry)).Nodup

/-- The first member of its name holds the storage of an inclusion. -/
def HoldsStorage (inclusion : Inclusion) : Prop :=
  ∃ member, host.member? inclusion.storageField = some member ∧
    member.type = Component.storageTypeOf inclusion.component ∧
    ∃ layout, member.substorage = .layout layout

/-- The first variant of its name nests the events of an inclusion. -/
def NestsEvents (inclusion : Inclusion) : Prop :=
  ∃ variant, host.variant? inclusion.eventVariant = some variant ∧
    variant.payload = some (Component.eventTypeOf inclusion.component)

structure Admissible (claims : Claims) (inclusions : List Inclusion) : Prop where
  known : ∀ inclusion ∈ inclusions,
    (registry.get? inclusion.component).isSome ∨ registry.isRejected inclusion.component
  fields : Fresh claims.storageFields
    ((registry.registeredAmong inclusions).map (·.storageField))
  variants : Fresh claims.eventVariants
    ((registry.registeredAmong inclusions).map (·.eventVariant))
  held : ∀ inclusion ∈ registry.registeredAmong inclusions, host.HoldsStorage inclusion
  nested : ∀ inclusion ∈ registry.registeredAmong inclusions, host.NestsEvents inclusion
  names : Fresh claims.names
    ((registry.registeredAmong inclusions).flatMap (host.flatNames registry))

variable {host registry defaultLayout}

/-! ### One inclusion -/

theorem holds_storage_iff {inclusion : Inclusion} {component : Component}
    (found : registry.get? inclusion.component = some component) :
    host.HoldsStorage inclusion ↔
      ∃ layout, host.layoutFor? inclusion.storageField component = some layout := by
  have layoutOf : ∀ (member : HostMember) (layout : Layout),
      member.layout? = some layout ↔ member.substorage = .layout layout := by
    intro member layout
    rw [HostMember.layout?]
    cases member.substorage <;> simp [Substorage.layout?]
  simp only [layout_for_eq_some, Component.storageType, Registry.get_name found, layoutOf,
    HoldsStorage]
  constructor
  · intro holds
    rcases holds with ⟨member, first, typed, layout, held⟩
    exact ⟨layout, member, first, typed, held⟩
  · intro holds
    rcases holds with ⟨layout, member, first, typed, held⟩
    exact ⟨member, first, typed, layout, held⟩

theorem nests_events_iff {inclusion : Inclusion} {component : Component}
    (found : registry.get? inclusion.component = some component) :
    host.NestsEvents inclusion ↔
      (host.variant? inclusion.eventVariant).bind (·.payload) = some component.eventType := by
  simp only [NestsEvents, Option.bind_eq_some_iff, Component.eventType, Registry.get_name found]

theorem registered_among_cons_of_missing {inclusion : Inclusion}
    (missing : registry.get? inclusion.component = none) (rest : List Inclusion) :
    registry.registeredAmong (inclusion :: rest) = registry.registeredAmong rest := by
  simp [Registry.registeredAmong, missing]

theorem registered_among_cons_of_found {inclusion : Inclusion} {component : Component}
    (found : registry.get? inclusion.component = some component) (rest : List Inclusion) :
    registry.registeredAmong (inclusion :: rest) =
      inclusion :: registry.registeredAmong rest := by
  simp [Registry.registeredAmong, found]

theorem admissible_cons_of_missing {claims : Claims} {inclusion : Inclusion}
    (missing : registry.get? inclusion.component = none) (rest : List Inclusion) :
    host.Admissible registry claims (inclusion :: rest) ↔
      registry.isRejected inclusion.component ∧ host.Admissible registry claims rest := by
  have same := registered_among_cons_of_missing missing rest
  constructor
  · intro admissible
    rcases admissible with ⟨known, fields, variants, held, nested, names⟩
    rw [same] at fields variants held nested names
    have rejected := known inclusion List.mem_cons_self
    simp only [missing, Option.isSome_none, Bool.false_eq_true, false_or] at rejected
    exact ⟨rejected, fun other member => known other (List.mem_cons_of_mem _ member),
      fields, variants, held, nested, names⟩
  · intro admissible
    rcases admissible with ⟨rejected, known, fields, variants, held, nested, names⟩
    rw [← same] at fields variants held nested names
    exact ⟨List.forall_mem_cons.mpr ⟨.inr rejected, known⟩, fields, variants, held, nested, names⟩

theorem admissible_cons_of_found {claims : Claims} {inclusion : Inclusion} {component : Component}
    (found : registry.get? inclusion.component = some component)
    (distinct : (component.storage.map (·.name)).Nodup) (rest : List Inclusion) :
    host.Admissible registry claims (inclusion :: rest) ↔
      (host.storageFindings defaultLayout claims inclusion component = [] ∧
        host.eventFindings claims inclusion component = []) ∧
      host.Admissible registry (host.advance registry defaultLayout claims inclusion) rest := by
  have split := registered_among_cons_of_found found rest
  have flatDistinct : (host.flatNames registry inclusion).Nodup := by
    rw [flatNames, found]
    split
    · rename_i same _
      rwa [← Option.some.inj same]
    · exact List.nodup_nil
  constructor
  · intro admissible
    rcases admissible with ⟨known, fields, variants, held, nested, names⟩
    rw [split, List.map_cons, fresh_cons] at fields variants
    rw [split, List.flatMap_cons, fresh_append] at names
    rw [split, List.forall_mem_cons] at held nested
    have storageSound : host.storageFindings defaultLayout claims inclusion component = [] :=
      (storage_findings_eq_nil found).mpr
        ⟨fields.1, (holds_storage_iff found).mp held.1, names.1.2⟩
    have eventsSound : host.eventFindings claims inclusion component = [] :=
      event_findings_eq_nil.mpr ⟨variants.1, (nests_events_iff found).mp nested.1⟩
    refine ⟨⟨storageSound, eventsSound⟩, (List.forall_mem_cons.mp known).2, ?_, ?_,
      held.2, nested.2, ?_⟩
    · rw [advance_storage_fields found]
      exact fields.2
    · rw [advance_event_variants found]
      exact variants.2
    · rw [advance_names_of_sound found storageSound]
      exact names.2
  · intro admissible
    rcases admissible with
      ⟨⟨storageSound, eventsSound⟩, known, fields, variants, held, nested, names⟩
    rw [advance_storage_fields found] at fields
    rw [advance_event_variants found] at variants
    rw [advance_names_of_sound found storageSound] at names
    obtain ⟨unclaimed, holding, apart⟩ := (storage_findings_eq_nil found).mp storageSound
    obtain ⟨unclaimedVariant, nesting⟩ := event_findings_eq_nil.mp eventsSound
    refine ⟨List.forall_mem_cons.mpr ⟨.inl (by simp [found]), known⟩, ?_, ?_, ?_, ?_, ?_⟩
    · rw [split, List.map_cons, fresh_cons]
      exact ⟨unclaimed, fields⟩
    · rw [split, List.map_cons, fresh_cons]
      exact ⟨unclaimedVariant, variants⟩
    · rw [split, List.forall_mem_cons]
      exact ⟨(holds_storage_iff found).mpr holding, held⟩
    · rw [split, List.forall_mem_cons]
      exact ⟨(nests_events_iff found).mpr nesting, nested⟩
    · rw [split, List.flatMap_cons, fresh_append]
      exact ⟨⟨flatDistinct, apart⟩, names⟩

/-! ### All inclusions -/

theorem judge_clean_iff_admissible (reachable : registry.Reachable) (claims : Claims)
    (inclusions : List Inclusion) :
    (host.judge registry defaultLayout claims inclusions).flatMap (·.2) = [] ↔
      host.Admissible registry claims inclusions := by
  induction inclusions generalizing claims with
  | nil =>
      refine iff_of_true rfl ⟨by simp, fresh_nil _, fresh_nil _, ?_, ?_, fresh_nil _⟩ <;>
        simp [Registry.registeredAmong]
  | cons inclusion rest ih =>
      rw [judge_cons, List.flatMap_cons, List.append_eq_nil_iff, ih]
      cases found : registry.get? inclusion.component with
      | none =>
          rw [advance_unregistered found, judgement_clean_of_missing found,
            admissible_cons_of_missing found]
      | some component =>
          rw [judgement_clean_of_found found,
            admissible_cons_of_found found (reachable.fields_distinct found)]

/-! ### The host -/

theorem repeated_names_eq_nil :
    host.repeatedNames = [] ↔
      (host.storage.map (·.name)).Nodup ∧ (host.events.map (·.name)).Nodup := by
  simp only [repeatedNames, List.append_eq_nil_iff, List.map_eq_nil_iff, repeats_by_eq_nil]

theorem initial_names_iff (distinct : (host.storage.map (·.name)).Nodup) (name : String) :
    name ∈ host.initialClaims.names ↔ name ∈ host.nativeNames ++ host.nestedNames ++ [] := by
  have rooted : ∀ member : HostMember, (∃ owner, member.rootName? = some (name, owner)) ↔
      member.name = name ∧ (member.isNative ∨ ¬member.isNative ∧ member.layout? ≠ some .flat) := by
    intro member
    cases held : member.substorage with
    | native => simp [HostMember.rootName?, HostMember.isNative, held]
    | unknownVersion version =>
        simp [HostMember.rootName?, HostMember.isNative, HostMember.layout?, Substorage.layout?, held]
    | layout layout =>
        cases layout <;>
          simp [HostMember.rootName?, HostMember.isNative, HostMember.layout?,
            Substorage.layout?, held]
  have listed : name ∈ host.initialClaims.names ↔
      ∃ member ∈ host.storage, ∃ owner, member.rootName? = some (name, owner) := by
    simp only [Claims.names, initialClaims, rootNames, firsts_by_eq_self _ _ distinct,
      List.mem_map, List.mem_filterMap]
    constructor
    · intro standing
      rcases standing with ⟨⟨_, owner⟩, ⟨member, present, root⟩, rfl⟩
      exact ⟨member, present, owner, root⟩
    · intro standing
      rcases standing with ⟨member, present, owner, root⟩
      exact ⟨(name, owner), ⟨member, present, root⟩, rfl⟩
  simp only [listed, rooted, nativeNames, nestedNames, List.append_nil, List.mem_append,
    List.mem_map, List.mem_filter, Bool.and_eq_true, Bool.not_eq_true', decide_eq_true_eq,
    Bool.not_eq_true]
  constructor
  · intro standing
    rcases standing with ⟨member, present, named, native | other⟩
    · exact .inl ⟨member, ⟨present, native⟩, named⟩
    · exact .inr ⟨member, ⟨present, other⟩, named⟩
  · intro standing
    rcases standing with ⟨member, ⟨present, native⟩, named⟩ | ⟨member, ⟨present, other⟩, named⟩
    · exact ⟨member, present, named, .inl native⟩
    · exact ⟨member, present, named, .inr other⟩

theorem unflattened_names_distinct (distinct : (host.storage.map (·.name)).Nodup) :
    (host.nativeNames ++ host.nestedNames).Nodup := by
  refine List.nodup_append'.mpr ⟨?_, ?_, ?_⟩
  · exact distinct.sublist (List.filter_sublist.map _)
  · exact distinct.sublist (List.filter_sublist.map _)
  · intro name native nested
    rcases List.mem_map.mp native with ⟨first, firstKept, rfl⟩
    rcases List.mem_map.mp nested with ⟨second, secondKept, same⟩
    rcases List.mem_filter.mp firstKept with ⟨firstPresent, isNative⟩
    rcases List.mem_filter.mp secondKept with ⟨secondPresent, notNative⟩
    have equal := List.inj_on_of_nodup_map distinct secondPresent firstPresent same
    simp [equal, isNative] at notNative

/-- On a host whose names differ, soundness is admissibility of all inclusions from the start. -/
theorem sound_iff_admissible (members : (host.storage.map (·.name)).Nodup)
    (variants : (host.events.map (·.name)).Nodup) :
    host.Sound registry ↔ host.Admissible registry host.initialClaims host.inclusions := by
  have firstMember := find_eq_some_iff_of_distinct HostMember.name members
  have firstVariant := find_eq_some_iff_of_distinct EventVariant.name variants
  have rootNames : (host.nativeNames ++ host.nestedNames ++
        (registry.registeredAmong host.inclusions).flatMap (host.flatNames registry)).Nodup ↔
      Fresh host.initialClaims.names
        ((registry.registeredAmong host.inclusions).flatMap (host.flatNames registry)) := by
    rw [fresh_congr (initial_names_iff members), ← fresh_untaken, fresh_append, fresh_untaken]
    exact and_iff_right (unflattened_names_distinct members)
  constructor
  · intro sound
    refine ⟨sound.components_known, (fresh_untaken _).mpr sound.storage_fields_distinct,
      (fresh_untaken _).mpr sound.event_variants_distinct, ?_, ?_,
      rootNames.mp sound.root_names_distinct⟩
    · intro inclusion registered
      obtain ⟨member, present, named, held⟩ := sound.storage_held inclusion registered
      exact ⟨member, (firstMember _ _).mpr ⟨present, named⟩, held⟩
    · intro inclusion registered
      obtain ⟨variant, present, named, payload⟩ := sound.events_nested inclusion registered
      exact ⟨variant, (firstVariant _ _).mpr ⟨present, named⟩, payload⟩
  · intro admissible
    rcases admissible with ⟨known, fields, eventVariants, held, nested, names⟩
    refine ⟨members, variants, known, (fresh_untaken _).mp fields,
      (fresh_untaken _).mp eventVariants, ?_, ?_, rootNames.mpr names⟩
    · intro inclusion registered
      obtain ⟨member, first, holding⟩ := held inclusion registered
      obtain ⟨present, named⟩ := (firstMember _ _).mp first
      exact ⟨member, present, named, holding⟩
    · intro inclusion registered
      obtain ⟨variant, first, payload⟩ := nested inclusion registered
      obtain ⟨present, named⟩ := (firstVariant _ _).mp first
      exact ⟨variant, present, named, payload⟩

theorem clean_iff_sound (reachable : registry.Reachable) :
    (host.validate registry defaultLayout).diagnostics = [] ↔ host.Sound registry := by
  rw [validate, List.append_eq_nil_iff, repeated_names_eq_nil,
    judge_clean_iff_admissible reachable]
  constructor
  · intro clean
    rcases clean with ⟨⟨members, variants⟩, admissible⟩
    exact (sound_iff_admissible members variants).mpr admissible
  · intro sound
    exact ⟨⟨sound.members_distinct, sound.variants_distinct⟩,
      (sound_iff_admissible sound.members_distinct sound.variants_distinct).mp sound⟩

/-! ### Order -/

theorem Sound.perm {other : Host} (sound : host.Sound registry)
    (storage : host.storage.Perm other.storage) (events : host.events.Perm other.events)
    (inclusions : host.inclusions.Perm other.inclusions) : other.Sound registry := by
  have registered : (registry.registeredAmong host.inclusions).Perm
      (registry.registeredAmong other.inclusions) := inclusions.filter _
  have sameMember : ∀ name, host.member? name = other.member? name :=
    find_perm_of_distinct HostMember.name storage sound.members_distinct
  have sameNames : host.flatNames registry = other.flatNames registry := by
    funext inclusion
    simp only [flatNames, sameMember]
  constructor
  · exact (storage.map _).nodup_iff.mp sound.members_distinct
  · exact (events.map _).nodup_iff.mp sound.variants_distinct
  · intro inclusion member
    exact sound.components_known inclusion (inclusions.mem_iff.mpr member)
  · exact (registered.map _).nodup_iff.mp sound.storage_fields_distinct
  · exact (registered.map _).nodup_iff.mp sound.event_variants_distinct
  · intro inclusion member
    obtain ⟨holder, present, held⟩ :=
      sound.storage_held inclusion (registered.mem_iff.mpr member)
    exact ⟨holder, storage.mem_iff.mp present, held⟩
  · intro inclusion member
    obtain ⟨variant, present, nested⟩ :=
      sound.events_nested inclusion (registered.mem_iff.mpr member)
    exact ⟨variant, events.mem_iff.mp present, nested⟩
  · have roots := sound.root_names_distinct
    rw [sameNames] at roots
    refine (List.Perm.append (List.Perm.append ?_ ?_) ?_).nodup_iff.mp roots
    · exact (storage.filter _).map _
    · exact (storage.filter _).map _
    · exact registered.flatMap_right _

/-- Validation under any default layout finds nothing just where the host is sound, so neither the
order of members, nor that of variants, nor that of inclusions decides whether it does. -/
theorem validate_clean_iff_sound (reachable : registry.Reachable) (host : Host)
    (defaultLayout : Layout) :
    ((host.validate registry defaultLayout).diagnostics = [] ↔ host.Sound registry) ∧
      ∀ (other : Host) (otherLayout : Layout), other.storage.Perm host.storage →
        other.events.Perm host.events → other.inclusions.Perm host.inclusions →
        ((other.validate registry otherLayout).diagnostics = [] ↔
          (host.validate registry defaultLayout).diagnostics = []) := by
  refine ⟨clean_iff_sound reachable, ?_⟩
  intro other otherLayout storage events inclusions
  rw [clean_iff_sound reachable, clean_iff_sound reachable]
  constructor
  · intro sound
    exact sound.perm storage events inclusions
  · intro sound
    exact sound.perm storage.symm events.symm inclusions.symm

theorem counter_host_clean_in_any_order :
    counterRegistry.Reachable ∧ counterHost.Sound counterRegistry ∧
      ({ counterHost with
        storage := counterHost.storage.reverse
        inclusions := counterHost.inclusions.reverse }.validate
          counterRegistry .nested).diagnostics = [] := by
  have clean : (counterHost.validate counterRegistry .flat).diagnostics = [] := by
    decide +kernel
  obtain ⟨exact, unordered⟩ :=
    validate_clean_iff_sound counter_registry_reachable counterHost .flat
  refine ⟨counter_registry_reachable, exact.mp clean, (unordered _ _ ?_ ?_ ?_).mpr clean⟩
  · exact List.reverse_perm _
  · exact List.Perm.refl _
  · exact List.reverse_perm _

end Host

end Composer
