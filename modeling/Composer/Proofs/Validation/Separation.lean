import Composer.Proofs.Validation.Judgement

/-!
Accepted inclusions share nothing. Whatever else is wrong with a host, no two inclusions for which
something may be generated use one storage member, no name stands twice at the storage root through
them, and no two fully valid ones nest their events under one variant.
-/

namespace Composer

theorem Inclusion.accessor_name_inj {first second : Inclusion} :
    first.accessorName = second.accessorName ↔ first.storageField = second.storageField := by
  unfold accessorName accessorNameOf
  exact String.append_right_inj _

theorem HostMember.root_name_of_not_flat (member : HostMember)
    (notFlat : member.substorage ≠ .layout .flat) :
    ∃ owner, member.rootName? = some (member.name, owner) := by
  rw [rootName?]
  cases held : member.substorage with
  | native => exact ⟨.host, rfl⟩
  | unknownVersion version => exact ⟨.member member.name, rfl⟩
  | layout layout =>
      cases layout with
      | flat => exact absurd held notFlat
      | nested => exact ⟨.member member.name, rfl⟩

namespace Host

variable (host : Host) (registry : Registry) (defaultLayout : Layout)

def StorageUnclaimed (claims : Claims) (inclusion : Inclusion) : Prop :=
  inclusion.storageField ∉ claims.storageFields ∧
    ∀ name ∈ host.flatNames registry inclusion, name ∉ claims.names

def StorageApart (first second : Inclusion) : Prop :=
  first.storageField ≠ second.storageField ∧
    (host.flatNames registry first).Disjoint (host.flatNames registry second)

variable {host registry defaultLayout}

theorem accepted_storage_unclaimed {claims : Claims} {inclusion : Inclusion}
    (accepted : (host.judgement registry defaultLayout claims inclusion).1 ≠ .invalid) :
    host.StorageUnclaimed registry claims inclusion := by
  obtain ⟨component, found, sound⟩ := judgement_accepted.mp accepted
  obtain ⟨unclaimed, _, apart⟩ := (storage_findings_eq_nil found).mp sound
  exact ⟨unclaimed, apart⟩

theorem storage_unclaimed_weaken {claims : Claims} {inclusion later : Inclusion}
    (unclaimed : host.StorageUnclaimed registry
      (host.advance registry defaultLayout claims inclusion) later) :
    host.StorageUnclaimed registry claims later := by
  obtain ⟨fields, _, names⟩ :=
    advance_grows host registry defaultLayout claims inclusion
  exact ⟨fun claimed => unclaimed.1 (fields claimed),
    fun name member claimed => unclaimed.2 name member (names claimed)⟩

theorem accepted_storage_apart {claims : Claims} {inclusion later : Inclusion}
    (accepted : (host.judgement registry defaultLayout claims inclusion).1 ≠ .invalid)
    (unclaimed : host.StorageUnclaimed registry
      (host.advance registry defaultLayout claims inclusion) later) :
    host.StorageApart registry inclusion later := by
  obtain ⟨component, found, sound⟩ := judgement_accepted.mp accepted
  rcases unclaimed with ⟨fieldUnclaimed, namesUnclaimed⟩
  rw [advance_storage_fields found] at fieldUnclaimed
  rw [advance_names_of_sound found sound] at namesUnclaimed
  constructor
  · intro same
    exact fieldUnclaimed (same ▸ List.mem_cons_self)
  · intro name own other
    exact namesUnclaimed name other (List.mem_append_left _ own)

theorem valid_event_unclaimed {claims : Claims} {inclusion : Inclusion}
    (valid : (host.judgement registry defaultLayout claims inclusion).1 = .valid) :
    inclusion.eventVariant ∉ claims.eventVariants := by
  obtain ⟨component, _, _, sound⟩ := judgement_valid.mp valid
  exact (event_findings_eq_nil.mp sound).1

theorem valid_event_apart {claims : Claims} {inclusion later : Inclusion}
    (valid : (host.judgement registry defaultLayout claims inclusion).1 = .valid)
    (unclaimed : later.eventVariant ∉
      (host.advance registry defaultLayout claims inclusion).eventVariants) :
    inclusion.eventVariant ≠ later.eventVariant := by
  obtain ⟨component, found, _⟩ := judgement_valid.mp valid
  rw [advance_event_variants found] at unclaimed
  intro same
  exact unclaimed (same ▸ List.mem_cons_self)

/-- Every first member of a name takes that name at the storage root, unless it is flat. -/
theorem root_names_of_member {name : String} {member : HostMember}
    (first : host.member? name = some member) (notFlat : member.substorage ≠ .layout .flat) :
    name ∈ host.initialClaims.names := by
  have kept : member ∈ firstsBy (·.name) host.storage := mem_firsts_by_of_find _ _ _ first
  have named : member.name = name := by simpa using List.find?_some first
  obtain ⟨owner, rooted⟩ := member.root_name_of_not_flat notFlat
  exact List.mem_map.mpr ⟨(member.name, owner), List.mem_filterMap.mpr ⟨member, kept, rooted⟩, named⟩

variable (host registry defaultLayout)

theorem accepted_registered :
    ∀ inclusion ∈ host.accepted registry defaultLayout,
      (registry.get? inclusion.component).isSome := by
  intro inclusion member
  rcases List.mem_map.mp member with ⟨pair, chosen, rfl⟩
  rcases List.mem_filter.mp chosen with ⟨present, accepted⟩
  obtain ⟨component, _, found, _⟩ :=
    host.judged_accepted registry defaultLayout pair present (of_decide_eq_true accepted)
  rw [found]
  rfl

theorem accepted_storage_separate :
    (∀ inclusion ∈ host.accepted registry defaultLayout,
      host.StorageUnclaimed registry host.initialClaims inclusion) ∧
      (host.accepted registry defaultLayout).Pairwise (host.StorageApart registry) :=
  judged_as_pairwise host registry defaultLayout (· ≠ .invalid)
    (host.StorageUnclaimed registry) (host.StorageApart registry)
    (fun _ _ accepted => accepted_storage_unclaimed (of_decide_eq_true accepted))
    (fun _ _ _ => storage_unclaimed_weaken)
    (fun _ _ _ accepted => accepted_storage_apart (of_decide_eq_true accepted))
    host.initialClaims host.inclusions

theorem valid_events_separate :
    (host.fullyValid registry defaultLayout).Pairwise (·.eventVariant ≠ ·.eventVariant) := by
  refine (judged_as_pairwise host registry defaultLayout (· = .valid)
    (fun claims inclusion => inclusion.eventVariant ∉ claims.eventVariants)
    (·.eventVariant ≠ ·.eventVariant) ?_ ?_ ?_ host.initialClaims host.inclusions).2
  · intro claims inclusion valid
    exact valid_event_unclaimed (of_decide_eq_true valid)
  · intro claims inclusion later unclaimed claimed
    exact unclaimed ((advance_grows host registry defaultLayout claims inclusion).2.1 claimed)
  · intro claims inclusion later valid
    exact valid_event_apart (of_decide_eq_true valid)

/-- Accepted inclusions of any host, sound or not, are of registered components and share no state:
neither a storage member, nor an accessor name, nor a name at the storage root, nor such a name with
a member that is not flat. Fully valid ones share no event variant either. -/
theorem accepted_inclusions_share_nothing :
    (host.validate registry defaultLayout).verdicts.length = host.inclusions.length ∧
      (∀ inclusion ∈ host.accepted registry defaultLayout,
        (registry.get? inclusion.component).isSome) ∧
      ((host.accepted registry defaultLayout).map (·.storageField)).Nodup ∧
      ((host.accepted registry defaultLayout).map (·.accessorName)).Nodup ∧
      (host.accepted registry defaultLayout).Pairwise (fun first second =>
        (host.flatNames registry first).Disjoint (host.flatNames registry second)) ∧
      (∀ inclusion ∈ host.accepted registry defaultLayout, ∀ name member,
        host.member? name = some member → member.substorage ≠ .layout .flat →
          name ∉ host.flatNames registry inclusion) ∧
      ((host.fullyValid registry defaultLayout).map (·.eventVariant)).Nodup := by
  obtain ⟨unclaimed, separate⟩ := host.accepted_storage_separate registry defaultLayout
  refine ⟨host.validate_verdicts_length registry defaultLayout,
    host.accepted_registered registry defaultLayout, ?_, ?_, ?_, ?_, ?_⟩
  · exact List.pairwise_map.mpr (separate.imp fun apart => apart.1)
  · refine List.pairwise_map.mpr (separate.imp fun apart => ?_)
    exact fun same => apart.1 (Inclusion.accessor_name_inj.mp same)
  · exact separate.imp fun apart => apart.2
  · intro inclusion accepted name member first notFlat flat
    exact (unclaimed inclusion accepted).2 name flat (root_names_of_member first notFlat)
  · exact List.pairwise_map.mpr (host.valid_events_separate registry defaultLayout)

end Host

end Composer
