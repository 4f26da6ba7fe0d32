import Composer.Proofs.Validation.Exactness
import Composer.Proofs.Validation.Separation

/-!
Verdicts and diagnostics agree, inclusion by inclusion. `Host.Fits` says what is found against an
inclusion, and which verdict it gets, by the inclusions before it and what was found against their
storage; no claims occur in it. `Host.Reflects` ties the claims of the run to these inclusions.
-/

namespace Composer

structure JudgedInclusion where
  inclusion : Inclusion
  storage : List Diagnostic
  events : List Diagnostic
  verdict : Verdict
deriving DecidableEq, Repr

namespace Host

variable (host : Host) (registry : Registry) (defaultLayout : Layout)

/-! ### What is to be found -/

/-- An earlier inclusion of a registered component has the name as its key. -/
def Used (key : Inclusion → String) (earlier : List JudgedInclusion) (name : String) : Prop :=
  ∃ entry ∈ earlier, (registry.get? entry.inclusion.component).isSome ∧
    key entry.inclusion = name

/-- The first member of its name holds the storage of an inclusion in the given layout. -/
def HoldsIn (layout : Layout) (inclusion : Inclusion) : Prop :=
  ∃ member, host.member? inclusion.storageField = some member ∧
    member.type = Component.storageTypeOf inclusion.component ∧ member.substorage = .layout layout

/-- Who holds a name at the storage root: a member that is not flat, or an earlier flat inclusion
against whose storage nothing was found. -/
inductive Occupies (earlier : List JudgedInclusion) (name : String) : NameOwner → Prop
  | native {member : HostMember} : host.member? name = some member →
      member.substorage = .native → Occupies earlier name .host
  | nested {member : HostMember} : host.member? name = some member →
      member.substorage = .layout .nested → Occupies earlier name (.member name)
  | unknownVersion {member : HostMember} {version : String} : host.member? name = some member →
      member.substorage = .unknownVersion version → Occupies earlier name (.member name)
  | flat {entry : JudgedInclusion} {component : Component} {field : StorageField} :
      entry ∈ earlier → registry.get? entry.inclusion.component = some component →
      host.HoldsIn .flat entry.inclusion → entry.storage = [] → field ∈ component.storage →
      field.name = name →
        Occupies earlier name (.inclusion component.name entry.inclusion.storageField)

/-- A collision for each field whose name is held already, in order, and none for the others. -/
inductive Collides (earlier : List JudgedInclusion) (inclusion : Inclusion)
    (component : Component) : List StorageField → List Diagnostic → Prop
  | nil : Collides earlier inclusion component [] []
  | free {field : StorageField} {rest : List StorageField} {found : List Diagnostic} :
      (∀ owner, ¬host.Occupies registry earlier field.name owner) →
      Collides earlier inclusion component rest found →
        Collides earlier inclusion component (field :: rest) found
  | taken {field : StorageField} {owner : NameOwner} {rest : List StorageField}
      {found : List Diagnostic} :
      host.Occupies registry earlier field.name owner →
      Collides earlier inclusion component rest found →
        Collides earlier inclusion component (field :: rest)
          (.storageCollision host.name component.name field.name owner.text inclusion.span :: found)

inductive StorageFits (earlier : List JudgedInclusion) (inclusion : Inclusion)
    (component : Component) : List Diagnostic → Prop
  | aliased : Used registry (·.storageField) earlier inclusion.storageField →
      StorageFits earlier inclusion component
        [.aliasedSubstorage host.name component.name inclusion.storageField inclusion.span]
  | missing : ¬Used registry (·.storageField) earlier inclusion.storageField →
      (∀ layout, ¬host.HoldsIn layout inclusion) →
        StorageFits earlier inclusion component
          [.missingSubstorageMember host.name component.name inclusion.storageField
            (inclusion.storageDeclaration component defaultLayout) inclusion.span]
  | flat {found : List Diagnostic} :
      ¬Used registry (·.storageField) earlier inclusion.storageField →
      host.HoldsIn .flat inclusion →
      host.Collides registry earlier inclusion component component.storage found →
        StorageFits earlier inclusion component found
  | nested : ¬Used registry (·.storageField) earlier inclusion.storageField →
      host.HoldsIn .nested inclusion → StorageFits earlier inclusion component []

inductive EventsFit (earlier : List JudgedInclusion) (inclusion : Inclusion)
    (component : Component) : List Diagnostic → Prop
  | repeated : Used registry (·.eventVariant) earlier inclusion.eventVariant →
      EventsFit earlier inclusion component
        [.duplicateEventBinding host.name component.name inclusion.eventVariant inclusion.span]
  | missing : ¬Used registry (·.eventVariant) earlier inclusion.eventVariant →
      ¬host.NestsEvents inclusion →
        EventsFit earlier inclusion component
          [.missingNestedEvent host.name component.name inclusion.eventVariant
            (inclusion.eventDeclaration component) inclusion.span]
  | nested : ¬Used registry (·.eventVariant) earlier inclusion.eventVariant →
      host.NestsEvents inclusion → EventsFit earlier inclusion component []

/-- Findings against the storage cost everything, findings against the events alone the wrappers. -/
inductive VerdictFits : List Diagnostic → List Diagnostic → Verdict → Prop
  | invalid {storage events : List Diagnostic} : storage ≠ [] → VerdictFits storage events .invalid
  | accessorOnly {events : List Diagnostic} : events ≠ [] → VerdictFits [] events .accessorOnly
  | valid : VerdictFits [] [] .valid

inductive Fits (earlier : List JudgedInclusion) : JudgedInclusion → Prop
  | rejected {inclusion : Inclusion} : registry.get? inclusion.component = none →
      registry.isRejected inclusion.component = true →
        Fits earlier ⟨inclusion, [], [], .invalid⟩
  | unknown {inclusion : Inclusion} : registry.get? inclusion.component = none →
      registry.isRejected inclusion.component = false →
        Fits earlier ⟨inclusion,
          [.unknownComponent host.name inclusion.component inclusion.span], [], .invalid⟩
  | registered {inclusion : Inclusion} {component : Component} {storage events : List Diagnostic}
      {verdict : Verdict} : registry.get? inclusion.component = some component →
      registry.isRejected inclusion.component = false →
      host.StorageFits registry defaultLayout earlier inclusion component storage →
      host.EventsFit registry earlier inclusion component events →
      VerdictFits storage events verdict → Fits earlier ⟨inclusion, storage, events, verdict⟩

/-! ### The run -/

def entry (claims : Claims) (inclusion : Inclusion) : JudgedInclusion :=
  match registry.get? inclusion.component with
  | none =>
      ⟨inclusion, if registry.isRejected inclusion.component then []
        else [.unknownComponent host.name inclusion.component inclusion.span], [], .invalid⟩
  | some component =>
      let storage := host.storageFindings defaultLayout claims inclusion component
      let events := host.eventFindings claims inclusion component
      ⟨inclusion, storage, events, .ofFindings storage events⟩

def entries (claims : Claims) : List Inclusion → List JudgedInclusion
  | [] => []
  | inclusion :: rest =>
      host.entry registry defaultLayout claims inclusion ::
        entries (host.advance registry defaultLayout claims inclusion) rest

theorem entry_inclusion (claims : Claims) (inclusion : Inclusion) :
    (host.entry registry defaultLayout claims inclusion).inclusion = inclusion := by
  rw [entry]
  cases registry.get? inclusion.component <;> rfl

theorem judgement_eq_entry (claims : Claims) (inclusion : Inclusion) :
    host.judgement registry defaultLayout claims inclusion =
      ((host.entry registry defaultLayout claims inclusion).verdict,
        (host.entry registry defaultLayout claims inclusion).storage ++
          (host.entry registry defaultLayout claims inclusion).events) := by
  rw [judgement, entry]
  cases registry.get? inclusion.component with
  | none => simp only [List.append_nil]
  | some component => rfl

theorem judge_eq_entries (claims : Claims) (inclusions : List Inclusion) :
    host.judge registry defaultLayout claims inclusions =
      (host.entries registry defaultLayout claims inclusions).map fun entry =>
        (entry.verdict, entry.storage ++ entry.events) := by
  induction inclusions generalizing claims with
  | nil => rfl
  | cons inclusion rest ih => rw [judge_cons, judgement_eq_entry, ih, entries, List.map_cons]

theorem entries_inclusions (claims : Claims) (inclusions : List Inclusion) :
    (host.entries registry defaultLayout claims inclusions).map (·.inclusion) = inclusions := by
  induction inclusions generalizing claims with
  | nil => rfl
  | cons inclusion rest ih => rw [entries, List.map_cons, entry_inclusion, ih]

/-- The claims are those that earlier inclusions and the members of the host make. -/
structure Reflects (claims : Claims) (earlier : List JudgedInclusion) : Prop where
  storageFields : ∀ name, name ∈ claims.storageFields ↔ Used registry (·.storageField) earlier name
  eventVariants : ∀ name, name ∈ claims.eventVariants ↔ Used registry (·.eventVariant) earlier name
  held : ∀ root ∈ claims.rootNames, host.Occupies registry earlier root.1 root.2
  complete : ∀ name owner, host.Occupies registry earlier name owner → name ∈ claims.names

variable {host registry defaultLayout} {claims : Claims} {earlier : List JudgedInclusion}

/-! ### One inclusion -/

theorem layout_for_iff_holds_in {inclusion : Inclusion} {component : Component}
    (found : registry.get? inclusion.component = some component) (layout : Layout) :
    host.layoutFor? inclusion.storageField component = some layout ↔
      host.HoldsIn layout inclusion := by
  have layoutOf : ∀ member : HostMember,
      member.layout? = some layout ↔ member.substorage = .layout layout := by
    intro member
    rw [HostMember.layout?]
    cases member.substorage <;> simp [Substorage.layout?]
  simp only [layout_for_eq_some, Component.storageType, Registry.get_name found, layoutOf, HoldsIn]

theorem Reflects.collides (reflects : host.Reflects registry claims earlier)
    (inclusion : Inclusion) (component : Component) :
    host.Collides registry earlier inclusion component component.storage
      (host.collisions claims.rootNames inclusion component) := by
  rw [collisions]
  -- The fields are gone through one by one; the component stays the one that is included.
  generalize component.storage = fields
  induction fields with
  | nil => exact .nil
  | cons field rest ih =>
      rw [List.filterMap_cons]
      cases standing : claims.rootNames.lookup field.name with
      | none =>
          refine .free ?_ ih
          intro owner occupied
          exact (NameOwner.lookup_eq_none _ _).mp standing (reflects.complete _ _ occupied)
      | some owner =>
          obtain ⟨before, after, split, _⟩ := List.lookup_eq_some_iff.mp standing
          have member : (field.name, owner) ∈ claims.rootNames := by
            rw [split]
            exact List.mem_append_right _ List.mem_cons_self
          exact .taken (reflects.held _ member) ih

theorem Reflects.storage_fits (reflects : host.Reflects registry claims earlier)
    {inclusion : Inclusion} {component : Component}
    (found : registry.get? inclusion.component = some component) :
    host.StorageFits registry defaultLayout earlier inclusion component
      (host.storageFindings defaultLayout claims inclusion component) := by
  rw [storageFindings]
  by_cases claimed : inclusion.storageField ∈ claims.storageFields
  · rw [if_pos claimed]
    exact .aliased ((reflects.storageFields _).mp claimed)
  · have unused := mt (reflects.storageFields _).mpr claimed
    rw [if_neg claimed]
    cases layout : host.layoutFor? inclusion.storageField component with
    | none =>
        refine .missing unused ?_
        intro other holds
        rw [(layout_for_iff_holds_in found other).mpr holds] at layout
        cases layout
    | some layoutOf =>
        have holds := (layout_for_iff_holds_in found layoutOf).mp layout
        cases layoutOf with
        | flat => exact .flat unused holds (reflects.collides inclusion component)
        | nested => exact .nested unused holds

theorem Reflects.events_fit (reflects : host.Reflects registry claims earlier)
    {inclusion : Inclusion} {component : Component}
    (found : registry.get? inclusion.component = some component) :
    host.EventsFit registry earlier inclusion component
      (host.eventFindings claims inclusion component) := by
  rw [eventFindings]
  by_cases claimed : inclusion.eventVariant ∈ claims.eventVariants
  · rw [if_pos claimed]
    exact .repeated ((reflects.eventVariants _).mp claimed)
  · have unused := mt (reflects.eventVariants _).mpr claimed
    have nests : host.NestsEvents inclusion ↔ _ := nests_events_iff found
    rw [if_neg claimed]
    split
    · next payload => exact .nested unused (nests.mpr payload)
    · next payload => exact .missing unused (mt nests.mp payload)

theorem verdict_fits (storage events : List Diagnostic) :
    VerdictFits storage events (.ofFindings storage events) := by
  cases storage with
  | cons first others => exact .invalid (List.cons_ne_nil _ _)
  | nil =>
      cases events with
      | cons first others => exact .accessorOnly (List.cons_ne_nil _ _)
      | nil => exact .valid

theorem Reflects.fits (reachable : registry.Reachable)
    (reflects : host.Reflects registry claims earlier) (inclusion : Inclusion) :
    host.Fits registry defaultLayout earlier
      (host.entry registry defaultLayout claims inclusion) := by
  rw [entry]
  cases found : registry.get? inclusion.component with
  | none =>
      cases rejected : registry.isRejected inclusion.component with
      | true => exact .rejected found rejected
      | false => exact .unknown found rejected
  | some component =>
      have accepted := reachable.not_rejected (Option.isSome_of_mem found)
      exact .registered found accepted (reflects.storage_fits found) (reflects.events_fit found)
        (verdict_fits _ _)

/-! ### From one inclusion to the next -/

theorem Occupies.weaken {name : String} {owner : NameOwner}
    (occupied : host.Occupies registry earlier name owner) (later : JudgedInclusion) :
    host.Occupies registry (earlier ++ [later]) name owner := by
  cases occupied with
  | native first native => exact .native first native
  | nested first nested => exact .nested first nested
  | unknownVersion first unknown => exact .unknownVersion first unknown
  | flat member found holds clean field named =>
      exact .flat (List.mem_append_left _ member) found holds clean field named

theorem used_append (key : Inclusion → String) (later : JudgedInclusion) (name : String) :
    Used registry key (earlier ++ [later]) name ↔ Used registry key earlier name ∨
      (registry.get? later.inclusion.component).isSome ∧ key later.inclusion = name := by
  simp only [Used, List.mem_append, List.mem_singleton, or_and_right, exists_or, exists_eq_left]

theorem occupies_append_of_missing {later : JudgedInclusion}
    (missing : registry.get? later.inclusion.component = none) {name : String} {owner : NameOwner}
    (occupied : host.Occupies registry (earlier ++ [later]) name owner) :
    host.Occupies registry earlier name owner := by
  cases occupied with
  | native first native => exact .native first native
  | nested first nested => exact .nested first nested
  | unknownVersion first unknown => exact .unknownVersion first unknown
  | flat member found holds clean field named =>
      rcases List.mem_append.mp member with before | last
      · exact .flat before found holds clean field named
      · rw [List.mem_singleton.mp last, missing] at found
        cases found

/-- A registered inclusion holds the names of its fields where it is flat and sound. -/
theorem occupies_append_of_found {later : JudgedInclusion} {component : Component}
    (found : registry.get? later.inclusion.component = some component) {name : String}
    {owner : NameOwner} (occupied : host.Occupies registry (earlier ++ [later]) name owner) :
    host.Occupies registry earlier name owner ∨
      later.storage = [] ∧ name ∈ host.flatNames registry later.inclusion := by
  cases occupied with
  | native first native => exact .inl (.native first native)
  | nested first nested => exact .inl (.nested first nested)
  | unknownVersion first unknown => exact .inl (.unknownVersion first unknown)
  | flat member registered holds clean field named =>
      rcases List.mem_append.mp member with before | last
      · exact .inl (.flat before registered holds clean field named)
      · rw [List.mem_singleton.mp last] at registered holds clean
        rw [found] at registered
        cases registered
        have held := (layout_for_iff_holds_in found .flat).mpr holds
        refine .inr ⟨clean, ?_⟩
        rw [flat_names_of_layout found held, if_pos rfl, ← named]
        exact List.mem_map_of_mem field

theorem occupies_of_added {later : JudgedInclusion} {component : Component}
    (found : registry.get? later.inclusion.component = some component) (clean : later.storage = [])
    {root : String × NameOwner} (added : root ∈ host.addedRootNames later.inclusion component) :
    host.Occupies registry (earlier ++ [later]) root.1 root.2 := by
  rw [addedRootNames] at added
  split at added
  · next layout =>
      rcases List.mem_map.mp added with ⟨field, present, rfl⟩
      have holds := (layout_for_iff_holds_in found .flat).mp layout
      exact .flat (List.mem_append_right _ List.mem_cons_self) found holds clean present rfl
  · cases added

/-- An inclusion of no registered component claims nothing. -/
theorem Reflects.behind_missing (reflects : host.Reflects registry claims earlier)
    {later : JudgedInclusion} (missing : registry.get? later.inclusion.component = none) :
    host.Reflects registry (host.advance registry defaultLayout claims later.inclusion)
      (earlier ++ [later]) := by
  have used : ∀ (key : Inclusion → String) (name : String),
      Used registry key (earlier ++ [later]) name ↔ Used registry key earlier name := by
    intro key name
    rw [used_append, missing]
    simp only [Option.isSome_none, Bool.false_eq_true, false_and, or_false]
  rw [advance_unregistered missing]
  constructor
  · intro name
    rw [used]
    exact reflects.storageFields name
  · intro name
    rw [used]
    exact reflects.eventVariants name
  · intro root member
    exact (reflects.held root member).weaken later
  · intro name owner occupied
    exact reflects.complete name owner (occupies_append_of_missing missing occupied)

/-- An inclusion of a registered component claims its field and variant, and its names if its storage
is sound. -/
theorem Reflects.behind_found (reflects : host.Reflects registry claims earlier)
    {later : JudgedInclusion} {component : Component}
    (found : registry.get? later.inclusion.component = some component)
    (storage : later.storage =
      host.storageFindings defaultLayout claims later.inclusion component) :
    host.Reflects registry (host.advance registry defaultLayout claims later.inclusion)
      (earlier ++ [later]) := by
  have used : ∀ (key : Inclusion → String) (name : String),
      Used registry key (earlier ++ [later]) name ↔
        name = key later.inclusion ∨ Used registry key earlier name := by
    intro key name
    rw [used_append, found, or_comm, eq_comm (a := name)]
    simp only [Option.isSome_some, true_and]
  constructor
  · intro name
    rw [used, advance_storage_fields found, List.mem_cons, reflects.storageFields]
  · intro name
    rw [used, advance_event_variants found, List.mem_cons, reflects.eventVariants]
  · intro root member
    simp only [advance, found, claim, List.isEmpty_iff, ← storage] at member
    split at member
    · next clean =>
        rcases List.mem_append.mp member with added | before
        · exact occupies_of_added found clean added
        · exact (reflects.held root before).weaken later
    · exact (reflects.held root member).weaken later
  · intro name owner occupied
    have grows := (host.advance_grows registry defaultLayout claims later.inclusion).2.2
    rcases occupies_append_of_found found occupied with before | ⟨clean, own⟩
    · exact grows (reflects.complete name owner before)
    · rw [advance_names_of_sound found (storage.symm.trans clean)]
      exact List.mem_append_left _ own

/-- The claims that an inclusion leaves are made by it and the inclusions before it. -/
theorem Reflects.advance (reflects : host.Reflects registry claims earlier)
    (inclusion : Inclusion) :
    host.Reflects registry (host.advance registry defaultLayout claims inclusion)
      (earlier ++ [host.entry registry defaultLayout claims inclusion]) := by
  have same := host.entry_inclusion registry defaultLayout claims inclusion
  generalize judged : host.entry registry defaultLayout claims inclusion = later at same ⊢
  subst same
  cases found : registry.get? later.inclusion.component with
  | none => exact reflects.behind_missing found
  | some component =>
      apply reflects.behind_found found
      apply (congrArg JudgedInclusion.storage judged).symm.trans
      rw [entry, found]

/-! ### All inclusions -/

theorem occupies_of_root_name {member : HostMember} {root : String × NameOwner}
    (first : host.member? member.name = some member) (rooted : member.rootName? = some root) :
    host.Occupies registry earlier root.1 root.2 := by
  rw [HostMember.rootName?] at rooted
  split at rooted
  · next native =>
      cases rooted
      exact .native first native
  · cases rooted
  · next nested =>
      cases rooted
      exact .nested first nested
  · next version unknown =>
      cases rooted
      exact .unknownVersion first unknown

theorem reflects_initially : host.Reflects registry host.initialClaims [] := by
  have unused : ∀ (key : Inclusion → String) (name : String), ¬Used registry key [] name := by
    simp [Used]
  constructor
  · intro name
    exact iff_of_false List.not_mem_nil (unused _ name)
  · intro name
    exact iff_of_false List.not_mem_nil (unused _ name)
  · intro root member
    obtain ⟨holder, first, rooted⟩ := List.mem_filterMap.mp member
    exact occupies_of_root_name (find_of_mem_firsts_by HostMember.name first) rooted
  · intro name owner occupied
    cases occupied with
    | native first native => exact root_names_of_member first (by rw [native]; simp)
    | nested first nested => exact root_names_of_member first (by rw [nested]; simp)
    | unknownVersion first unknown => exact root_names_of_member first (by rw [unknown]; simp)
    | flat member => cases member

theorem Reflects.entries_fit (reachable : registry.Reachable)
    (reflects : host.Reflects registry claims earlier) (inclusions : List Inclusion) (index : Nat)
    (judged : JudgedInclusion)
    (present : (host.entries registry defaultLayout claims inclusions)[index]? = some judged) :
    host.Fits registry defaultLayout
      (earlier ++ (host.entries registry defaultLayout claims inclusions).take index) judged := by
  induction inclusions generalizing claims earlier index with
  | nil => cases present
  | cons inclusion rest ih =>
      rw [entries] at present ⊢
      cases index with
      | zero =>
          rw [List.getElem?_cons_zero] at present
          cases present
          rw [List.take_zero, List.append_nil]
          exact reflects.fits reachable inclusion
      | succ index =>
          have later := ih (reflects.advance inclusion) index present
          rwa [List.append_assoc, List.singleton_append] at later

/-- The findings of a validation are the members and the variants whose name an earlier one has, and
then a group for each inclusion, in order. What an inclusion is judged by are the inclusions before it
and nothing else. -/
theorem findings_fit_verdicts (reachable : registry.Reachable) (host : Host)
    (defaultLayout : Layout) :
    ∃ judged : List JudgedInclusion,
      judged.map (·.inclusion) = host.inclusions ∧
      (host.validate registry defaultLayout).verdicts = judged.map (·.verdict) ∧
      (host.validate registry defaultLayout).diagnostics =
        ((repeated (·.name) host.storage).map fun member =>
          .duplicateHostMember host.name member.name member.span) ++
        ((repeated (·.name) host.events).map fun variant =>
          .duplicateHostVariant host.name variant.name variant.span) ++
        judged.flatMap (fun entry => entry.storage ++ entry.events) ∧
      ∀ index entry, judged[index]? = some entry →
        host.Fits registry defaultLayout (judged.take index) entry := by
  refine ⟨host.entries registry defaultLayout host.initialClaims host.inclusions,
    host.entries_inclusions registry defaultLayout _ _, ?_, ?_, ?_⟩
  · rw [validate, judge_eq_entries, List.map_map]
    rfl
  · rw [← repeats_by_eq_repeated, ← repeats_by_eq_repeated, validate, judge_eq_entries,
      List.flatMap_map]
    rfl
  · intro index entry present
    exact reflects_initially.entries_fit reachable host.inclusions index entry present

/-- A member and a variant are repeated. Behind a sound flat counter one collides with it, one wants
its member again and a variant that is not there, one is of a component that nobody knows, and one has
no variant of its own. -/
theorem crowded_host_findings_fit :
    let host : Host := { counterHost with
      storage := counterHost.storage ++ [⟨"again", "counter::Storage", .layout .flat, .point 1 1⟩,
        ⟨"again", "u8", .native, .point 6 1⟩]
      events := counterHost.events ++ [⟨"Again", some "counter::Event", .point 1 1⟩,
        ⟨"Again", none, .point 7 1⟩]
      inclusions := [⟨"counter", "first", "First", .point 1 1⟩,
        ⟨"counter", "again", "Again", .point 2 1⟩, ⟨"counter", "first", "Third", .point 3 1⟩,
        ⟨"mystery", "fourth", "Fourth", .point 4 1⟩, ⟨"counter", "second", "First", .point 5 1⟩] }
    counterRegistry.Reachable ∧ ∃ judged : List JudgedInclusion,
      judged.map (·.inclusion) = host.inclusions ∧
      judged.map (·.verdict) = [.valid, .invalid, .invalid, .invalid, .accessorOnly] ∧
      (host.validate counterRegistry .flat).diagnostics =
        [.duplicateHostMember "Tally" "again" (.point 6 1),
          .duplicateHostVariant "Tally" "Again" (.point 7 1)] ++
        judged.flatMap (fun entry => entry.storage ++ entry.events) ∧
      judged.flatMap (fun entry => entry.storage ++ entry.events) =
        [.storageCollision "Tally" "counter" "value" "component 'counter' at 'first'" (.point 2 1),
          .aliasedSubstorage "Tally" "counter" "first" (.point 3 1),
          .missingNestedEvent "Tally" "counter" "Third" "Third: counter::Event," (.point 3 1),
          .unknownComponent "Tally" "mystery" (.point 4 1),
          .duplicateEventBinding "Tally" "counter" "First" (.point 5 1)] ∧
      ∀ index entry, judged[index]? = some entry →
        host.Fits counterRegistry .flat (judged.take index) entry := by
  intro host
  obtain ⟨judged, inclusions, verdicts, diagnostics, fits⟩ :=
    findings_fit_verdicts counter_registry_reachable host .flat
  have repeats : ((repeated (·.name) host.storage).map fun member =>
        Diagnostic.duplicateHostMember host.name member.name member.span) ++
      ((repeated (·.name) host.events).map fun variant =>
        .duplicateHostVariant host.name variant.name variant.span) =
      [.duplicateHostMember "Tally" "again" (.point 6 1),
        .duplicateHostVariant "Tally" "Again" (.point 7 1)] := by
    decide +kernel
  rw [repeats] at diagnostics
  refine ⟨counter_registry_reachable, judged, inclusions, ?_, diagnostics, ?_, fits⟩
  · rw [← verdicts]
    decide +kernel
  · apply List.append_cancel_left
    rw [← diagnostics]
    decide +kernel

end Host

end Composer
