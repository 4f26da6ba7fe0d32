import Composer.Proofs.Declaration.Alone
import Composer.Proofs.Declaration.Names
import Composer.Proofs.Validation.Judgement

/-!
Following what reports suggest. Which members are claimed before an inclusion depends on the inclusions
and the registry only, so a host with other members is judged behind the same claims of these. With
the declaration that is suggested to it, an inclusion is not reported for the same again.
-/

namespace Composer

/-! ### Judgements by index -/

namespace Host

variable (host : Host) (registry : Registry) (layout : Layout)

def claimsAt (index : Nat) : Claims :=
  (host.inclusions.take index).foldl (host.advance registry layout) host.initialClaims

def ReportedAt (index : Nat) (diagnostic : Diagnostic) : Prop :=
  ∃ judged, (host.judge registry layout host.initialClaims host.inclusions)[index]? = some judged ∧
    diagnostic ∈ judged.2

instance (index : Nat) (diagnostic : Diagnostic) :
    Decidable (host.ReportedAt registry layout index diagnostic) :=
  inferInstanceAs (Decidable (∃ judged,
    judged ∈ (host.judge registry layout host.initialClaims host.inclusions)[index]? ∧
      diagnostic ∈ judged.2))

def ReportedAs (index : Nat) (code : ErrorCode) : Prop :=
  ∃ diagnostic, host.ReportedAt registry layout index diagnostic ∧ diagnostic.code = code

theorem judge_get (claims : Claims) (inclusions : List Inclusion) (index : Nat) :
    (host.judge registry layout claims inclusions)[index]? =
      inclusions[index]?.map (host.judgement registry layout
        ((inclusions.take index).foldl (host.advance registry layout) claims)) := by
  induction inclusions generalizing claims index with
  | nil => rfl
  | cons inclusion rest ih =>
      rw [judge_cons]
      cases index with
      | zero => rfl
      | succ index => exact ih _ index

theorem verdict_at (index : Nat) :
    (host.validate registry layout).verdicts[index]? = host.inclusions[index]?.map fun inclusion =>
      (host.judgement registry layout (host.claimsAt registry layout index) inclusion).1 := by
  rw [validate, List.getElem?_map, judge_get, Option.map_map]
  rfl

variable {host registry layout}

theorem reported_at_iff {index : Nat} {diagnostic : Diagnostic} :
    host.ReportedAt registry layout index diagnostic ↔
      ∃ inclusion, host.inclusions[index]? = some inclusion ∧
        diagnostic ∈ (host.judgement registry layout
          (host.claimsAt registry layout index) inclusion).2 := by
  rw [ReportedAt, judge_get]
  simp only [Option.map_eq_some_iff, exists_exists_and_eq_and]
  rfl

/-- Which members are claimed does not depend on what the host declares besides its inclusions. -/
theorem claimed_fields_eq {other : Host} (same : other.inclusions = host.inclusions) (index : Nat) :
    (other.claimsAt registry layout index).storageFields =
      (host.claimsAt registry layout index).storageFields := by
  have run : ∀ (inclusions : List Inclusion) (claims others : Claims),
      others.storageFields = claims.storageFields →
      (inclusions.foldl (other.advance registry layout) others).storageFields =
        (inclusions.foldl (host.advance registry layout) claims).storageFields := by
    intro inclusions
    induction inclusions with
    | nil => exact fun _ _ start => start
    | cons inclusion rest ih =>
        intro claims others start
        apply ih
        cases found : registry.get? inclusion.component with
        | none => rw [advance_unregistered found, advance_unregistered found, start]
        | some component => rw [advance_storage_fields found, advance_storage_fields found, start]
  rw [claimsAt, claimsAt, same]
  exact run _ _ _ rfl

/-! ### What is behind a report -/

variable (host layout) in
/-- What can be found against an inclusion of a registered component, and what is behind it. -/
inductive Finds (claims : Claims) (inclusion : Inclusion) (component : Component) :
    Diagnostic → Prop
  | aliased : inclusion.storageField ∈ claims.storageFields →
      Finds claims inclusion component
        (.aliasedSubstorage host.name component.name inclusion.storageField inclusion.span)
  | noMember : inclusion.storageField ∉ claims.storageFields →
      host.layoutFor? inclusion.storageField component = none →
      Finds claims inclusion component
        (.missingSubstorageMember host.name component.name inclusion.storageField
          (inclusion.storageDeclaration component layout) inclusion.span)
  | collision {field owner : String} : inclusion.storageField ∉ claims.storageFields →
      host.layoutFor? inclusion.storageField component = some .flat →
      Finds claims inclusion component
        (.storageCollision host.name component.name field owner inclusion.span)
  | repeated : inclusion.eventVariant ∈ claims.eventVariants →
      Finds claims inclusion component
        (.duplicateEventBinding host.name component.name inclusion.eventVariant inclusion.span)
  | noVariant : inclusion.eventVariant ∉ claims.eventVariants →
      (host.variant? inclusion.eventVariant).bind (·.payload) ≠ some component.eventType →
      Finds claims inclusion component
        (.missingNestedEvent host.name component.name inclusion.eventVariant
          (inclusion.eventDeclaration component) inclusion.span)

variable {claims : Claims} {inclusion : Inclusion} {component : Component}
  {diagnostic : Diagnostic}

/-- Fields collide only where the member is flat. -/
theorem Finds.flat (finds : host.Finds layout claims inclusion component diagnostic)
    (code : diagnostic.code = .storageCollision) :
    host.layoutFor? inclusion.storageField component = some .flat := by
  cases finds with
  | collision _ held => exact held
  | aliased => cases code
  | noMember => cases code
  | repeated => cases code
  | noVariant => cases code

theorem mem_storage_findings
    (found : diagnostic ∈ host.storageFindings layout claims inclusion component) :
    host.Finds layout claims inclusion component diagnostic := by
  rw [storageFindings] at found
  split_ifs at found with claimed
  · rw [List.mem_singleton.mp found]
    exact .aliased claimed
  · cases held : host.layoutFor? inclusion.storageField component with
    | none =>
        simp only [held] at found
        rw [List.mem_singleton.mp found]
        exact .noMember claimed held
    | some inUse =>
        simp only [held] at found
        cases inUse with
        | flat =>
            rcases List.mem_filterMap.mp found with ⟨field, _, collides⟩
            rcases Option.map_eq_some_iff.mp collides with ⟨owner, _, rfl⟩
            exact .collision claimed held
        | nested => cases found

theorem mem_event_findings
    (found : diagnostic ∈ host.eventFindings claims inclusion component) :
    host.Finds layout claims inclusion component diagnostic := by
  rw [eventFindings] at found
  split_ifs at found with claimed nested
  · rw [List.mem_singleton.mp found]
    exact .repeated claimed
  · cases found
  · rw [List.mem_singleton.mp found]
    exact .noVariant claimed nested

theorem mem_judgement (found : diagnostic ∈ (host.judgement registry layout claims inclusion).2) :
    (registry.get? inclusion.component = none ∧
      diagnostic = .unknownComponent host.name inclusion.component inclusion.span) ∨
    ∃ component, registry.get? inclusion.component = some component ∧
      host.Finds layout claims inclusion component diagnostic := by
  rw [judgement] at found
  cases registered : registry.get? inclusion.component with
  | none =>
      simp only [registered] at found
      split_ifs at found
      · cases found
      · exact .inl ⟨rfl, List.mem_singleton.mp found⟩
  | some component =>
      simp only [registered] at found
      rcases List.mem_append.mp found with storage | events
      · exact .inr ⟨component, rfl, mem_storage_findings storage⟩
      · exact .inr ⟨component, rfl, mem_event_findings events⟩

variable {index : Nat}

theorem finds_of_reported (here : host.inclusions[index]? = some inclusion)
    (registered : registry.get? inclusion.component = some component)
    (reported : host.ReportedAt registry layout index diagnostic) :
    host.Finds layout (host.claimsAt registry layout index) inclusion component diagnostic := by
  rcases reported_at_iff.mp reported with ⟨other, same, judged⟩
  rw [here] at same
  cases same
  rcases mem_judgement judged with ⟨missing, _⟩ | ⟨others, again, finds⟩
  · rw [registered] at missing
    cases missing
  · rw [registered] at again
    cases again
    exact finds

/-- A report for anything else than an unknown component is against a registered one. -/
theorem registered_of_reported (reported : host.ReportedAt registry layout index diagnostic)
    (known : diagnostic.code ≠ .unknownComponent) :
    ∃ inclusion component, host.inclusions[index]? = some inclusion ∧
      registry.get? inclusion.component = some component := by
  rcases reported_at_iff.mp reported with ⟨inclusion, here, judged⟩
  rcases mem_judgement judged with ⟨_, rfl⟩ | ⟨component, registered, _⟩
  · exact absurd rfl known
  · exact ⟨inclusion, component, here, registered⟩

/-! ### Members -/

variable {hostName reported name declaration : String} {span : Span}

theorem missing_member_reported
    (found : host.ReportedAt registry layout index
      (.missingSubstorageMember hostName reported name declaration span)) :
    ∃ inclusion component, host.inclusions[index]? = some inclusion ∧
      registry.get? inclusion.component = some component ∧
      inclusion.storageField ∉ (host.claimsAt registry layout index).storageFields ∧
      reported = component.name ∧ name = inclusion.storageField ∧
      declaration = inclusion.storageDeclaration component layout := by
  rcases registered_of_reported found nofun with ⟨inclusion, component, here, registered⟩
  cases finds_of_reported here registered found with
  | noMember unclaimed _ =>
      exact ⟨inclusion, component, here, registered, unclaimed, rfl, rfl, rfl⟩

/-- Where a member holds the component, none is reported to be missing. -/
theorem not_missing_of_held {inUse : Layout} (here : host.inclusions[index]? = some inclusion)
    (registered : registry.get? inclusion.component = some component)
    (held : host.layoutFor? inclusion.storageField component = some inUse) :
    ¬host.ReportedAs registry layout index .missingSubstorageMember := by
  intro again
  rcases again with ⟨diagnostic, reported, code⟩
  cases finds_of_reported here registered reported with
  | noMember _ absent =>
      rw [held] at absent
      cases absent
  | aliased => cases code
  | collision => cases code
  | repeated => cases code
  | noVariant => cases code

/-- Where the member is nested, no field collides. -/
theorem not_colliding_of_nested (here : host.inclusions[index]? = some inclusion)
    (registered : registry.get? inclusion.component = some component)
    (held : host.layoutFor? inclusion.storageField component = some .nested) :
    ¬host.ReportedAs registry layout index .storageCollision := by
  intro again
  rcases again with ⟨diagnostic, reported, code⟩
  have flat := (finds_of_reported here registered reported).flat code
  rw [held] at flat
  cases flat

/-- An unclaimed nested member is all that the storage of an inclusion needs. -/
theorem accepted_of_nested (here : host.inclusions[index]? = some inclusion)
    (registered : registry.get? inclusion.component = some component)
    (unclaimed : inclusion.storageField ∉ (host.claimsAt registry layout index).storageFields)
    (held : host.layoutFor? inclusion.storageField component = some .nested) :
    ∃ verdict, (host.validate registry layout).verdicts[index]? = some verdict ∧
      verdict ≠ .invalid := by
  have sound : host.storageFindings layout (host.claimsAt registry layout index) inclusion
      component = [] := by
    rw [storageFindings, if_neg unclaimed, held]
  rw [verdict_at, here, Option.map_some]
  exact ⟨_, rfl, judgement_accepted.mpr ⟨component, registered, sound⟩⟩

theorem member_added (missing : host.member? name = none) (added : HostMember)
    (named : added.name = name) :
    Host.member? { host with storage := host.storage ++ [added] } name = some added := by
  rw [member?] at missing ⊢
  rw [List.find?_append, missing, Option.none_or, List.find?_cons_of_pos (by simpa using named)]

/-- The missing member is missing no more once it is declared as suggested, and declared nested it is
all that the storage needs. -/
theorem added_member_mends
    (found : host.ReportedAt registry layout index
      (.missingSubstorageMember hostName reported name declaration span))
    (missing : host.member? name = none) (place : Span) :
    let added : HostMember := ⟨name, Component.storageTypeOf reported, .layout layout, place⟩
    let mended := { host with storage := host.storage ++ [added] }
    ¬mended.ReportedAs registry layout index .missingSubstorageMember ∧
      (layout = .nested → ∃ verdict, (mended.validate registry layout).verdicts[index]? =
        some verdict ∧ verdict ≠ .invalid) := by
  intro added mended
  rcases missing_member_reported found with
    ⟨inclusion, component, here, registered, unclaimed, rfl, rfl, _⟩
  have held : mended.layoutFor? inclusion.storageField component = some layout := by
    rw [layout_for_eq_some]
    exact ⟨added, member_added missing added rfl, rfl, rfl⟩
  have inclusions : mended.inclusions = host.inclusions := rfl
  rw [← claimed_fields_eq inclusions index] at unclaimed
  constructor
  · exact not_missing_of_held here registered held
  · intro nested
    rw [nested] at held
    exact accepted_of_nested here registered unclaimed held

def reversioned (version name : String) : List HostMember → List HostMember
  | [] => []
  | member :: rest =>
      if member.name = name then { member with substorage := .ofVersion version } :: rest
      else member :: reversioned version name rest

theorem find_reversioned (version name : String) (members : List HostMember) :
    (reversioned version name members).find? (·.name = name) =
      (members.find? (·.name = name)).map fun member =>
        { member with substorage := .ofVersion version } := by
  induction members with
  | nil => rfl
  | cons member rest ih =>
      rw [reversioned]
      split_ifs with named
      · rw [List.find?_cons_of_pos (by simpa using named),
          List.find?_cons_of_pos (by simpa using named), Option.map_some]
      · rw [List.find?_cons_of_neg (by simpa using named),
          List.find?_cons_of_neg (by simpa using named), ih]

/-- Fields that collide do so no more in a member of their own name space. -/
theorem nested_member_mends
    (found : host.ReportedAs registry layout index .storageCollision) :
    ∃ inclusion member, host.inclusions[index]? = some inclusion ∧
      host.member? inclusion.storageField = some member ∧
      let mended := { host with
        storage := reversioned "v1" inclusion.storageField host.storage }
      ¬mended.ReportedAs registry layout index .storageCollision := by
  rcases found with ⟨diagnostic, reported, code⟩
  have known : diagnostic.code ≠ .unknownComponent := by
    rw [code]
    decide
  rcases registered_of_reported reported known with ⟨inclusion, component, here, registered⟩
  have flat := (finds_of_reported here registered reported).flat code
  rcases layout_for_eq_some.mp flat with ⟨member, first, type, _⟩
  refine ⟨inclusion, member, here, first, ?_⟩
  intro mended
  have nested : mended.layoutFor? inclusion.storageField component = some .nested := by
    rw [member?] at first
    rw [layout_for_eq_some, member?, find_reversioned, first]
    exact ⟨_, rfl, type, rfl⟩
  have mendedHere : mended.inclusions[index]? = some inclusion := here
  exact not_colliding_of_nested mendedHere registered nested

/-! ### Variants -/

theorem missing_variant_reported
    (found : host.ReportedAt registry layout index
      (.missingNestedEvent hostName reported name declaration span)) :
    ∃ inclusion component, host.inclusions[index]? = some inclusion ∧
      registry.get? inclusion.component = some component ∧
      inclusion.eventVariant ∉ (host.claimsAt registry layout index).eventVariants ∧
      reported = component.name ∧ name = inclusion.eventVariant ∧
      declaration = inclusion.eventDeclaration component := by
  rcases registered_of_reported found nofun with ⟨inclusion, component, here, registered⟩
  cases finds_of_reported here registered found with
  | noVariant unclaimed _ =>
      exact ⟨inclusion, component, here, registered, unclaimed, rfl, rfl, rfl⟩

/-- Where a variant nests the events of the component, none is reported to be missing. -/
theorem not_missing_of_nesting (here : host.inclusions[index]? = some inclusion)
    (registered : registry.get? inclusion.component = some component)
    (nesting : (host.variant? inclusion.eventVariant).bind (·.payload) = some component.eventType) :
    ¬host.ReportedAs registry layout index .missingNestedEvent := by
  intro again
  rcases again with ⟨diagnostic, reported, code⟩
  cases finds_of_reported here registered reported with
  | noVariant _ absent => exact absent nesting
  | aliased => cases code
  | noMember => cases code
  | collision => cases code
  | repeated => cases code

theorem variant_added (missing : host.variant? name = none) (added : EventVariant)
    (named : added.name = name) :
    Host.variant? { host with events := host.events ++ [added] } name = some added := by
  rw [variant?] at missing ⊢
  rw [List.find?_append, missing, Option.none_or, List.find?_cons_of_pos (by simpa using named)]

/-- The missing variant is missing no more once it is declared as suggested; storage that was sound
stays so, and then nothing is wrong with the inclusion. -/
theorem added_variant_mends
    (found : host.ReportedAt registry layout index
      (.missingNestedEvent hostName reported name declaration span))
    (missing : host.variant? name = none) (place : Span) :
    let added : EventVariant := ⟨name, some (Component.eventTypeOf reported), place⟩
    let mended := { host with events := host.events ++ [added] }
    ¬mended.ReportedAs registry layout index .missingNestedEvent ∧
      ((host.validate registry layout).verdicts[index]? ≠ some .invalid →
        (mended.validate registry layout).verdicts[index]? = some .valid) := by
  intro added mended
  rcases missing_variant_reported found with
    ⟨inclusion, component, here, registered, unclaimed, rfl, rfl, _⟩
  have nesting : (mended.variant? inclusion.eventVariant).bind (·.payload) =
      some component.eventType := by
    rw [variant_added missing added rfl]
    rfl
  constructor
  · exact not_missing_of_nesting here registered nesting
  · -- What is claimed does not depend on the variants that the host declares.
    intro accepted
    rw [verdict_at, here, Option.map_some] at accepted
    have mendedHere : mended.inclusions[index]? = some inclusion := here
    rw [verdict_at, mendedHere, Option.map_some, Option.some.injEq, judgement_valid]
    have sound : host.storageFindings layout (host.claimsAt registry layout index) inclusion
        component = [] := by
      rcases judgement_accepted.mp fun invalid => accepted (congrArg some invalid) with
        ⟨other, again, sound⟩
      rw [registered] at again
      cases again
      exact sound
    refine ⟨component, registered, sound, event_findings_eq_nil.mpr ⟨?_, nesting⟩⟩
    exact unclaimed

end Host

/-! ### Suggested declarations -/

/-- For each host of a contract that was read, what is suggested mends what it is suggested for. The
declaration of a missing member or variant, alone in a block of its kind, is read without reports as
the one declaration that is missing. -/
theorem suggested_declarations_mend {file : SourceFile} {decl : ContractDecl}
    (declared : decl ∈ file.parse.tree.contracts) (registry : Registry) (layout : Layout)
    (index : Nat) :
    let host := decl.host file.name
    (∀ hostName component member declaration span,
      host.ReportedAt registry layout index
        (.missingSubstorageMember hostName component member declaration span) →
      host.member? member = none →
      ReadsAlone .storage Host.storage declaration fun added =>
        let mended := { host with storage := host.storage ++ [added] }
        ¬mended.ReportedAs registry layout index .missingSubstorageMember ∧
          (layout = .nested → ∃ verdict, (mended.validate registry layout).verdicts[index]? =
            some verdict ∧ verdict ≠ .invalid)) ∧
    (∀ hostName component variant declaration span,
      host.ReportedAt registry layout index
        (.missingNestedEvent hostName component variant declaration span) →
      host.variant? variant = none →
      ReadsAlone .event Host.events declaration fun added =>
        let mended := { host with events := host.events ++ [added] }
        ¬mended.ReportedAs registry layout index .missingNestedEvent ∧
          ((host.validate registry layout).verdicts[index]? ≠ some .invalid →
            (mended.validate registry layout).verdicts[index]? = some .valid)) ∧
    (host.ReportedAs registry layout index .storageCollision →
      ∃ inclusion member, host.inclusions[index]? = some inclusion ∧
        host.member? inclusion.storageField = some member ∧
        let mended := { host with
          storage := Host.reversioned "v1" inclusion.storageField host.storage }
        ¬mended.ReportedAs registry layout index .storageCollision) := by
  intro host
  have named : ∀ inclusion, host.inclusions[index]? = some inclusion →
      IsIdentifier inclusion.component ∧ IsIdentifier inclusion.storageField ∧
        IsIdentifier inclusion.eventVariant := by
    intro inclusion here
    rcases List.mem_map.mp (List.mem_of_getElem? here) with ⟨own, among, rfl⟩
    have words := SourceFile.inclusions_named declared own among
    exact ⟨words.path, words.storage, words.event⟩
  refine ⟨?_, ?_, Host.nested_member_mends⟩
  · intro hostName reported member declaration span found missing
    rcases Host.missing_member_reported found with
      ⟨inclusion, component, here, registered, _, rfl, rfl, rfl⟩
    rcases named inclusion here with ⟨componentNamed, fieldNamed, _⟩
    rw [← Registry.get_name registered] at componentNamed
    apply (member_reads_alone fieldNamed componentNamed layout).mono
    intro added read
    rcases read with ⟨place, rfl⟩
    exact Host.added_member_mends found missing place
  · intro hostName reported variant declaration span found missing
    rcases Host.missing_variant_reported found with
      ⟨inclusion, component, here, registered, _, rfl, rfl, rfl⟩
    rcases named inclusion here with ⟨componentNamed, _, variantNamed⟩
    rw [← Registry.get_name registered] at componentNamed
    apply (variant_reads_alone variantNamed componentNamed).mono
    intro added read
    rcases read with ⟨place, rfl⟩
    exact Host.added_variant_mends found missing place

/-- A contract that lacks a member and a variant for one counter, and whose own member has the name
of a field of another. -/
def lackingTally : SourceFile :=
  ⟨"tally.graft", "contract Tally \x7b " ++
    "component!(path: counter, storage: first, event: First); " ++
    "component!(path: counter, storage: second, event: Second); " ++
    "storage \x7b value: u64, #[substorage(v0)] second: counter::Storage \x7d \x7d"⟩

theorem lacking_tally_mended :
    let member := "#[substorage(v1)] first: counter::Storage,"
    let variant := "First: counter::Event,"
    let first : Span := ⟨⟨1, 18⟩, ⟨1, 72⟩⟩
    let second : Span := ⟨⟨1, 75⟩, ⟨1, 131⟩⟩
    let frame : Frame := ⟨"Alone", fun _ => [.space], by decide, List.cons_ne_nil _ _⟩
    lackingTally.parse.tree.contracts.length = 1 ∧
    ∀ decl ∈ lackingTally.parse.tree.contracts,
      let host := decl.host lackingTally.name
      host.ReportedAt counterRegistry .nested 0
          (.missingSubstorageMember "Tally" "counter" "first" member first) ∧
        (∃ added : HostMember, ¬Host.ReportedAs { host with storage := host.storage ++ [added] }
          counterRegistry .nested 0 .missingSubstorageMember) ∧
        host.ReportedAt counterRegistry .nested 0
          (.missingNestedEvent "Tally" "counter" "First" variant first) ∧
        (SourceFile.parse ⟨"alone.graft", frame.around .event variant⟩).log = .empty ∧
        host.ReportedAt counterRegistry .nested 1
          (.storageCollision "Tally" "counter" "value" "the contract" second) ∧
        ∃ inclusion, host.inclusions[1]? = some inclusion ∧
          ¬Host.ReportedAs { host with
              storage := Host.reversioned "v1" inclusion.storageField host.storage }
            counterRegistry .nested 1 .storageCollision := by
  intro member variant first second frame
  refine ⟨by decide +kernel, ?_⟩
  have reported : ∀ decl ∈ lackingTally.parse.tree.contracts,
      let host := decl.host lackingTally.name
      host.ReportedAt counterRegistry .nested 0
          (.missingSubstorageMember "Tally" "counter" "first" member first) ∧
        host.member? "first" = none ∧
        host.ReportedAt counterRegistry .nested 0
          (.missingNestedEvent "Tally" "counter" "First" variant first) ∧
        host.variant? "First" = none ∧
        host.ReportedAt counterRegistry .nested 1
          (.storageCollision "Tally" "counter" "value" "the contract" second) := by
    decide +kernel
  intro decl declared host
  rcases reported decl declared with ⟨noMember, memberless, noVariant, variantless, collision⟩
  rcases suggested_declarations_mend declared counterRegistry .nested 0 with ⟨members, variants, _⟩
  rcases members _ _ _ _ _ noMember memberless frame "alone.graft" with
    ⟨_, _, _, added, _, holds, _⟩
  rcases variants _ _ _ _ _ noVariant variantless frame "alone.graft" with ⟨log, _⟩
  rcases (suggested_declarations_mend declared counterRegistry .nested 1).2.2 ⟨_, collision, rfl⟩
    with ⟨inclusion, _, here, _, apart⟩
  exact ⟨noMember, ⟨added, holds⟩, noVariant, log, collision, inclusion, here, apart⟩

end Composer
