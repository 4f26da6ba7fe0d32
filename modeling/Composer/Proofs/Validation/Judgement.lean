import Composer.Validation
import Composer.Proofs.Registration
import Mathlib.Data.List.Basic

/-!
Validation as a run of single judgements. `Host.judgement` is what one inclusion gets and
`Host.advance` what it leaves for the next; the equations say what each of them depends on. The last
section turns facts about single judgements into facts about all inclusions of a verdict.
-/

namespace Composer

def Claims.names (claims : Claims) : List String := claims.rootNames.map (·.1)

theorem Verdict.of_findings_ne_invalid (storage events : List Diagnostic) :
    Verdict.ofFindings storage events ≠ .invalid ↔ storage = [] := by
  cases storage <;> cases events <;> simp [ofFindings]

theorem Verdict.of_findings_eq_valid (storage events : List Diagnostic) :
    Verdict.ofFindings storage events = .valid ↔ storage = [] ∧ events = [] := by
  cases storage <;> cases events <;> simp [ofFindings]

theorem NameOwner.lookup_eq_none (rootNames : List (String × NameOwner)) (name : String) :
    rootNames.lookup name = none ↔ name ∉ rootNames.map (·.1) := by
  simp only [List.lookup_eq_none_iff, List.mem_map, not_exists, not_and]
  constructor
  · intro differs entry member same
    subst same
    simpa using differs entry member
  · intro absent entry member
    simpa using fun same => absent entry member same.symm

namespace Host

variable (host : Host) (registry : Registry) (defaultLayout : Layout)

/-! ### One inclusion -/

def judgement (claims : Claims) (inclusion : Inclusion) : Verdict × List Diagnostic :=
  match registry.get? inclusion.component with
  | none =>
      (.invalid, if registry.isRejected inclusion.component then []
        else [.unknownComponent host.name inclusion.component inclusion.span])
  | some component =>
      let storage := host.storageFindings defaultLayout claims inclusion component
      let events := host.eventFindings claims inclusion component
      (.ofFindings storage events, storage ++ events)

def advance (claims : Claims) (inclusion : Inclusion) : Claims :=
  match registry.get? inclusion.component with
  | none => claims
  | some component =>
      host.claim claims inclusion component
        (host.storageFindings defaultLayout claims inclusion component).isEmpty

theorem judge_cons (claims : Claims) (inclusion : Inclusion) (rest : List Inclusion) :
    host.judge registry defaultLayout claims (inclusion :: rest) =
      host.judgement registry defaultLayout claims inclusion ::
        host.judge registry defaultLayout
          (host.advance registry defaultLayout claims inclusion) rest := by
  rw [judge, judgement, advance]
  cases registry.get? inclusion.component <;> rfl

theorem judge_length (claims : Claims) (inclusions : List Inclusion) :
    (host.judge registry defaultLayout claims inclusions).length = inclusions.length := by
  induction inclusions generalizing claims with
  | nil => rfl
  | cons inclusion rest ih => rw [judge_cons, List.length_cons, ih, List.length_cons]

theorem validate_verdicts_length :
    (host.validate registry defaultLayout).verdicts.length = host.inclusions.length := by
  simp only [validate, List.length_map, judge_length]

/-- The names that the component of an inclusion puts at the storage root: those of its fields, where
the member that holds it is flat. -/
def flatNames (inclusion : Inclusion) : List String :=
  match registry.get? inclusion.component,
      (host.member? inclusion.storageField).bind (·.layout?) with
  | some component, some .flat => component.storage.map (·.name)
  | _, _ => []

variable {host registry defaultLayout}

theorem layout_for_eq_some {storageField : String} {component : Component} {layout : Layout} :
    host.layoutFor? storageField component = some layout ↔
      ∃ member, host.member? storageField = some member ∧ member.type = component.storageType ∧
        member.layout? = some layout := by
  cases held : host.member? storageField with
  | none => simp [layoutFor?, held]
  | some member => simp [layoutFor?, held]

theorem flat_names_of_layout {inclusion : Inclusion} {component : Component} {layout : Layout}
    (found : registry.get? inclusion.component = some component)
    (held : host.layoutFor? inclusion.storageField component = some layout) :
    host.flatNames registry inclusion =
      if layout = .flat then component.storage.map (·.name) else [] := by
  obtain ⟨member, atField, _, layoutOf⟩ := layout_for_eq_some.mp held
  cases layout <;> simp [flatNames, found, atField, layoutOf]

theorem collisions_eq_nil (rootNames : List (String × NameOwner)) (inclusion : Inclusion)
    (component : Component) :
    host.collisions rootNames inclusion component = [] ↔
      ∀ name ∈ component.storage.map (·.name), name ∉ rootNames.map (·.1) := by
  simp only [collisions, List.filterMap_eq_nil_iff, Option.map_eq_none_iff,
    NameOwner.lookup_eq_none, List.forall_mem_map]

/-- The storage of an inclusion is sound when it is the first to claim a member that holds its
component, and its flat names are new at the storage root. -/
theorem storage_findings_eq_nil {claims : Claims} {inclusion : Inclusion} {component : Component}
    (found : registry.get? inclusion.component = some component) :
    host.storageFindings defaultLayout claims inclusion component = [] ↔
      inclusion.storageField ∉ claims.storageFields ∧
        (∃ layout, host.layoutFor? inclusion.storageField component = some layout) ∧
        ∀ name ∈ host.flatNames registry inclusion, name ∉ claims.names := by
  rw [storageFindings]
  by_cases claimed : inclusion.storageField ∈ claims.storageFields
  · simp [claimed]
  · rw [if_neg claimed]
    cases held : host.layoutFor? inclusion.storageField component with
    | none => simp
    | some layout =>
        have names := flat_names_of_layout found held
        cases layout with
        | flat =>
            simp only [names, if_true, collisions_eq_nil, Claims.names, claimed,
              not_false_eq_true, Option.some.injEq, exists_eq', true_and]
        | nested => simp [names, claimed]

theorem event_findings_eq_nil {claims : Claims} {inclusion : Inclusion} {component : Component} :
    host.eventFindings claims inclusion component = [] ↔
      inclusion.eventVariant ∉ claims.eventVariants ∧
        (host.variant? inclusion.eventVariant).bind (·.payload) = some component.eventType := by
  rw [eventFindings]
  by_cases claimed : inclusion.eventVariant ∈ claims.eventVariants
  · simp [claimed]
  · rw [if_neg claimed]
    split_ifs with nested <;> simp [claimed, nested]

theorem judgement_accepted {claims : Claims} {inclusion : Inclusion} :
    (host.judgement registry defaultLayout claims inclusion).1 ≠ .invalid ↔
      ∃ component, registry.get? inclusion.component = some component ∧
        host.storageFindings defaultLayout claims inclusion component = [] := by
  rw [judgement]
  cases registry.get? inclusion.component with
  | none => simp
  | some component => simp [Verdict.of_findings_ne_invalid]

theorem judgement_valid {claims : Claims} {inclusion : Inclusion} :
    (host.judgement registry defaultLayout claims inclusion).1 = .valid ↔
      ∃ component, registry.get? inclusion.component = some component ∧
        host.storageFindings defaultLayout claims inclusion component = [] ∧
        host.eventFindings claims inclusion component = [] := by
  rw [judgement]
  cases registry.get? inclusion.component with
  | none => simp
  | some component => simp [Verdict.of_findings_eq_valid]

theorem judgement_clean_of_missing {claims : Claims} {inclusion : Inclusion}
    (missing : registry.get? inclusion.component = none) :
    (host.judgement registry defaultLayout claims inclusion).2 = [] ↔
      registry.isRejected inclusion.component := by
  simp [judgement, missing]

theorem judgement_clean_of_found {claims : Claims} {inclusion : Inclusion} {component : Component}
    (found : registry.get? inclusion.component = some component) :
    (host.judgement registry defaultLayout claims inclusion).2 = [] ↔
      host.storageFindings defaultLayout claims inclusion component = [] ∧
        host.eventFindings claims inclusion component = [] := by
  simp [judgement, found]

/-! ### What an inclusion leaves to later ones -/

theorem advance_unregistered {claims : Claims} {inclusion : Inclusion}
    (missing : registry.get? inclusion.component = none) :
    host.advance registry defaultLayout claims inclusion = claims := by
  rw [advance, missing]

theorem advance_storage_fields {claims : Claims} {inclusion : Inclusion} {component : Component}
    (found : registry.get? inclusion.component = some component) :
    (host.advance registry defaultLayout claims inclusion).storageFields =
      inclusion.storageField :: claims.storageFields := by
  simp only [advance, found, claim]

theorem advance_event_variants {claims : Claims} {inclusion : Inclusion} {component : Component}
    (found : registry.get? inclusion.component = some component) :
    (host.advance registry defaultLayout claims inclusion).eventVariants =
      inclusion.eventVariant :: claims.eventVariants := by
  simp only [advance, found, claim]

theorem advance_names_of_sound {claims : Claims} {inclusion : Inclusion} {component : Component}
    (found : registry.get? inclusion.component = some component)
    (sound : host.storageFindings defaultLayout claims inclusion component = []) :
    (host.advance registry defaultLayout claims inclusion).names =
      host.flatNames registry inclusion ++ claims.names := by
  obtain ⟨_, ⟨layout, held⟩, _⟩ := (storage_findings_eq_nil found).mp sound
  have names := flat_names_of_layout found held
  cases layout <;>
    simp [advance, found, claim, sound, addedRootNames, held, names, Claims.names,
      Function.comp_def]

theorem advance_names_of_unsound {claims : Claims} {inclusion : Inclusion} {component : Component}
    (found : registry.get? inclusion.component = some component)
    (unsound : host.storageFindings defaultLayout claims inclusion component ≠ []) :
    (host.advance registry defaultLayout claims inclusion).names = claims.names := by
  simp [advance, found, claim, unsound, Claims.names]

variable (host registry defaultLayout)

theorem advance_grows (claims : Claims) (inclusion : Inclusion) :
    claims.storageFields ⊆ (host.advance registry defaultLayout claims inclusion).storageFields ∧
      claims.eventVariants ⊆
        (host.advance registry defaultLayout claims inclusion).eventVariants ∧
      claims.names ⊆ (host.advance registry defaultLayout claims inclusion).names := by
  cases found : registry.get? inclusion.component with
  | none =>
      rw [advance_unregistered found]
      exact ⟨List.Subset.refl _, List.Subset.refl _, List.Subset.refl _⟩
  | some component =>
      rw [advance_storage_fields found, advance_event_variants found]
      refine ⟨List.subset_cons_self _ _, List.subset_cons_self _ _, ?_⟩
      by_cases sound : host.storageFindings defaultLayout claims inclusion component = []
      · rw [advance_names_of_sound found sound]
        exact List.subset_append_right _ _
      · rw [advance_names_of_unsound found sound]
        exact List.Subset.refl _

/-! ### All inclusions of a verdict -/

def judged : List (Inclusion × Verdict) :=
  host.inclusions.zip (host.validate registry defaultLayout).verdicts

def withVerdict (wanted : Verdict → Bool) : List Inclusion :=
  ((host.judged registry defaultLayout).filter fun pair => wanted pair.2).map (·.1)

def accepted : List Inclusion := host.withVerdict registry defaultLayout (· ≠ .invalid)

def fullyValid : List Inclusion := host.withVerdict registry defaultLayout (· = .valid)

def judgedAs (wanted : Verdict → Bool) (claims : Claims) (inclusions : List Inclusion) :
    List Inclusion :=
  ((inclusions.zip ((host.judge registry defaultLayout claims inclusions).map (·.1))).filter
    fun pair => wanted pair.2).map (·.1)

theorem zip_judge (claims : Claims) (inclusions : List Inclusion) :
    ∀ pair ∈ inclusions.zip (host.judge registry defaultLayout claims inclusions),
      ∃ earlier, pair.2 = host.judgement registry defaultLayout earlier pair.1 := by
  induction inclusions generalizing claims with
  | nil => simp
  | cons inclusion rest ih =>
      rw [judge_cons, List.zip_cons_cons, List.forall_mem_cons]
      exact ⟨⟨claims, rfl⟩, ih _⟩

/-- Every verdict is part of a judgement, and all findings of that judgement are reported. -/
theorem judged_judgement :
    ∀ pair ∈ host.judged registry defaultLayout, ∃ earlier,
      pair.2 = (host.judgement registry defaultLayout earlier pair.1).1 ∧
        (host.judgement registry defaultLayout earlier pair.1).2 ⊆
          (host.validate registry defaultLayout).diagnostics := by
  intro pair member
  simp only [judged, validate, List.zip_map_right, List.mem_map] at member
  rcases member with ⟨entry, present, rfl⟩
  obtain ⟨earlier, same⟩ :=
    zip_judge host registry defaultLayout host.initialClaims host.inclusions entry present
  refine ⟨earlier, congrArg Prod.fst same, ?_⟩
  intro diagnostic found
  rw [Prod.map_fst, id_eq, ← same] at found
  exact List.mem_append_right _
    (List.mem_flatMap.mpr ⟨entry.2, (List.of_mem_zip present).2, found⟩)

theorem judged_accepted :
    ∀ pair ∈ host.judged registry defaultLayout, pair.2 ≠ .invalid →
      ∃ component layout, registry.get? pair.1.component = some component ∧
        host.layoutFor? pair.1.storageField component = some layout := by
  intro pair member accepted
  obtain ⟨claims, verdict, _⟩ := host.judged_judgement registry defaultLayout pair member
  rw [verdict] at accepted
  obtain ⟨component, found, sound⟩ := judgement_accepted.mp accepted
  obtain ⟨_, ⟨layout, held⟩, _⟩ := (storage_findings_eq_nil found).mp sound
  exact ⟨component, layout, found, held⟩

theorem judged_as_cons (wanted : Verdict → Bool) (claims : Claims) (inclusion : Inclusion)
    (rest : List Inclusion) :
    host.judgedAs registry defaultLayout wanted claims (inclusion :: rest) =
      if wanted (host.judgement registry defaultLayout claims inclusion).1 then
        inclusion :: host.judgedAs registry defaultLayout wanted
          (host.advance registry defaultLayout claims inclusion) rest
      else host.judgedAs registry defaultLayout wanted
        (host.advance registry defaultLayout claims inclusion) rest := by
  simp only [judgedAs, judge_cons, List.map_cons, List.zip_cons_cons, List.filter_cons]
  split_ifs <;> rfl

/-- The induction behind statements on pairs of inclusions. A wanted inclusion is clear of what was
claimed before it, being clear of more claims implies being clear of fewer, and what is clear of the
claims that an inclusion leaves is apart from that inclusion. -/
theorem judged_as_pairwise (wanted : Verdict → Bool) (Clear : Claims → Inclusion → Prop)
    (Apart : Inclusion → Inclusion → Prop)
    (clear : ∀ claims inclusion,
      wanted (host.judgement registry defaultLayout claims inclusion).1 → Clear claims inclusion)
    (weaken : ∀ claims inclusion later,
      Clear (host.advance registry defaultLayout claims inclusion) later → Clear claims later)
    (apart : ∀ claims inclusion later,
      wanted (host.judgement registry defaultLayout claims inclusion).1 →
        Clear (host.advance registry defaultLayout claims inclusion) later →
        Apart inclusion later)
    (claims : Claims) (inclusions : List Inclusion) :
    (∀ inclusion ∈ host.judgedAs registry defaultLayout wanted claims inclusions,
      Clear claims inclusion) ∧
      (host.judgedAs registry defaultLayout wanted claims inclusions).Pairwise Apart := by
  induction inclusions generalizing claims with
  | nil => simp [judgedAs]
  | cons inclusion rest ih =>
      obtain ⟨restClear, restApart⟩ := ih (host.advance registry defaultLayout claims inclusion)
      have laterClear := fun later member => weaken claims inclusion later (restClear later member)
      rw [judged_as_cons]
      split_ifs with chosen
      · refine ⟨List.forall_mem_cons.mpr ⟨clear claims inclusion chosen, laterClear⟩, ?_⟩
        refine List.pairwise_cons.mpr ⟨?_, restApart⟩
        intro later member
        exact apart claims inclusion later chosen (restClear later member)
      · exact ⟨laterClear, restApart⟩

end Host

end Composer
