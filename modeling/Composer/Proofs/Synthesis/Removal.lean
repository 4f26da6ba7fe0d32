import Composer.Proofs.Synthesis.Gating
import Mathlib.Data.List.InsertIdx

/-!
An invalid inclusion disturbs no other one. It leaves its storage member and its event variant
claimed, but adds no name to the storage root; so an inclusion that wants another member and another
variant cannot tell whether it was there. Without it the host gets the same verdicts and diagnostics
for the rest, and the same accessors and wrappers are generated.
-/

namespace Composer

structure Claims.AlikeFor (first second : Claims) (inclusion : Inclusion) : Prop where
  storageFields :
    inclusion.storageField ∈ first.storageFields ↔ inclusion.storageField ∈ second.storageFields
  eventVariants :
    inclusion.eventVariant ∈ first.eventVariants ↔ inclusion.eventVariant ∈ second.eventVariants
  rootNames : first.rootNames = second.rootNames

def Inclusion.Apart (first second : Inclusion) : Prop :=
  first.storageField ≠ second.storageField ∧ first.eventVariant ≠ second.eventVariant

def Host.without (host : Host) (index : Nat) : Host :=
  { host with inclusions := host.inclusions.eraseIdx index }

namespace Host

variable (host : Host) (registry : Registry) (defaultLayout : Layout)

def findings : List (List Diagnostic) :=
  (host.judge registry defaultLayout host.initialClaims host.inclusions).map (·.2)

theorem findings_length :
    (host.findings registry defaultLayout).length = host.inclusions.length := by
  rw [findings, List.length_map, judge_length]

theorem validate_diagnostics_eq :
    (host.validate registry defaultLayout).diagnostics =
      host.repeatedNames ++ (host.findings registry defaultLayout).flatten := by
  rw [validate, findings, List.flatMap_def]

variable {host registry defaultLayout}

/-! ### One inclusion -/

/-- Whatever is found against an inclusion is found where it stands. -/
theorem judgement_spans (claims : Claims) (inclusion : Inclusion) :
    ∀ diagnostic ∈ (host.judgement registry defaultLayout claims inclusion).2,
      diagnostic.span = inclusion.span := by
  intro diagnostic found
  rw [judgement] at found
  cases registered : registry.get? inclusion.component with
  | none =>
      simp only [registered] at found
      split at found
      · cases found
      · rw [List.mem_singleton.mp found, Diagnostic.span]
  | some component =>
      simp only [registered, List.mem_append] at found
      rcases found with storage | events
      · rw [storageFindings] at storage
        split at storage
        · rw [List.mem_singleton.mp storage, Diagnostic.span]
        · split at storage
          · rw [List.mem_singleton.mp storage, Diagnostic.span]
          · rcases List.mem_filterMap.mp storage with ⟨field, _, collides⟩
            rcases Option.map_eq_some_iff.mp collides with ⟨owner, _, same⟩
            rw [← same, Diagnostic.span]
          · cases storage
      · rw [eventFindings] at events
        split at events
        · rw [List.mem_singleton.mp events, Diagnostic.span]
        · split at events
          · cases events
          · rw [List.mem_singleton.mp events, Diagnostic.span]

theorem judgement_of_alike {first second : Claims} {inclusion : Inclusion}
    (alike : first.AlikeFor second inclusion) :
    host.judgement registry defaultLayout first inclusion =
      host.judgement registry defaultLayout second inclusion := by
  simp only [judgement, storageFindings, eventFindings, alike.storageFields, alike.eventVariants,
    alike.rootNames]

theorem storage_findings_of_alike {first second : Claims} {inclusion : Inclusion}
    (alike : first.AlikeFor second inclusion) (component : Component) :
    host.storageFindings defaultLayout first inclusion component =
      host.storageFindings defaultLayout second inclusion component := by
  simp only [storageFindings, alike.storageFields, alike.rootNames]

/-- Claims that an inclusion cannot tell apart stay alike for others when it makes its own. -/
theorem advance_of_alike {first second : Claims} {inclusion later : Inclusion}
    (here : first.AlikeFor second inclusion) (there : first.AlikeFor second later) :
    (host.advance registry defaultLayout first inclusion).AlikeFor
      (host.advance registry defaultLayout second inclusion) later := by
  cases found : registry.get? inclusion.component with
  | none =>
      rw [advance_unregistered found, advance_unregistered found]
      exact there
  | some component =>
      constructor
      · simp only [advance_storage_fields found, List.mem_cons, there.storageFields]
      · simp only [advance_event_variants found, List.mem_cons, there.eventVariants]
      · simp only [advance, found, claim, storage_findings_of_alike here, here.rootNames]

/-- An invalid inclusion leaves no trace for one that is apart from it. -/
theorem advance_of_invalid {claims : Claims} {bad later : Inclusion}
    (invalid : (host.judgement registry defaultLayout claims bad).1 = .invalid)
    (apart : later.Apart bad) :
    (host.advance registry defaultLayout claims bad).AlikeFor claims later := by
  cases found : registry.get? bad.component with
  | none =>
      rw [advance_unregistered found]
      exact ⟨Iff.rfl, Iff.rfl, rfl⟩
  | some component =>
      have unsound : host.storageFindings defaultLayout claims bad component ≠ [] := by
        intro sound
        exact judgement_accepted.mpr ⟨component, found, sound⟩ invalid
      constructor
      · simp only [advance_storage_fields found, List.mem_cons, apart.1, false_or]
      · simp only [advance_event_variants found, List.mem_cons, apart.2, false_or]
      · simp [advance, found, claim, unsound]

/-! ### All inclusions -/

theorem judge_of_alike {first second : Claims} (inclusions : List Inclusion)
    (alike : ∀ inclusion ∈ inclusions, first.AlikeFor second inclusion) :
    host.judge registry defaultLayout first inclusions =
      host.judge registry defaultLayout second inclusions := by
  induction inclusions generalizing first second with
  | nil => rfl
  | cons inclusion rest ih =>
      rcases List.forall_mem_cons.mp alike with ⟨here, later⟩
      rw [judge_cons, judge_cons, judgement_of_alike here]
      rw [ih fun other member => advance_of_alike here (later other member)]

/-- The run with an invalid inclusion is the run without it and one entry more. -/
theorem judge_erase {claims : Claims} (inclusions : List Inclusion) (index : Nat) {bad : Inclusion}
    (present : inclusions[index]? = some bad)
    (invalid : ((host.judge registry defaultLayout claims inclusions).map (·.1))[index]? =
      some .invalid)
    (alone : ∀ other ∈ inclusions.eraseIdx index, other.Apart bad) :
    host.judge registry defaultLayout claims (inclusions.eraseIdx index) =
      (host.judge registry defaultLayout claims inclusions).eraseIdx index := by
  induction inclusions generalizing claims index with
  | nil => cases present
  | cons inclusion rest ih =>
      rw [judge_cons] at invalid ⊢
      cases index with
      | zero =>
          cases present
          rw [List.map_cons, List.getElem?_cons_zero] at invalid
          apply (judge_of_alike rest _).symm
          intro other member
          exact advance_of_invalid (Option.some.inj invalid) (alone other member)
      | succ index =>
          rw [List.eraseIdx_cons_succ] at alone
          rw [List.getElem?_cons_succ] at present
          rw [List.map_cons, List.getElem?_cons_succ] at invalid
          rw [List.eraseIdx_cons_succ, List.eraseIdx_cons_succ, judge_cons]
          rw [ih index present invalid fun other member =>
            alone other (List.mem_cons_of_mem _ member)]

/-- Judging reads the members and variants of a host, not the inclusions that stand in it. -/
theorem judge_without (index : Nat) (claims : Claims) (inclusions : List Inclusion) :
    (host.without index).judge registry defaultLayout claims inclusions =
      host.judge registry defaultLayout claims inclusions := by
  induction inclusions generalizing claims with
  | nil => rfl
  | cons inclusion rest ih =>
      have judged : (host.without index).judgement registry defaultLayout claims inclusion =
          host.judgement registry defaultLayout claims inclusion := rfl
      have advanced : (host.without index).advance registry defaultLayout claims inclusion =
          host.advance registry defaultLayout claims inclusion := rfl
      rw [judge_cons, judge_cons, judged, advanced, ih]

/-! ### Without the inclusion -/

section Without

variable {index : Nat} {bad : Inclusion}

/-- The judgements of a host without an invalid inclusion. -/
theorem judge_without_invalid (present : host.inclusions[index]? = some bad)
    (invalid : (host.validate registry defaultLayout).verdicts[index]? = some .invalid)
    (alone : ∀ other ∈ (host.without index).inclusions, other.Apart bad) :
    (host.without index).judge registry defaultLayout (host.without index).initialClaims
        (host.without index).inclusions =
      (host.judge registry defaultLayout host.initialClaims host.inclusions).eraseIdx index := by
  rw [judge_without]
  exact judge_erase host.inclusions index present invalid alone

theorem verdicts_without_invalid (present : host.inclusions[index]? = some bad)
    (invalid : (host.validate registry defaultLayout).verdicts[index]? = some .invalid)
    (alone : ∀ other ∈ (host.without index).inclusions, other.Apart bad) :
    ((host.without index).validate registry defaultLayout).verdicts =
      (host.validate registry defaultLayout).verdicts.eraseIdx index := by
  have judged := judge_without_invalid present invalid alone
  simp only [validate, judged, List.eraseIdx_map]

theorem findings_without_invalid (present : host.inclusions[index]? = some bad)
    (invalid : (host.validate registry defaultLayout).verdicts[index]? = some .invalid)
    (alone : ∀ other ∈ (host.without index).inclusions, other.Apart bad) :
    (host.without index).findings registry defaultLayout =
      (host.findings registry defaultLayout).eraseIdx index := by
  have judged := judge_without_invalid present invalid alone
  simp only [findings, judged, List.eraseIdx_map]

theorem zip_erase {First Second : Type} (firsts : List First) (seconds : List Second)
    (index : Nat) :
    (firsts.zip seconds).eraseIdx index =
      (firsts.eraseIdx index).zip (seconds.eraseIdx index) := by
  induction firsts generalizing seconds index with
  | nil => rfl
  | cons first rest ih =>
      cases seconds with
      | nil =>
          rw [List.zip_nil_right, List.eraseIdx_nil, List.eraseIdx_nil, List.zip_nil_right]
      | cons second others =>
          cases index with
          | zero => rfl
          | succ index =>
              simp only [List.zip_cons_cons, List.eraseIdx_cons_succ, ih]

theorem filter_map_erase_none {Element : Type} (elements : List (Option Element)) (index : Nat)
    (absent : elements[index]? = some none) :
    (elements.eraseIdx index).filterMap id = elements.filterMap id := by
  induction elements generalizing index with
  | nil => rfl
  | cons element rest ih =>
      cases index with
      | zero =>
          cases absent
          rfl
      | succ index =>
          rw [List.getElem?_cons_succ] at absent
          rw [List.eraseIdx_cons_succ, List.filterMap_cons, List.filterMap_cons, ih index absent]

/-- Nothing was generated for the inclusion that is gone, so what is generated stays. -/
theorem generated_without_invalid (contractState : String)
    (present : host.inclusions[index]? = some bad)
    (invalid : (host.validate registry defaultLayout).verdicts[index]? = some .invalid)
    (alone : ∀ other ∈ (host.without index).inclusions, other.Apart bad) :
    ((host.without index).generatedAll registry contractState defaultLayout).filterMap id =
      (host.generatedAll registry contractState defaultLayout).filterMap id := by
  have same : ∀ inclusion verdict,
      (host.without index).generated registry contractState inclusion verdict =
        host.generated registry contractState inclusion verdict := by
    intro inclusion verdict
    rfl
  have erased : (host.without index).generatedAll registry contractState defaultLayout =
      (host.generatedAll registry contractState defaultLayout).eraseIdx index := by
    simp only [generatedAll, judged, verdicts_without_invalid present invalid alone, same,
      List.eraseIdx_map, zip_erase]
    rfl
  have entry : (host.judged registry defaultLayout)[index]? = some (bad, .invalid) :=
    List.getElem?_zip_eq_some.mpr ⟨present, invalid⟩
  have nothing : host.generated registry contractState bad .invalid = none := by
    unfold generated
    cases registry.get? bad.component <;> rfl
  have absent : (host.generatedAll registry contractState defaultLayout)[index]? = some none := by
    rw [generatedAll, List.getElem?_map, entry, Option.map_some, nothing]
  rw [erased]
  exact filter_map_erase_none _ index absent

end Without

/-- What is found against an inclusion stands where the inclusion does. -/
theorem findings_spans :
    ∀ pair ∈ host.inclusions.zip (host.findings registry defaultLayout),
      ∀ diagnostic ∈ pair.2, diagnostic.span = pair.1.span := by
  intro pair member
  rw [findings, List.zip_map_right] at member
  rcases List.mem_map.mp member with ⟨entry, judged, rfl⟩
  have judgement := zip_judge host registry defaultLayout host.initialClaims host.inclusions
    entry judged
  rcases judgement with ⟨earlier, same⟩
  intro diagnostic found
  apply judgement_spans earlier entry.1 diagnostic
  rw [← same]
  exact found

/-- One bad inclusion disturbs no independent one. Without an invalid inclusion whose member and
variant nobody else wants, all other verdicts and findings are what they were, in the same order,
and the same accessors and wrappers are generated. -/
theorem invalid_inclusion_disturbs_no_other (host : Host) (registry : Registry)
    (defaultLayout : Layout) (contractState : String) (index : Nat) (bad : Inclusion)
    (present : host.inclusions[index]? = some bad)
    (invalid : (host.validate registry defaultLayout).verdicts[index]? = some .invalid)
    (alone : ∀ position other, host.inclusions[position]? = some other → position ≠ index →
      other.storageField ≠ bad.storageField ∧ other.eventVariant ≠ bad.eventVariant) :
    let others := host.without index
    let findings := host.findings registry defaultLayout
    (others.validate registry defaultLayout).verdicts =
        (host.validate registry defaultLayout).verdicts.eraseIdx index ∧
      findings.length = host.inclusions.length ∧
      (∀ pair ∈ host.inclusions.zip findings, ∀ diagnostic ∈ pair.2,
        diagnostic.span = pair.1.span) ∧
      (host.validate registry defaultLayout).diagnostics =
        host.repeatedNames ++ findings.flatten ∧
      (others.validate registry defaultLayout).diagnostics =
        host.repeatedNames ++ (findings.eraseIdx index).flatten ∧
      (others.compile registry contractState defaultLayout).1.output.accessors =
        (host.compile registry contractState defaultLayout).1.output.accessors ∧
      (others.compile registry contractState defaultLayout).1.output.wrappers =
        (host.compile registry contractState defaultLayout).1.output.wrappers := by
  have apart : ∀ other ∈ (host.without index).inclusions, other.Apart bad := by
    intro other member
    rcases List.mem_eraseIdx_iff_getElem?.mp member with ⟨position, elsewhere, stands⟩
    exact alone position other stands elsewhere
  have generated := generated_without_invalid contractState present invalid apart
  intro others findings
  constructor
  · exact verdicts_without_invalid present invalid apart
  constructor
  · exact host.findings_length registry defaultLayout
  constructor
  · exact findings_spans
  constructor
  · exact host.validate_diagnostics_eq registry defaultLayout
  constructor
  · rw [validate_diagnostics_eq, findings_without_invalid present invalid apart]
    rfl
  constructor
  · rw [compile_accessors, compile_accessors, generated]
  · rw [compile_wrappers, compile_wrappers, generated]

/-- A second flat counter collides with the first and is gone; the nested one behind it stays. -/
theorem colliding_counter_disturbs_no_other :
    let host : Host := { counterHost with
      storage := ⟨"again", "counter::Storage", .layout .flat, .point 1 1⟩ :: counterHost.storage
      events := ⟨"Again", some "counter::Event", .point 1 1⟩ :: counterHost.events
      inclusions := counterHost.inclusions.insertIdx 1 ⟨"counter", "again", "Again", .point 2 1⟩ }
    (host.validate counterRegistry .flat).verdicts = [.valid, .invalid, .valid] ∧
      ((host.without 1).validate counterRegistry .flat).verdicts = [.valid, .valid] ∧
      ((host.without 1).compile counterRegistry "ContractState" .flat).1.output.wrappers =
        (host.compile counterRegistry "ContractState" .flat).1.output.wrappers := by
  intro host
  have verdicts : (host.validate counterRegistry .flat).verdicts = [.valid, .invalid, .valid] := by
    decide +kernel
  have alone : ∀ position other, host.inclusions[position]? = some other → position ≠ 1 →
      other.storageField ≠ "again" ∧ other.eventVariant ≠ "Again" := by
    have apart : ∀ other ∈ counterHost.inclusions,
        other.storageField ≠ "again" ∧ other.eventVariant ≠ "Again" := by
      decide
    intro position other stands elsewhere
    apply apart other
    exact List.mem_eraseIdx_iff_getElem?.mpr ⟨position, elsewhere, stands⟩
  have undisturbed := invalid_inclusion_disturbs_no_other host counterRegistry .flat
    "ContractState" 1 ⟨"counter", "again", "Again", .point 2 1⟩ rfl (by rw [verdicts]; rfl) alone
  constructor
  · exact verdicts
  constructor
  · rw [undisturbed.1, verdicts]
    rfl
  · exact undisturbed.2.2.2.2.2.2

end Host

end Composer
