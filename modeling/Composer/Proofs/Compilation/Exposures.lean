import Composer.Proofs.Compilation.Completeness
import Composer.Proofs.Compilation.Limit
import Composer.Proofs.Surface.FirstCome
import Composer.Proofs.Synthesis.Removal

/-!
What becomes of every exposure. One that is taken spells a valid inclusion, and what is recorded of it
is what it spells. Every other one is reported, or skipped over an inclusion that is reported itself;
so without errors all of them are taken.
-/

namespace Composer

/-! ### Components -/

/-- What a declaration makes refused is reported with a defect of that declaration. -/
theorem Registry.refused_by {registry : Registry} {decl : ComponentDecl} {file name : String}
    (rejected : (registry.add decl file).isRejected name = true) :
    registry.isRejected name = true ∨ ∃ defect span,
      .malformedComponent name defect span ∈ registry.refusals decl file := by
  rw [add] at rejected
  rcases registry.register_cases decl file with
    ⟨_, outcome⟩ | ⟨_, _, outcome⟩ | ⟨_, faulty, outcome⟩
  · rw [outcome] at rejected
    exact .inl rejected
  · rw [outcome] at rejected
    exact .inl rejected
  · rw [outcome, isRejected, List.contains_iff_mem, List.mem_cons] at rejected
    rcases rejected with rfl | before
    · obtain ⟨fault, found⟩ := List.exists_mem_of_ne_nil _ faulty
      refine .inr ⟨fault.defect, fault.span, ?_⟩
      rw [refusals, outcome]
      exact List.mem_map.mpr ⟨fault, found, rfl⟩
    · exact .inl (List.contains_iff_mem.mpr before)

theorem rejection_reported {registry : Registry} {decls : List (Located ComponentDecl)}
    {name : String} (rejected : (registerAll registry decls).1.isRejected name = true) :
    registry.isRejected name = true ∨ ∃ finding ∈ (registerAll registry decls).2,
      ∃ defect span, finding.content = .malformedComponent name defect span := by
  induction decls generalizing registry with
  | nil => exact .inl rejected
  | cons decl rest ih =>
      rcases ih rejected with before | ⟨finding, later, malformed⟩
      · refine (Registry.refused_by before).imp_right ?_
        intro reported
        obtain ⟨defect, span, found⟩ := reported
        exact ⟨⟨decl.file, _⟩, List.mem_append_left _ (List.mem_map.mpr ⟨_, found, rfl⟩), defect,
          span, rfl⟩
      · exact .inr ⟨finding, List.mem_append_right _ later, malformed⟩

namespace Host

variable (host : Host) (registry : Registry) (contractState : String) (defaultLayout : Layout)

/-- What is recorded of an exposure is what it spells of a valid inclusion. -/
def Brings (exposure : Exposure) (exposed : Exposed) : Prop :=
  ∃ inclusion aliasName, host.Spells registry contractState exposure inclusion aliasName ∧
    (inclusion, .valid) ∈ host.judged registry defaultLayout ∧
    exposed =
      { localName := exposure.localName, component := inclusion.component, aliasName,
        accessor := inclusion.accessorName, embedded := exposure.embedded,
        span := exposure.span }

/-- The reasons to leave an exposure out, each with what is reported: against the exposure, against the
inclusion over which it is skipped, or against the component of that inclusion. -/
inductive Omits (findings : List (Located Diagnostic)) (exposure : Exposure) : Prop
  | refused {diagnostic : Diagnostic} :
      host.Refuses registry contractState exposure diagnostic →
      ⟨host.file, diagnostic⟩ ∈ findings → Omits findings exposure
  | skipped {inclusion : Inclusion} {diagnostic : Diagnostic} :
      host.Skips registry contractState defaultLayout exposure inclusion →
      ⟨host.file, diagnostic⟩ ∈ findings → diagnostic.span = inclusion.span →
      Omits findings exposure
  | rejected {inclusion : Inclusion} {finding : Located Diagnostic} {defect : Defect}
      {span : Span} :
      host.Skips registry contractState defaultLayout exposure inclusion →
      finding ∈ findings → finding.content = .malformedComponent inclusion.component defect span →
      Omits findings exposure

variable {host registry contractState defaultLayout}

/-! ### Inclusions -/

/-- An inclusion that is not valid is reported where it stands, unless its component was refused. -/
theorem unsound_reported {inclusion : Inclusion} {verdict : Verdict}
    (judged : (inclusion, verdict) ∈ host.judged registry defaultLayout)
    (unsound : verdict ≠ .valid) :
    registry.isRejected inclusion.component ∨
      ∃ diagnostic ∈ (host.validate registry defaultLayout).diagnostics,
        diagnostic.span = inclusion.span := by
  obtain ⟨claims, same, reported⟩ := host.judged_judgement registry defaultLayout _ judged
  by_cases clean : (host.judgement registry defaultLayout claims inclusion).2 = []
  · left
    cases found : registry.get? inclusion.component with
    | none => exact (judgement_clean_of_missing found).mp clean
    | some component =>
        have sound := (judgement_clean_of_found found).mp clean
        exact absurd (same.trans (judgement_valid.mpr ⟨component, found, sound⟩)) unsound
  · right
    obtain ⟨diagnostic, found⟩ := List.exists_mem_of_ne_nil _ clean
    exact ⟨diagnostic, reported found, judgement_spans claims inclusion diagnostic found⟩

/-! ### Exposures -/

theorem Selects.brings {exposure : Exposure} {inclusion : Inclusion} {impl : Implementation}
    {wrapper : Wrapper}
    (selects : host.Selects registry contractState defaultLayout exposure inclusion impl wrapper) :
    host.Brings registry contractState defaultLayout exposure (exposure.take wrapper) := by
  refine ⟨inclusion, wrapper.aliasName, selects.spells, selects.valid, ?_⟩
  rw [Exposure.take, selects.serves.component, selects.serves.accessor]

section Takings

variable {generated : List (Option Generated)}

theorem select_of_taking {exposures : List Exposure} {taking : Exposure × Wrapper}
    (member : taking ∈ host.takings registry generated contractState exposures) :
    host.select registry generated contractState taking.1 = .wrapper taking.2 := by
  obtain ⟨exposure, _, found⟩ := List.mem_filterMap.mp member
  split at found
  · next chosen =>
      cases found
      exact chosen
  · cases found
  · cases found

theorem takings_sublist (exposures : List Exposure) :
    ((host.takings registry generated contractState exposures).map (·.1)).Sublist exposures := by
  induction exposures with
  | nil => exact List.Sublist.refl _
  | cons exposure rest ih =>
      cases chosen : host.select registry generated contractState exposure with
      | wrapper wrapper =>
          rw [takings_cons_of_wrapper rest chosen, List.map_cons]
          exact ih.cons_cons _
      | refused _ | silent =>
          rw [takings_cons_of_none rest (by simp [chosen])]
          exact ih.cons _

/-- The report of a refused exposure is among those of the surface. -/
theorem refused_reported {exposure : Exposure} {diagnostic : Diagnostic}
    (member : exposure ∈ host.exposures)
    (refused : host.select registry generated contractState exposure = .refused diagnostic) :
    diagnostic ∈ (host.surface registry generated contractState).diagnostics := by
  have listed : diagnostic ∈ host.refusals registry generated contractState host.exposures :=
    List.mem_filterMap.mpr ⟨exposure, member, by rw [refused]⟩
  obtain ⟨_, _, _, others⟩ :=
    host.surface_after_offers registry generated contractState [] host.exposures
  rw [← others] at listed
  exact (List.mem_filter.mp listed).1

end Takings

theorem taking_brings (reachable : registry.Reachable) {exposures : List Exposure}
    {taking : Exposure × Wrapper}
    (member : taking ∈ host.takings registry
      (host.generatedAll registry contractState defaultLayout) contractState exposures) :
    host.Brings registry contractState defaultLayout taking.1 (taking.1.take taking.2) := by
  have chosen := select_of_taking member
  rcases select_outcomes reachable taking.1 with
    ⟨diagnostic, refused⟩ | ⟨wrapper, inclusion, impl, found, selects⟩ | ⟨inclusion, silent, _⟩
  · rw [chosen] at refused
    cases refused
  · rw [chosen] at found
    cases found
    exact selects.brings
  · rw [chosen] at silent
    cases silent

variable (contractState defaultLayout) in
/-- Some of the exposures of a host bring what is exposed, one each and in order; all others are left
out for a reason that is reported. -/
theorem compile_brings (reachable : registry.Reachable) {findings : List (Located Diagnostic)}
    (own : ∀ diagnostic ∈ (host.compile registry contractState defaultLayout).2,
      ⟨host.file, diagnostic⟩ ∈ findings)
    (rejections : ∀ name, registry.isRejected name = true → ∃ finding ∈ findings,
      ∃ defect span, finding.content = .malformedComponent name defect span) :
    ∃ taken, taken.Sublist host.exposures ∧
      List.Forall₂ (host.Brings registry contractState defaultLayout) taken
        (host.compile registry contractState defaultLayout).1.exposed ∧
      ∀ exposure ∈ host.exposures, exposure ∉ taken →
        host.Omits registry contractState defaultLayout findings exposure := by
  rw [compile_diagnostics, List.forall_mem_append] at own
  obtain ⟨ownInclusions, ownExposures⟩ := own
  refine ⟨(host.takings registry (host.generatedAll registry contractState defaultLayout)
    contractState host.exposures).map (·.1), takings_sublist host.exposures, ?_, ?_⟩
  · rw [compile_exposed, surface, (host.surface_after_offers registry _ contractState [] _).1,
      List.forall₂_map_left_iff, List.forall₂_map_right_iff, List.forall₂_same]
    intro taking member
    exact taking_brings reachable member
  · intro exposure member untaken
    rcases select_outcomes reachable exposure with
      ⟨diagnostic, refused⟩ | ⟨wrapper, _, _, chosen, _⟩ | ⟨inclusion, _, skips⟩
    · apply Omits.refused (select_refused_iff.mp refused)
      exact ownExposures diagnostic (refused_reported member refused)
    · apply absurd _ untaken
      exact List.mem_map.mpr ⟨(exposure, wrapper),
        List.mem_filterMap.mpr ⟨exposure, member, by rw [chosen]⟩, rfl⟩
    · obtain ⟨verdict, judged, unsound⟩ := skips.unsound
      rcases unsound_reported judged unsound with rejected | ⟨diagnostic, found, span⟩
      · obtain ⟨finding, among, defect, span, malformed⟩ := rejections _ rejected
        exact .rejected skips among malformed
      · exact .skipped skips (ownInclusions diagnostic found) span

end Host

/-! ### Programs -/

theorem Compilation.rejection_found {files : List SourceFile} (options : Options) {name : String}
    (rejected : (registryOf files).isRejected name = true) :
    ∃ finding ∈ findings files options, ∃ defect span,
      finding.content = .malformedComponent name defect span := by
  rcases rejection_reported rejected with before | ⟨finding, found, malformed⟩
  · cases before
  · exact ⟨finding, List.mem_append_left _ found, malformed⟩

/-- Every exposed wrapper of a compilation comes from an exposure of its contract, in order, and is
what that exposure spells of a valid inclusion. All other exposures are left out for a reason that is
reported, so a compilation without errors leaves none out. -/
theorem exposures_bring_what_they_spell (files : List SourceFile) (options : Options) :
    ∀ compiled ∈ (Compilation.ofFiles files options).hosts,
      ∃ contract ∈ Compilation.contracts files, ∃ taken,
        let host := contract.content.host contract.file
        let registry := Compilation.registryOf files
        let layout := options.layout.toOption.getD .flat
        compiled = (host.compile registry options.contractState layout).1 ∧
          taken.Sublist host.exposures ∧
          List.Forall₂ (host.Brings registry options.contractState layout) taken
            compiled.exposed ∧
          (∀ exposure ∈ host.exposures, exposure ∉ taken →
            host.Omits registry options.contractState layout
              (Compilation.findings files options) exposure) ∧
          ((Compilation.ofFiles files options).success = true → taken = host.exposures) := by
  intro compiled member
  by_cases readable : Compilation.syntaxErrors files = 0
  · rw [Compilation.of_syntax_clean files options readable] at member
    obtain ⟨contract, present, same, reported⟩ := compiled_from_contract member
    have reachable : (Compilation.registryOf files).Reachable := register_all_reachable .empty _
    obtain ⟨taken, among, brings, omitted⟩ := Host.compile_brings options.contractState
      (options.layout.toOption.getD .flat) reachable
      (fun diagnostic found => List.mem_append_right _ (reported diagnostic found))
      fun _ => Compilation.rejection_found options
    refine ⟨contract, present, taken, same, among, same ▸ brings, omitted, ?_⟩
    intro succeeded
    obtain ⟨_, refusals, findings⟩ := (Compilation.stages_clean_iff files options).mp succeeded
    have noneRejected : (Compilation.registryOf files).rejected = [] := by
      rw [Compilation.registryOf, (register_all_clean refusals).1]
      rfl
    have clean := (compile_contracts_clean findings).2 contract present
    have complete := compile_complete reachable noneRejected clean
    apply among.eq_of_length
    rw [brings.length_eq, complete.exposed.length_eq]
  · rw [Compilation.of_unreadable files options readable] at member
    cases member

def detourProgram : List SourceFile :=
  [⟨"w.graft", "component c \x7b interface I \x7b fn f(self: @S); \x7d " ++
    "#[embeddable_as(A)] impl X of I; \x7d contract W \x7b " ++
    "component!(path: c, storage: s, event: E); component!(path: d, storage: t, event: F); " ++
    "impl L = c::x::A<S>; impl M = d::B<S>; " ++
    "storage \x7b #[substorage(v0)] s: c::Storage \x7d event \x7b E: c::Event \x7d \x7d"⟩]

theorem detour_brings_wrapper :
    let compilation := Compilation.ofFiles detourProgram ⟨"S", 20, "v0"⟩
    ∃ compiled ∈ compilation.hosts, ∃ contract ∈ Compilation.contracts detourProgram,
      let host := contract.content.host contract.file
      ∃ exposure ∈ host.exposures, ∃ exposed, compiled.exposed = [exposed] ∧
        host.Brings (Compilation.registryOf detourProgram) "S" .flat exposure exposed := by
  intro compilation
  have single : compilation.hosts.length = 1 := by decide +kernel
  obtain ⟨compiled, hosts⟩ := List.length_eq_one_iff.mp single
  have member : compiled ∈ compilation.hosts := by
    rw [hosts]
    exact List.mem_singleton_self compiled
  have taking : ∀ compiled ∈ compilation.hosts, compiled.exposed.length = 1 := by
    decide +kernel
  obtain ⟨exposed, only⟩ := List.length_eq_one_iff.mp (taking compiled member)
  obtain ⟨contract, present, taken, _, among, brings, _⟩ :=
    exposures_bring_what_they_spell detourProgram ⟨"S", 20, "v0"⟩ compiled member
  rw [only] at brings
  obtain ⟨exposure, _, first, _, rfl⟩ := List.forall₂_cons_right_iff.mp brings
  exact ⟨compiled, member, contract, present, exposure, among.subset List.mem_cons_self, exposed,
    only, first⟩

/-- The segment between is passed over without a report; the other exposure is neither taken nor
reported, only its inclusion is. -/
theorem detour_and_omission_unreported :
    let compilation := Compilation.ofFiles detourProgram ⟨"S", 20, "v0"⟩
    (Compilation.contracts detourProgram).map (fun contract =>
        (contract.content.host contract.file).exposures.map fun exposure =>
          (exposure.localName, exposure.path, exposure.generics)) =
        [[("L", ["c", "x", "A"], ["S"]), ("M", ["d", "B"], ["S"])]] ∧
      compilation.hosts.map (fun compiled => compiled.exposed.map fun exposed =>
        (exposed.localName, exposed.component, exposed.aliasName, exposed.accessor)) =
        [[("L", "c", "A", "HasComponentImpl_s")]] ∧
      (Compilation.findings detourProgram ⟨"S", 20, "v0"⟩).map (·.content) =
        [.unknownComponent "W" "d" ⟨⟨1, 138⟩, ⟨1, 178⟩⟩] := by
  decide +kernel

end Composer
