import Composer.Proofs.Synthesis.Gating

/-!
What a host reads of a registry: the components that its inclusions and the paths of its exposures
name, and nothing else. So the order of a registry and the components that a host does not name make
no difference to what is compiled for it.
-/

namespace Composer

namespace Host

structure SameRegistered (host : Host) (registry other : Registry) : Prop where
  included : ∀ inclusion ∈ host.inclusions,
    registry.get? inclusion.component = other.get? inclusion.component
  rejected : ∀ inclusion ∈ host.inclusions,
    registry.isRejected inclusion.component = other.isRejected inclusion.component
  targeted : ∀ exposure ∈ host.exposures, ∀ name aliasName,
    exposure.target? = some (name, aliasName) → registry.get? name = other.get? name

variable {host : Host} {registry other : Registry} (contractState : String)
  (defaultLayout : Layout)

theorem judge_congr (claims : Claims) (inclusions : List Inclusion)
    (included : ∀ inclusion ∈ inclusions,
      registry.get? inclusion.component = other.get? inclusion.component)
    (rejected : ∀ inclusion ∈ inclusions,
      registry.isRejected inclusion.component = other.isRejected inclusion.component) :
    host.judge registry defaultLayout claims inclusions =
      host.judge other defaultLayout claims inclusions := by
  induction inclusions generalizing claims with
  | nil => rfl
  | cons inclusion rest ih =>
      rcases List.forall_mem_cons.mp included with ⟨sameHere, sameLater⟩
      rcases List.forall_mem_cons.mp rejected with ⟨rejectedHere, rejectedLater⟩
      have judged : host.judgement registry defaultLayout claims inclusion =
          host.judgement other defaultLayout claims inclusion := by
        rw [judgement, judgement, sameHere, rejectedHere]
      have advanced : host.advance registry defaultLayout claims inclusion =
          host.advance other defaultLayout claims inclusion := by
        rw [advance, advance, sameHere]
      rw [judge_cons, judge_cons, judged, advanced]
      rw [ih _ sameLater rejectedLater]

theorem validate_congr (same : host.SameRegistered registry other) :
    host.validate registry defaultLayout = host.validate other defaultLayout := by
  unfold validate
  rw [judge_congr defaultLayout host.initialClaims host.inclusions same.included same.rejected]

theorem generated_all_congr (same : host.SameRegistered registry other) :
    host.generatedAll registry contractState defaultLayout =
      host.generatedAll other contractState defaultLayout := by
  have judged : host.judged registry defaultLayout = host.judged other defaultLayout := by
    unfold judged
    rw [validate_congr defaultLayout same]
  unfold generatedAll
  rw [judged]
  apply List.map_congr_left
  intro pair member
  have included : pair.1 ∈ host.inclusions := (List.of_mem_zip member).1
  simp only [generated, same.included pair.1 included]

theorem inclusion_links_congr (same : host.SameRegistered registry other)
    (generated : List (Option Generated)) :
    List.zipWith (host.inclusionLinks registry) host.inclusions generated =
      List.zipWith (host.inclusionLinks other) host.inclusions generated := by
  have links : ∀ inclusion ∈ host.inclusions,
      host.inclusionLinks registry inclusion = host.inclusionLinks other inclusion := by
    intro inclusion member
    funext produced
    cases produced with
    | none => rfl
    | some produced => rw [inclusionLinks, inclusionLinks, same.included inclusion member]
  generalize host.inclusions = inclusions at links
  induction inclusions generalizing generated with
  | nil => rfl
  | cons inclusion rest ih =>
      rcases List.forall_mem_cons.mp links with ⟨here, later⟩
      cases generated with
      | nil => rfl
      | cons produced others =>
          rw [List.zipWith_cons_cons, List.zipWith_cons_cons, here, ih others later]

theorem select_congr (generated : List (Option Generated)) {exposure : Exposure}
    (targeted : ∀ name aliasName, exposure.target? = some (name, aliasName) →
      registry.get? name = other.get? name) :
    host.select registry generated contractState exposure =
      host.select other generated contractState exposure := by
  unfold select
  cases target : exposure.target? with
  | none => rfl
  | some names =>
      rcases names with ⟨name, aliasName⟩
      have found := targeted name aliasName target
      simp only [found]

theorem surface_congr (same : host.SameRegistered registry other)
    (generated : List (Option Generated)) :
    host.surface registry generated contractState =
      host.surface other generated contractState := by
  unfold surface
  have targeted := same.targeted
  generalize host.exposures = exposures at targeted
  generalize ([] : List String) = taken
  induction exposures generalizing taken with
  | nil => rfl
  | cons exposure rest ih =>
      rcases List.forall_mem_cons.mp targeted with ⟨here, later⟩
      have selected : host.select registry generated contractState exposure =
          host.select other generated contractState exposure :=
        select_congr contractState generated here
      simp only [surfaceAfter, selected, ih later]

/-- What is compiled for a host depends on the registry only through the components that the host
names. -/
theorem compile_congr (same : host.SameRegistered registry other) :
    host.compile registry contractState defaultLayout =
      host.compile other contractState defaultLayout := by
  have validated := validate_congr defaultLayout same
  have generated := generated_all_congr contractState defaultLayout same
  rw [← zip_with_generated, ← zip_with_generated, validated] at generated
  simp only [compile, validated, generated, surface_congr contractState same,
    inclusion_links_congr same]

end Host

end Composer
