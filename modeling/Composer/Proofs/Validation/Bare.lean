import Composer.Proofs.Model.Bare
import Composer.Proofs.Validation.Judgement

/-!
Validation without places. A finding carries the span of what it is about; no verdict and no claim
depends on one.
-/

namespace Composer

namespace Host

variable (host : Host) (registry : Registry) (defaultLayout : Layout)

/-! ### The host by itself -/

theorem member_bare (name : String) :
    host.bare.member? name = (host.member? name).map HostMember.bare := by
  rw [member?, bare, List.find?_map]
  rfl

theorem variant_bare (name : String) :
    host.bare.variant? name = (host.variant? name).map EventVariant.bare := by
  rw [variant?, bare, List.find?_map]
  rfl

theorem repeated_names_bare :
    host.bare.repeatedNames = host.repeatedNames.map Diagnostic.bare := by
  simp only [repeatedNames, bare, repeatsBy, repeats_after_map, List.map_append, List.map_map]
  rfl

theorem root_names_bare : host.bare.rootNames = host.rootNames := by
  simp only [rootNames, bare, firstsBy, firsts_after_map, List.filterMap_map]
  rfl

theorem layout_for_bare (storageField : String) (component : Component) :
    host.bare.layoutFor? storageField component.bare =
      host.layoutFor? storageField component := by
  rw [layoutFor?, layoutFor?, member_bare]
  cases host.member? storageField <;> rfl

/-! ### One inclusion -/

variable (claims : Claims) (inclusion : Inclusion) (component : Component)

theorem collisions_bare (rootNames : List (String × NameOwner)) :
    host.bare.collisions rootNames inclusion.bare component.bare =
      (host.collisions rootNames inclusion component).map Diagnostic.bare := by
  simp only [collisions, Component.bare, List.filterMap_map, List.map_filterMap]
  apply List.filterMap_congr
  intro field _
  rw [Option.map_map]
  rfl

theorem storage_findings_bare :
    host.bare.storageFindings defaultLayout claims inclusion.bare component.bare =
      (host.storageFindings defaultLayout claims inclusion component).map Diagnostic.bare := by
  have field : inclusion.bare.storageField = inclusion.storageField := rfl
  rw [storageFindings, storageFindings, field, layout_for_bare]
  by_cases claimed : inclusion.storageField ∈ claims.storageFields
  · rw [if_pos claimed, if_pos claimed]
    rfl
  · rw [if_neg claimed, if_neg claimed]
    cases host.layoutFor? inclusion.storageField component with
    | none => rfl
    | some layout =>
        cases layout with
        | flat => exact host.collisions_bare inclusion component claims.rootNames
        | nested => rfl

theorem event_findings_bare :
    host.bare.eventFindings claims inclusion.bare component.bare =
      (host.eventFindings claims inclusion component).map Diagnostic.bare := by
  have nested : (host.bare.variant? inclusion.eventVariant).bind (·.payload) =
      (host.variant? inclusion.eventVariant).bind (·.payload) := by
    rw [variant_bare]
    cases host.variant? inclusion.eventVariant <;> rfl
  have variant : inclusion.bare.eventVariant = inclusion.eventVariant := rfl
  have payload : component.bare.eventType = component.eventType := rfl
  rw [eventFindings, eventFindings, variant, payload, nested]
  split_ifs <;> rfl

theorem claim_bare (storageIsSound : Bool) :
    host.bare.claim claims inclusion.bare component.bare storageIsSound =
      host.claim claims inclusion component storageIsSound := by
  have added : host.bare.addedRootNames inclusion.bare component.bare =
      host.addedRootNames inclusion component := by
    have field : inclusion.bare.storageField = inclusion.storageField := rfl
    rw [addedRootNames, addedRootNames, field, layout_for_bare, Component.bare, List.map_map]
    rfl
  rw [claim, claim, added]
  rfl

theorem judgement_bare :
    host.bare.judgement registry.bare defaultLayout claims inclusion.bare =
      let judged := host.judgement registry defaultLayout claims inclusion
      (judged.1, judged.2.map Diagnostic.bare) := by
  have named : inclusion.bare.component = inclusion.component := rfl
  have rejected : registry.bare.isRejected inclusion.component =
      registry.isRejected inclusion.component := rfl
  rw [judgement, judgement, named, rejected, Registry.get_bare]
  cases registry.get? inclusion.component with
  | none =>
      dsimp only [Option.map_none]
      split_ifs <;> rfl
  | some component =>
      dsimp only [Option.map_some]
      rw [storage_findings_bare, event_findings_bare, List.map_append]
      cases host.storageFindings defaultLayout claims inclusion component <;>
        cases host.eventFindings claims inclusion component <;> rfl

theorem advance_bare :
    host.bare.advance registry.bare defaultLayout claims inclusion.bare =
      host.advance registry defaultLayout claims inclusion := by
  have named : inclusion.bare.component = inclusion.component := rfl
  rw [advance, advance, named, Registry.get_bare]
  cases registry.get? inclusion.component with
  | none => rfl
  | some component =>
      dsimp only [Option.map_some]
      rw [storage_findings_bare, List.isEmpty_map, claim_bare]

/-! ### All inclusions -/

theorem judge_bare (inclusions : List Inclusion) :
    host.bare.judge registry.bare defaultLayout claims (inclusions.map Inclusion.bare) =
      (host.judge registry defaultLayout claims inclusions).map
        fun judged => (judged.1, judged.2.map Diagnostic.bare) := by
  induction inclusions generalizing claims with
  | nil => rfl
  | cons inclusion rest ih =>
      rw [List.map_cons, judge_cons, judge_cons, judgement_bare, advance_bare, ih, List.map_cons]

theorem validate_bare :
    host.bare.validate registry.bare defaultLayout =
      let validation := host.validate registry defaultLayout
      ⟨validation.verdicts, validation.diagnostics.map Diagnostic.bare⟩ := by
  have claims : host.bare.initialClaims = host.initialClaims := by
    rw [initialClaims, initialClaims, root_names_bare]
  have inclusions : host.bare.inclusions = host.inclusions.map Inclusion.bare := rfl
  rw [validate, claims, repeated_names_bare, inclusions, judge_bare]
  simp only [validate, List.map_map, List.map_append, List.flatMap_map, List.map_flatMap]
  rfl

end Host

end Composer
