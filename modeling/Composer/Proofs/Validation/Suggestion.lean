import Composer.Proofs.Validation.Judgement
import Composer.Proofs.Compilation.Stages

/-!
The default layout. It is written into the declarations that reports suggest and has no other effect:
verdicts, the number of findings and everything generated are the same under both layouts.
-/

namespace Composer

/-- A verdict asks only whether anything was found. -/
theorem Verdict.of_findings_length {storage others : List Diagnostic}
    (same : storage.length = others.length) (events : List Diagnostic) :
    Verdict.ofFindings storage events = Verdict.ofFindings others events := by
  cases storage with
  | nil =>
      rw [List.length_eq_zero_iff.mp same.symm]
  | cons first rest =>
      cases others with
      | nil => cases same
      | cons other more => cases events <;> rfl

namespace Host

variable (host : Host) (registry : Registry) (layout other : Layout)

theorem storage_findings_length (claims : Claims) (inclusion : Inclusion) (component : Component) :
    (host.storageFindings layout claims inclusion component).length =
      (host.storageFindings other claims inclusion component).length := by
  rw [storageFindings, storageFindings]
  by_cases claimed : inclusion.storageField ∈ claims.storageFields
  · rw [if_pos claimed, if_pos claimed]
  · rw [if_neg claimed, if_neg claimed]
    cases host.layoutFor? inclusion.storageField component with
    | none => rfl
    | some held => cases held <;> rfl

theorem judgement_size (claims : Claims) (inclusion : Inclusion) :
    (host.judgement registry layout claims inclusion).1 =
        (host.judgement registry other claims inclusion).1 ∧
      (host.judgement registry layout claims inclusion).2.length =
        (host.judgement registry other claims inclusion).2.length := by
  rw [judgement, judgement]
  cases registry.get? inclusion.component with
  | none => exact ⟨rfl, rfl⟩
  | some component =>
      have lengths := host.storage_findings_length layout other claims inclusion component
      constructor
      · exact Verdict.of_findings_length lengths _
      · simp only [List.length_append, lengths]

theorem advance_under (claims : Claims) (inclusion : Inclusion) :
    host.advance registry layout claims inclusion =
      host.advance registry other claims inclusion := by
  rw [advance, advance]
  cases registry.get? inclusion.component with
  | none => rfl
  | some component =>
      have lengths := host.storage_findings_length layout other claims inclusion component
      have empty : (host.storageFindings layout claims inclusion component).isEmpty =
          (host.storageFindings other claims inclusion component).isEmpty := by
        rw [Bool.eq_iff_iff, List.isEmpty_iff_length_eq_zero, List.isEmpty_iff_length_eq_zero,
          lengths]
      simp only [empty]

theorem judge_sizes (claims : Claims) (inclusions : List Inclusion) :
    (host.judge registry layout claims inclusions).map (fun judged => (judged.1, judged.2.length)) =
      (host.judge registry other claims inclusions).map
        fun judged => (judged.1, judged.2.length) := by
  induction inclusions generalizing claims with
  | nil => rfl
  | cons inclusion rest ih =>
      obtain ⟨verdict, findings⟩ := host.judgement_size registry layout other claims inclusion
      rw [judge_cons, judge_cons, List.map_cons, List.map_cons, verdict, findings,
        host.advance_under registry layout other, ih]

theorem validate_verdicts_under :
    (host.validate registry layout).verdicts = (host.validate registry other).verdicts := by
  have sizes := congrArg (List.map Prod.fst)
    (host.judge_sizes registry layout other host.initialClaims host.inclusions)
  rw [List.map_map, List.map_map] at sizes
  exact sizes

theorem validate_findings_under :
    (host.validate registry layout).diagnostics.length =
      (host.validate registry other).diagnostics.length := by
  have sizes := congrArg (List.map Prod.snd)
    (host.judge_sizes registry layout other host.initialClaims host.inclusions)
  rw [List.map_map, List.map_map] at sizes
  simp only [validate, List.length_append, List.length_flatMap]
  exact congrArg (_ + ·) (congrArg List.sum sizes)

theorem compile_under (contractState : String) :
    (host.compile registry contractState layout).1 =
        (host.compile registry contractState other).1 ∧
      (host.compile registry contractState layout).2.length =
        (host.compile registry contractState other).2.length := by
  have verdicts := host.validate_verdicts_under registry layout other
  have findings := host.validate_findings_under registry layout other
  constructor
  · simp only [compile, verdicts]
  · simp only [compile, verdicts, List.length_append, findings]

end Host

theorem compile_contracts_under (registry : Registry) (contractState : String)
    (layout other : Layout) (seen : List String) (decls : List (Located ContractDecl)) :
    (compileContracts registry contractState layout seen decls).1 =
        (compileContracts registry contractState other seen decls).1 ∧
      (compileContracts registry contractState layout seen decls).2.length =
        (compileContracts registry contractState other seen decls).2.length := by
  induction decls generalizing seen with
  | nil => exact ⟨rfl, rfl⟩
  | cons decl rest ih =>
      rcases decl with ⟨file, content⟩
      rw [compileContracts, compileContracts]
      by_cases repeated : content.name.name ∈ seen
      · simp only [if_pos repeated, List.length_cons, ih, and_self]
      · obtain ⟨compiled, findings⟩ :=
          (content.host file).compile_under registry layout other contractState
        simp only [if_neg repeated, List.length_append, List.length_map, compiled, findings, ih,
          and_self]

end Composer
