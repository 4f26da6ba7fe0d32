import Composer.Proofs.Compilation.Limit
import Composer.Proofs.Declaration.Names
import Composer.Proofs.Registration.History
import Composer.Proofs.Synthesis.Capture
import Composer.Proofs.Synthesis.Legible

/-!
The text of a host as a code for what was generated. All names in it come from files that were read
without errors, so the text determines the host, its accessors and its wrappers, but for spans and
for implementations that no method calls. A fingerprint does the same as far as the digest does not
collide.
-/

namespace Composer

/-! ### Whole outputs -/

namespace GeneratedCode

/-- The code of an output, with an empty line before each part. -/
def codes (output : GeneratedCode) : List Code :=
  .line ("// contract " ++ output.host) ::
    (output.accessors.map Accessor.code ++ output.wrappers.map Wrapper.code).flatMap
      fun code => [.line "", code]

theorem render_parts (parts : List Code) :
    Code.renderAll 0 (parts.flatMap fun code => [.line "", code]) =
      String.join (parts.map fun code => "\n" ++ code.render) := by
  induction parts with
  | nil => rfl
  | cons code rest ih =>
      rw [List.map_cons, String.join_cons, ← ih, String.append_assoc]
      rfl

theorem render_eq (output : GeneratedCode) : output.render = Code.renderAll 0 output.codes := by
  have filled : "// contract " ++ output.host ≠ "" := by
    intro none
    have chars := congrArg String.toList none
    simp at chars
  have host : "// contract " ++ output.host ++ "\n" =
      Code.renderAt 0 (.line ("// contract " ++ output.host)) := by
    rw [Code.renderAt, Code.indented, if_neg filled]
    exact congrArg (· ++ "\n") String.empty_append.symm
  have accessors : (output.accessors.map fun accessor => "\n" ++ accessor.render) =
      (output.accessors.map Accessor.code).map fun code => "\n" ++ code.render := by
    rw [List.map_map]
    rfl
  have wrappers : (output.wrappers.map fun wrapper => "\n" ++ wrapper.render) =
      (output.wrappers.map Wrapper.code).map fun code => "\n" ++ code.render := by
    rw [List.map_map]
    rfl
  -- Unfolded by hand: a rewrite with the definition compares the two texts byte by byte.
  change "// contract " ++ output.host ++ "\n" ++
    String.join (output.accessors.map fun accessor => "\n" ++ accessor.render) ++
    String.join (output.wrappers.map fun wrapper => "\n" ++ wrapper.render) = _
  rw [accessors, wrappers, String.append_assoc, ← String.join_append, ← List.map_append,
    ← render_parts, host]
  rfl

structure Regular (output : GeneratedCode) (state : String) : Prop where
  host : IsWord output.host
  accessors : ∀ accessor ∈ output.accessors, accessor.Regular output.host state
  wrappers : ∀ wrapper ∈ output.wrappers, wrapper.Regular state

/-- Outputs that are the same but for spans and for implementations that no method calls. -/
structure SameCode (first second : GeneratedCode) : Prop where
  host : first.host = second.host
  accessors : first.accessors.map Accessor.bare = second.accessors.map Accessor.bare
  wrappers : List.Forall₂ Wrapper.SameCode first.wrappers second.wrappers

theorem codes_plain {output : GeneratedCode} {state : String} (regular : output.Regular state)
    (stateWord : IsWord state) : ∀ code ∈ output.codes, code.Plain := by
  have parts : ∀ code ∈ output.accessors.map Accessor.code ++ output.wrappers.map Wrapper.code,
      code.Plain := by
    rw [List.forall_mem_append, List.forall_mem_map, List.forall_mem_map]
    exact ⟨fun accessor member => (regular.accessors accessor member).plain stateWord,
      fun wrapper member => (regular.wrappers wrapper member).plain stateWord⟩
  rw [codes, List.forall_mem_cons]
  constructor
  · have host := Code.one_line_of_word regular.host
    apply Code.Plain.line
    · simp +decide [host]
    · intro opening
      rw [String.toList_append, List.getLast?_append] at opening
      cases last : output.host.toList.getLast? with
      | none =>
          rw [last] at opening
          cases opening
      | some char =>
          rw [last] at opening
          cases opening
          exact absurd (regular.host.chars _ (List.mem_of_getLast? last)) (by decide)
  · intro code member
    obtain ⟨part, among, own⟩ := List.mem_flatMap.mp member
    rcases List.mem_cons.mp own with rfl | last
    · exact .line (by decide) (by decide)
    · rw [List.mem_singleton.mp last]
      exact parts part among

theorem parts_inj {parts others : List Code}
    (same : (parts.flatMap fun code => [.line "", code]) =
      others.flatMap fun code => [.line "", code]) : parts = others := by
  induction parts generalizing others with
  | nil =>
      cases others with
      | nil => rfl
      | cons => cases same
  | cons code rest ih =>
      cases others with
      | nil => cases same
      | cons other others =>
          injection same with _ same
          injection same with own later
          rw [own, ih later]

def IsAccessor (host state : String) (code : Code) : Prop :=
  ∃ accessor : Accessor, accessor.Regular host state ∧ accessor.code = code

theorem wrappers_start_no_accessor {wrappers : List Wrapper} {host state : String}
    (regular : ∀ wrapper ∈ wrappers, wrapper.Regular state) :
    ∀ code, (wrappers.map Wrapper.code).head? = some code → ¬IsAccessor host state code := by
  rintro code head ⟨accessor, own, rfl⟩
  obtain ⟨wrapper, member, clash⟩ := List.mem_map.mp (List.mem_of_mem_head? head)
  exact accessor_code_ne_wrapper own (regular wrapper member) clash.symm

/-- Accessors come before wrappers, so where they end is seen. -/
theorem parts_split {first second : GeneratedCode} {state : String}
    (regular : first.Regular state) (other : second.Regular state) (host : first.host = second.host)
    (same : first.accessors.map Accessor.code ++ first.wrappers.map Wrapper.code =
      second.accessors.map Accessor.code ++ second.wrappers.map Wrapper.code) :
    first.accessors.map Accessor.code = second.accessors.map Accessor.code ∧
      first.wrappers.map Wrapper.code = second.wrappers.map Wrapper.code := by
  have front : ∀ code ∈ first.accessors.map Accessor.code, IsAccessor first.host state code :=
    List.forall_mem_map.mpr fun accessor member =>
      ⟨accessor, regular.accessors accessor member, rfl⟩
  have otherFront : ∀ code ∈ second.accessors.map Accessor.code,
      IsAccessor first.host state code :=
    List.forall_mem_map.mpr fun accessor member =>
      ⟨accessor, host ▸ other.accessors accessor member, rfl⟩
  exact eq_of_split front otherFront (wrappers_start_no_accessor regular.wrappers)
    (wrappers_start_no_accessor other.wrappers) same

theorem same_code_of_codes {first second : GeneratedCode} {state : String}
    (regular : first.Regular state) (other : second.Regular state)
    (stateNamed : IsIdentifier state) (same : first.codes = second.codes) :
    first.SameCode second := by
  rw [codes, codes, List.cons.injEq, Code.line.injEq, String.append_right_inj] at same
  obtain ⟨host, parts⟩ := same
  obtain ⟨accessors, wrappers⟩ := parts_split regular other host (parts_inj parts)
  constructor
  · exact host
  · rw [← List.forall₂_eq_eq_eq, List.forall₂_map_left_iff, List.forall₂_map_right_iff]
    apply forall₂_of_map_eq accessors
    intro accessor member otherAccessor among
    exact Accessor.bare_of_code (regular.accessors accessor member)
      (host ▸ other.accessors otherAccessor among)
  · apply forall₂_of_map_eq wrappers
    intro wrapper member otherWrapper among
    exact Wrapper.same_code_of_code (regular.wrappers wrapper member)
      (other.wrappers otherWrapper among) stateNamed

theorem codes_of_same_code {first second : GeneratedCode} (same : first.SameCode second) :
    first.codes = second.codes := by
  have accessors : first.accessors.map Accessor.code = second.accessors.map Accessor.code := by
    have shown : Accessor.code ∘ Accessor.bare = Accessor.code := rfl
    have bare := congrArg (List.map Accessor.code) same.accessors
    rwa [List.map_map, List.map_map, shown] at bare
  have wrappers : first.wrappers.map Wrapper.code = second.wrappers.map Wrapper.code := by
    rw [← List.forall₂_eq_eq_eq, List.forall₂_map_left_iff, List.forall₂_map_right_iff]
    apply same.wrappers.imp
    intro wrapper other alike
    rw [Wrapper.code, Wrapper.code, alike.aliasName, alike.hostState, alike.accessor,
      alike.component, alike.interface, alike.methods]
  rw [codes, codes, same.host, accessors, wrappers]

/-- The text of a regular output is that of another one just where they are the same code. -/
theorem render_eq_iff {first second : GeneratedCode} {state : String}
    (regular : first.Regular state) (other : second.Regular state)
    (stateNamed : IsIdentifier state) :
    first.render = second.render ↔ first.SameCode second := by
  constructor
  · intro same
    have chars := congrArg (fun text => text.toList ++ []) same
    simp only [render_eq] at chars
    have codes := (Code.render_all_inj 0 _ _ (codes_plain regular stateNamed.1)
      (codes_plain other stateNamed.1) .nothing .nothing chars).1
    exact same_code_of_codes regular other stateNamed codes
  · intro same
    rw [render_eq, render_eq, codes_of_same_code same]

end GeneratedCode

/-! ### Compiled hosts -/

structure Inclusion.Regular (inclusion : Inclusion) : Prop where
  component : IsWord inclusion.component
  storageField : IsWord inclusion.storageField
  eventVariant : IsWord inclusion.eventVariant

theorem Accessor.Serves.regular {accessor : Accessor} {host : Host} {state : String}
    {inclusion : Inclusion} (serves : accessor.Serves host state inclusion)
    (regular : inclusion.Regular) : accessor.Regular host.name state := by
  constructor
  · rw [serves.name, serves.storageField]
    rfl
  · exact serves.hostName
  · exact serves.hostState
  · rw [serves.component]
    exact regular.component
  · rw [serves.storageField]
    exact regular.storageField
  · rw [serves.eventVariant]
    exact regular.eventVariant

theorem Wrapper.Serves.regular {wrapper : Wrapper} {registry : Registry} {state : String}
    {inclusion : Inclusion} {impl : Implementation}
    (serves : wrapper.Serves registry state inclusion impl)
    (offered : impl ∈ registry.embeddableOf inclusion) (regular : inclusion.Regular)
    (named : ∀ component ∈ registry.components, component.WellNamed) : wrapper.Regular state := by
  obtain ⟨component, interface, found, declared, methods⟩ := serves.methods
  have wellNamed := named component (List.mem_of_find?_eq_some found)
  have inComponent : impl ∈ component.impls := by
    rw [Registry.embeddableOf, found] at offered
    exact List.mem_of_mem_filter offered
  have interfaceNamed : interface.name = wrapper.interface := by
    simpa using List.find?_some declared
  have inInterfaces := List.mem_of_find?_eq_some declared
  constructor
  · exact serves.hostState
  · exact (wellNamed.aliases impl inComponent _ serves.aliasName).1
  · rw [serves.component]
    exact regular.component
  · rw [serves.implName]
    exact (wellNamed.impl_names impl inComponent).1
  · rw [← interfaceNamed]
    exact (wellNamed.interface_names interface inInterfaces).1
  · rw [serves.accessor]
    exact accessor_name_word regular.storageField
  · rw [methods, List.forall_mem_map]
    exact wellNamed.methods interface inInterfaces
  · rw [methods, List.forall_mem_map]
    exact fun _ _ => rfl

/-- What is generated for a host is regular, as its names and those of the components are. -/
theorem Host.compile_regular {host : Host} {registry : Registry} (contractState : String)
    (defaultLayout : Layout) (reachable : registry.Reachable) (name : IsWord host.name)
    (inclusions : ∀ inclusion ∈ host.inclusions, inclusion.Regular)
    (named : ∀ component ∈ registry.components, component.WellNamed) :
    (host.compile registry contractState defaultLayout).1.output.Regular contractState := by
  have yields := host.generated_yields contractState defaultLayout reachable
  have fromHost (wanted : Inclusion × Verdict → Bool) :
      ∀ inclusion ∈ ((host.judged registry defaultLayout).filter wanted).map (·.1),
        inclusion.Regular := by
    intro inclusion member
    obtain ⟨pair, kept, rfl⟩ := List.mem_map.mp member
    exact inclusions _ (List.of_mem_zip (List.mem_of_mem_filter kept)).1
  constructor
  · exact name
  · intro accessor member
    rw [compile_accessors] at member
    obtain ⟨inclusion, among, serves⟩ := forall₂_source (yields_accessors yields) member
    exact serves.regular (fromHost _ inclusion among)
  · intro wrapper member
    rw [compile_wrappers] at member
    obtain ⟨request, among, serves⟩ := forall₂_source (yields_wrappers yields) member
    obtain ⟨inclusion, kept, offered⟩ := List.mem_flatMap.mp among
    obtain ⟨impl, inImpls, rfl⟩ := List.mem_map.mp offered
    exact serves.regular inImpls (fromHost _ inclusion kept) named

namespace Compilation

/-- A registered component is the definition of a declaration, so it is well named. -/
theorem registry_well_named {files : List SourceFile} (clean : syntaxErrors files = 0) :
    ∀ component ∈ (registryOf files).components, component.WellNamed := by
  intro component member
  rw [registryOf, (registered_follows (components files)).components] at member
  obtain ⟨decl, kept, rfl⟩ := List.mem_map.mp member
  have declared : decl ∈ components files := mem_of_mem_firsts_by _ (List.mem_of_mem_filter kept)
  obtain ⟨read, among, located⟩ := List.mem_flatMap.mp declared
  obtain ⟨file, ofFile, rfl⟩ := List.mem_map.mp among
  obtain ⟨content, inFile, rfl⟩ := List.mem_map.mp located
  have readable := (readable_of_syntax_clean clean file ofFile).1
  exact (SourceFile.component_well_named readable inFile).definition _

theorem hosts_regular {files : List SourceFile} {options : Options} {compiled : CompiledHost}
    (host : compiled ∈ (Compilation.ofFiles files options).hosts) :
    compiled.output.Regular options.contractState ∧ compiled.name = compiled.output.host ∧
      compiled.rendered = compiled.output.render ∧
      compiled.fingerprint = Sha256.hexDigest compiled.rendered := by
  by_cases clean : syntaxErrors files = 0
  · rw [of_syntax_clean _ _ clean] at host
    obtain ⟨contract, present, rfl⟩ := mem_compile_contracts host
    obtain ⟨read, among, located⟩ := List.mem_flatMap.mp present
    obtain ⟨file, ofFile, rfl⟩ := List.mem_map.mp among
    obtain ⟨content, inFile, rfl⟩ := List.mem_map.mp located
    have readable := (readable_of_syntax_clean clean file ofFile).1
    refine ⟨?_, rfl, rfl, rfl⟩
    apply Host.compile_regular _ _ (register_all_reachable .empty _)
    · exact (SourceFile.contract_named readable inFile).1
    · intro inclusion member
      obtain ⟨decl, declared, rfl⟩ := List.mem_map.mp member
      have named := SourceFile.inclusions_named inFile decl declared
      exact ⟨named.path.1, named.storage.1, named.event.1⟩
    · exact registry_well_named clean
  · rw [of_unreadable _ _ clean] at host
    cases host

/-- The text of a host determines its name, its accessors up to their spans, and its wrappers up to
their spans and the names of implementations that no method calls; and these determine the text. So
does any digest that tells the two texts apart, among them the one that the fingerprints are taken
with. -/
theorem text_determines_generated_code {files others : List SourceFile}
    {options otherOptions : Options} (stateNamed : IsIdentifier options.contractState)
    (sameState : otherOptions.contractState = options.contractState) {first second : CompiledHost}
    (host : first ∈ (Compilation.ofFiles files options).hosts)
    (otherHost : second ∈ (Compilation.ofFiles others otherOptions).hosts) :
    let SameCode := first.name = second.name ∧ first.output.SameCode second.output
    (first.rendered = second.rendered ↔ SameCode) ∧
      (first.fingerprint = Sha256.hexDigest first.rendered ∧
        second.fingerprint = Sha256.hexDigest second.rendered) ∧
      ∀ digest : String → String,
        (digest first.rendered = digest second.rendered → first.rendered = second.rendered) →
          (digest first.rendered = digest second.rendered ↔ SameCode) := by
  intro SameCode
  obtain ⟨regular, name, rendered, fingerprint⟩ := hosts_regular host
  obtain ⟨other, otherName, otherRendered, otherFingerprint⟩ := hosts_regular otherHost
  rw [sameState] at other
  have texts : first.rendered = second.rendered ↔ SameCode := by
    rw [rendered, otherRendered, GeneratedCode.render_eq_iff regular other stateNamed]
    constructor
    · intro same
      exact ⟨by rw [name, otherName, same.host], same⟩
    · exact And.right
  refine ⟨texts, ⟨fingerprint, otherFingerprint⟩, fun digest noCollision => ?_⟩
  rw [← texts]
  exact ⟨noCollision, congrArg digest⟩

/-- A component with two embeddable implementations, of which one has no methods; its name and the
white space in front may vary. -/
def twinProgram (space implName : String) : List SourceFile :=
  embeddedProgram ("component c \x7b" ++ space ++
    "interface I \x7b fn f(self: @S, x: M<(u8, u16), @T>, y: ()) -> (A, B); \x7d " ++
    "interface J \x7b \x7d #[embeddable_as(A)] impl X of I; #[embeddable_as(B)] impl " ++
    implName ++ " of J; \x7d")

theorem twin_programs_same_code :
    let first := Compilation.ofFiles (twinProgram " " "Y") ⟨"S", 20, "v0"⟩
    let second := Compilation.ofFiles (twinProgram "\n" "Z") ⟨"S", 20, "v0"⟩
    ∃ one ∈ first.hosts, ∃ other ∈ second.hosts,
      one.output.wrappers.map (·.implName) = ["X", "Y"] ∧
        other.output.wrappers.map (·.implName) = ["X", "Z"] ∧
        one.output.SameCode other.output ∧ one.fingerprint = other.fingerprint := by
  intro first second
  have named : IsIdentifier "S" := by decide
  have rendered : ∃ one ∈ first.hosts, ∃ other ∈ second.hosts,
      one.output.wrappers.map (·.implName) = ["X", "Y"] ∧
        other.output.wrappers.map (·.implName) = ["X", "Z"] ∧ one.rendered = other.rendered := by
    decide +kernel
  obtain ⟨one, host, other, otherHost, impls, otherImpls, same⟩ := rendered
  obtain ⟨texts, ⟨fingerprint, otherFingerprint⟩, digests⟩ :=
    text_determines_generated_code named rfl host otherHost
  have code := texts.mp same
  refine ⟨one, host, other, otherHost, impls, otherImpls, code.2, ?_⟩
  rw [fingerprint, otherFingerprint]
  exact (digests Sha256.hexDigest fun _ => same).mpr code

end Compilation

end Composer
