import Composer.Proofs.Compilation.Limit
import Composer.Proofs.Declaration.Places
import Composer.Proofs.Surface.Refusal
import Composer.Proofs.Synthesis.Removal

/-!
Reports and the files they name. A report takes the name of a file and a span on separate ways: the
span through the tree, the definitions and the hosts, the name beside the declaration. Every stage
puts a span together with the file that it comes from, so every report points into the file that it
names.
-/

namespace Composer

variable {allowed : Span → Prop}

/-! ### Components -/

theorem storage_members_allowed {block : Option StorageBlock}
    (spans : ∀ found ∈ block, found.SpansIn allowed) :
    ∀ member ∈ storageMembers block, member.SpansIn allowed := by
  cases block with
  | none => exact nofun
  | some block => exact (spans block rfl).members

theorem event_variants_allowed {block : Option EventBlock}
    (spans : ∀ found ∈ block, found.SpansIn allowed) :
    ∀ variant ∈ eventVariants block, variant.SpansIn allowed := by
  cases block with
  | none => exact nofun
  | some block => exact (spans block rfl).variants

theorem method_faults_allowed (owner : String) {methods : List MethodDecl}
    (spans : ∀ method ∈ methods, method.SpansIn allowed) :
    ∀ fault ∈ methodFaults owner methods, allowed fault.span := by
  intro fault found
  obtain ⟨method, repeated, rfl⟩ := List.mem_map.mp found
  exact (spans method (mem_of_mem_repeats_by _ repeated)).name

namespace ImplDecl.SpansIn

variable {decl : ImplDecl}

theorem alias_faults (spans : decl.SpansIn allowed) :
    ∀ fault ∈ decl.aliasFaults, allowed fault.span := by
  intro fault found
  rw [aliasFaults] at found
  split at found
  · cases found
  · next first others marked =>
      have member : first ∈ decl.embeddableAttributes := marked ▸ List.mem_cons_self
      have own := (spans.attributes first (List.mem_filter.mp member).1).span
      split at found
      · rw [List.mem_singleton.mp found]
        exact own
      · split at found
        · rw [List.mem_singleton.mp found]
          exact own
        · cases found

theorem interface_faults (spans : decl.SpansIn allowed) (interfaces : List Interface) :
    ∀ fault ∈ decl.interfaceFaults interfaces, allowed fault.span := by
  intro fault found
  rw [interfaceFaults] at found
  split at found
  · split at found
    · rw [List.mem_singleton.mp found]
      exact spans.span
    · cases found
  · next name named =>
      split at found
      · obtain ⟨method, _, rfl⟩ := List.mem_map.mp found
        exact spans.span
      · split at found
        · rw [List.mem_singleton.mp found]
          exact spans.interface name named
        · cases found

theorem faults (spans : decl.SpansIn allowed) (interfaces : List Interface) :
    ∀ fault ∈ decl.faults interfaces, allowed fault.span := by
  rw [ImplDecl.faults, List.forall_mem_append, List.forall_mem_append]
  exact ⟨⟨spans.alias_faults, method_faults_allowed _ spans.methods⟩,
    spans.interface_faults interfaces⟩

end ImplDecl.SpansIn

theorem impl_faults_allowed (interfaces : List Interface) (taken : List String)
    {impls : List ImplDecl} (spans : ∀ impl ∈ impls, impl.SpansIn allowed) :
    ∀ fault ∈ implFaults interfaces taken impls, allowed fault.span := by
  induction impls generalizing taken with
  | nil => exact List.forall_mem_nil _
  | cons decl rest ih =>
      obtain ⟨here, later⟩ := List.forall_mem_cons.mp spans
      rw [implFaults]
      split
      · rw [List.forall_mem_append]
        exact ⟨here.faults interfaces, ih taken later⟩
      · rw [List.forall_mem_append, List.forall_mem_append]
        refine ⟨⟨here.faults interfaces, ?_⟩, ih _ later⟩
        split
        · rw [List.forall_mem_singleton]
          exact here.span
        · exact List.forall_mem_nil _

theorem ComponentDecl.SpansIn.faults {decl : ComponentDecl} (spans : decl.SpansIn allowed) :
    ∀ fault ∈ decl.faults, allowed fault.span := by
  rw [ComponentDecl.faults]
  simp only [List.forall_mem_append]
  refine ⟨⟨⟨?_, ?_⟩, ?_⟩, impl_faults_allowed _ [] spans.impls⟩
  · intro fault found
    obtain ⟨member, repeated, rfl⟩ := List.mem_map.mp found
    exact (storage_members_allowed spans.storage member (mem_of_mem_repeats_by _ repeated)).name
  · intro fault found
    obtain ⟨variant, repeated, rfl⟩ := List.mem_map.mp found
    exact (event_variants_allowed spans.event variant (mem_of_mem_repeats_by _ repeated)).name
  · intro fault found
    obtain ⟨interface, member, own⟩ := List.mem_flatMap.mp found
    exact method_faults_allowed _ (spans.interfaces interface member).methods fault own

theorem Registry.refusals_allowed (registry : Registry) {decl : ComponentDecl}
    (spans : decl.SpansIn allowed) (name : String) :
    ∀ diagnostic ∈ registry.refusals decl name, allowed diagnostic.span := by
  rw [refusals]
  rcases registry.register_cases decl name with
    ⟨_, outcome⟩ | ⟨_, _, outcome⟩ | ⟨_, _, outcome⟩
  · rw [outcome]
    exact List.forall_mem_singleton.mpr spans.name
  · rw [outcome]
    exact List.forall_mem_nil _
  · rw [outcome]
    intro diagnostic found
    obtain ⟨fault, own, rfl⟩ := List.mem_map.mp found
    exact spans.faults fault own

/-! ### Hosts -/

structure Host.SpansIn (host : Host) (allowed : Span → Prop) : Prop where
  storage : ∀ member ∈ host.storage, allowed member.span
  events : ∀ variant ∈ host.events, allowed variant.span
  exposures : ∀ exposure ∈ host.exposures, allowed exposure.span
  inclusions : ∀ inclusion ∈ host.inclusions, allowed inclusion.span

theorem ContractDecl.SpansIn.host {decl : ContractDecl} (spans : decl.SpansIn allowed)
    (name : String) : (decl.host name).SpansIn allowed := by
  constructor
  · exact List.forall_mem_map.mpr fun member found =>
      (storage_members_allowed spans.storage member found).span
  · exact List.forall_mem_map.mpr fun variant found =>
      (event_variants_allowed spans.event variant found).span
  · exact List.forall_mem_map.mpr fun exposure found => (spans.exposures exposure found).span
  · exact List.forall_mem_map.mpr fun inclusion found => (spans.inclusions inclusion found).span

namespace Host

variable {host : Host} {registry : Registry} {contractState : String} {defaultLayout : Layout}

namespace SpansIn

theorem repeated_names (spans : host.SpansIn allowed) :
    ∀ diagnostic ∈ host.repeatedNames, allowed diagnostic.span := by
  rw [repeatedNames, List.forall_mem_append, List.forall_mem_map, List.forall_mem_map]
  exact ⟨fun member repeated => spans.storage member (mem_of_mem_repeats_by _ repeated),
    fun variant repeated => spans.events variant (mem_of_mem_repeats_by _ repeated)⟩

theorem judge {inclusions : List Inclusion}
    (spans : ∀ inclusion ∈ inclusions, allowed inclusion.span) (claims : Claims) :
    ∀ diagnostic ∈ (host.judge registry defaultLayout claims inclusions).flatMap (·.2),
      allowed diagnostic.span := by
  induction inclusions generalizing claims with
  | nil => exact List.forall_mem_nil _
  | cons inclusion rest ih =>
      obtain ⟨here, later⟩ := List.forall_mem_cons.mp spans
      rw [judge_cons, List.flatMap_cons, List.forall_mem_append]
      refine ⟨?_, ih later _⟩
      intro diagnostic found
      rw [judgement_spans claims inclusion diagnostic found]
      exact here

theorem surface {exposures : List Exposure}
    (spans : ∀ exposure ∈ exposures, allowed exposure.span)
    (generated : List (Option Generated)) (taken : List String) :
    ∀ diagnostic ∈
      (host.surfaceAfter registry generated contractState taken exposures).diagnostics,
      allowed diagnostic.span := by
  induction exposures generalizing taken with
  | nil => exact List.forall_mem_nil _
  | cons exposure rest ih =>
      obtain ⟨here, later⟩ := List.forall_mem_cons.mp spans
      rw [surfaceAfter]
      split
      · exact ih later taken
      · next refused =>
          refine List.forall_mem_cons.mpr ⟨?_, ih later taken⟩
          rw [select_refused_span refused]
          exact here
      · refine List.forall_mem_append.mpr ⟨?_, ih later _⟩
        exact List.forall_mem_map.mpr fun _ _ => here

theorem compile (spans : host.SpansIn allowed) :
    ∀ diagnostic ∈ (host.compile registry contractState defaultLayout).2,
      allowed diagnostic.span := by
  refine List.forall_mem_append.mpr ⟨List.forall_mem_append.mpr ⟨spans.repeated_names, ?_⟩, ?_⟩
  · exact judge spans.inclusions _
  · exact surface spans.exposures _ []

end SpansIn

end Host

/-! ### All files -/

/-- What is located names one of the files, and for that file it is as said. -/
def Located.FoundIn {Content : Type} (located : Located Content) (files : List SourceFile)
    (fits : Content → SourceFile → Prop) : Prop :=
  ∃ file ∈ files, located.file = file.name ∧ fits located.content file

def ComponentDecl.StartsIn (decl : ComponentDecl) (file : SourceFile) : Prop :=
  decl.SpansIn (·.StartsIn file)

def ContractDecl.StartsIn (decl : ContractDecl) (file : SourceFile) : Prop :=
  decl.SpansIn (·.StartsIn file)

def Diagnostic.StartsIn (diagnostic : Diagnostic) (file : SourceFile) : Prop :=
  diagnostic.span.StartsIn file

/-- A declaration is located in the file whose tree it is in. -/
theorem declarations_found {Decl : Type} {declsOf : DeclarationFile → List Decl}
    {fits : Decl → SourceFile → Prop} {files : List SourceFile}
    (own : ∀ file ∈ files, ∀ decl ∈ declsOf file.parse.tree, fits decl file) :
    ∀ decl ∈ declarations declsOf (parseAll files), decl.FoundIn files fits := by
  intro decl member
  rw [declarations, parseAll, List.flatMap_map] at member
  obtain ⟨file, among, declared⟩ := List.mem_flatMap.mp member
  obtain ⟨content, present, rfl⟩ := List.mem_map.mp declared
  exact ⟨file, among, rfl, own file among content present⟩

namespace Compilation

variable {files : List SourceFile}

theorem components_found : ∀ decl ∈ components files, decl.FoundIn files ComponentDecl.StartsIn :=
  declarations_found fun file _ => file.parse_places.1.components

theorem contracts_found : ∀ decl ∈ contracts files, decl.FoundIn files ContractDecl.StartsIn :=
  declarations_found fun file _ => file.parse_places.1.contracts

theorem refusals_found {decls : List (Located ComponentDecl)} (registry : Registry)
    (located : ∀ decl ∈ decls, decl.FoundIn files ComponentDecl.StartsIn) :
    ∀ finding ∈ (registerAll registry decls).2, finding.FoundIn files Diagnostic.StartsIn := by
  induction decls generalizing registry with
  | nil => exact List.forall_mem_nil _
  | cons decl rest ih =>
      obtain ⟨⟨file, among, named, starts⟩, later⟩ := List.forall_mem_cons.mp located
      rw [registerAll, List.forall_mem_append, List.forall_mem_map]
      refine ⟨?_, ih _ later⟩
      intro diagnostic found
      exact ⟨file, among, named, registry.refusals_allowed starts _ diagnostic found⟩

theorem host_findings_found {decls : List (Located ContractDecl)} (registry : Registry)
    (contractState : String) (defaultLayout : Layout) (seen : List String)
    (located : ∀ decl ∈ decls, decl.FoundIn files ContractDecl.StartsIn) :
    ∀ finding ∈ (compileContracts registry contractState defaultLayout seen decls).2,
      finding.FoundIn files Diagnostic.StartsIn := by
  induction decls generalizing seen with
  | nil => exact List.forall_mem_nil _
  | cons decl rest ih =>
      obtain ⟨⟨file, among, named, starts⟩, later⟩ := List.forall_mem_cons.mp located
      rw [compileContracts]
      split
      · exact List.forall_mem_cons.mpr ⟨⟨file, among, named, starts.name⟩, ih seen later⟩
      · refine List.forall_mem_append.mpr ⟨List.forall_mem_map.mpr ?_, ih _ later⟩
        intro diagnostic found
        exact ⟨file, among, named, (starts.host _).compile diagnostic found⟩

theorem findings_found (options : Options) :
    ∀ finding ∈ findings files options, finding.FoundIn files Diagnostic.StartsIn := by
  rw [findings, List.forall_mem_append]
  exact ⟨refusals_found .empty components_found, host_findings_found _ _ _ [] contracts_found⟩

/-- Where names tell files apart, the line of a report is read from the file it names. -/
theorem report_points_into (distinct : (files.map (·.name)).Nodup) {finding : Located Diagnostic}
    (found : finding.FoundIn files Diagnostic.StartsIn) :
    ∃ file ∈ files, (reportOf files finding).PointsInto file := by
  obtain ⟨file, among, named, starts⟩ := found
  have read : files.find? (·.name = finding.file) = some file :=
    (find_eq_some_iff_of_distinct (·.name) distinct _ _).mpr ⟨among, named.symm⟩
  refine ⟨file, among, Report.points_into named starts ?_⟩
  simp only [reportOf, read]
  rfl

theorem offered_point_into (distinct : (files.map (·.name)).Nodup) (options : Options) :
    ∀ report ∈ offered files options, ∃ file ∈ files, report.PointsInto file := by
  rw [offered]
  split
  · rw [List.forall_mem_map]
    exact fun finding found => report_points_into distinct (findings_found options finding found)
  · intro report member
    obtain ⟨file, among, found⟩ := List.mem_flatMap.mp member
    exact ⟨file, among, file.parse_places.2 report found⟩

end Compilation

/-- Every error of a compilation points into the file that it names. -/
theorem errors_point_into_their_files {files : List SourceFile}
    (distinct : (files.map (·.name)).Nodup) (options : Options) :
    ∀ report ∈ (Compilation.ofFiles files options).log.errors,
      ∃ file ∈ files, report.PointsInto file := by
  intro report stored
  rw [Compilation.stored_errors] at stored
  exact Compilation.offered_point_into distinct options report (List.mem_of_mem_take stored)

def scatteredProgram : List SourceFile :=
  [⟨"d.graft", "component d \x7b\r\n  storage \x7b v: u64, v: u64 \x7d\r\n\x7d"⟩,
    ⟨"w.graft", "contract W \x7b\n\n  component!(path: q, storage: s, event: E);\n\x7d"⟩]

theorem scattered_errors_point_into_their_files :
    let program := Compilation.ofFiles scatteredProgram ⟨"S", 20, "v0"⟩
    (scatteredProgram.map (·.name)).Nodup ∧
      program.log.errors.map (fun report => (report.file, report.span.start, report.sourceLine)) =
        [("d.graft", ⟨2, 21⟩, "  storage \x7b v: u64, v: u64 \x7d"),
          ("w.graft", ⟨3, 3⟩, "  component!(path: q, storage: s, event: E);")] ∧
      ∀ report ∈ program.log.errors, ∃ file ∈ scatteredProgram, report.PointsInto file := by
  have distinct : (scatteredProgram.map (·.name)).Nodup := by decide
  exact ⟨distinct, by decide +kernel,
    errors_point_into_their_files distinct ⟨"S", 20, "v0"⟩⟩

end Composer
