import Composer.Proofs.Synthesis.Bare
import Composer.Proofs.Synthesis.Code
import Composer.Proofs.Synthesis.Heads

/-!
What can be read off generated code. Names are words, and a text says where each of them ends; heads
of methods determine their signatures; no text holds a line break. So an accessor is determined by
its code up to its span, and a wrapper up to its span and, where it has no method to call it, the
implementation.
-/

namespace Composer

/-! ### Words -/

/-- The text starts with a character that goes on with no word. -/
def startsOffWord (text : String) : Bool :=
  match text.toList with
  | [] => false
  | first :: _ => !(first.isAlphanum || first = '_')

theorem IsWord.chars {text : String} (word : IsWord text) :
    ∀ char ∈ text.toList, (char.isAlphanum || char = '_') = true := by
  obtain ⟨first, rest, chars, start, parts⟩ := word
  rw [chars, List.forall_mem_cons]
  refine ⟨?_, List.all_eq_true.mp parts⟩
  rw [Bool.or_eq_true] at start ⊢
  exact start.imp_left fun letter => by rw [Char.isAlphanum, letter, Bool.true_or]

theorem IsWord.append {first second : String} (word : IsWord first)
    (parts : ∀ char ∈ second.toList, (char.isAlphanum || char = '_') = true) :
    IsWord (first ++ second) := by
  obtain ⟨start, rest, chars, letter, others⟩ := word
  refine ⟨start, rest ++ second.toList, by rw [String.toList_append, chars]; rfl, letter, ?_⟩
  rw [List.all_append, others, Bool.true_and]
  exact List.all_eq_true.mpr parts

/-- Two texts that start with words start with the same one if they are the same. -/
theorem word_split {first second mark otherMark rest others : String} (word : IsWord first)
    (otherWord : IsWord second) (same : first ++ (mark ++ rest) = second ++ (otherMark ++ others))
    (ends : startsOffWord mark = true) (otherEnds : startsOffWord otherMark = true) :
    first = second ∧ mark ++ rest = otherMark ++ others := by
  have stops {mark : String} (rest : String) (ends : startsOffWord mark = true) :
      ∀ char, (mark ++ rest).toList.head? = some char →
        ¬(char.isAlphanum || char = '_') = true := by
    intro char head
    rw [startsOffWord] at ends
    rw [String.toList_append] at head
    cases chars : mark.toList with
    | nil =>
        rw [chars] at ends
        cases ends
    | cons own more =>
        rw [chars] at ends head
        cases head
        simpa using ends
  have chars := congrArg String.toList same
  rw [String.toList_append, @String.toList_append second] at chars
  obtain ⟨front, behind⟩ := eq_of_split word.chars otherWord.chars (stops rest ends)
    (stops others otherEnds) chars
  exact ⟨String.toList_inj.mp front, String.toList_inj.mp behind⟩

/-! ### Texts of one line -/

namespace Code

theorem one_line_of_word {text : String} (word : IsWord text) : OneLine text := by
  intro broken
  exact absurd (word.chars '\n' broken) (by decide)

theorem one_line_intercalate {separator : String} (single : OneLine separator)
    {texts : List String} (each : ∀ text ∈ texts, OneLine text) :
    OneLine (String.intercalate separator texts) := by
  induction texts with
  | nil => exact nofun
  | cons first rest ih =>
      rw [List.forall_mem_cons] at each
      cases rest with
      | nil =>
          rw [String.intercalate_singleton]
          exact each.1
      | cons second others =>
          rw [String.intercalate_cons_cons, one_line_append, one_line_append]
          exact ⟨⟨each.1, single⟩, ih each.2⟩

theorem one_line_of_type {type : TypeExpr} (named : type.WellNamed) : OneLine type.text := by
  induction named with
  | @path segments generics span _ words _ ih =>
      have path : OneLine (TypeExpr.pathText segments) := by
        apply one_line_intercalate (by decide)
        intro text member
        obtain ⟨segment, among, rfl⟩ := List.mem_map.mp member
        exact one_line_of_word (words segment among).1
      have arguments : OneLine (String.intercalate ", " (TypeExpr.texts generics)) := by
        apply one_line_intercalate (by decide)
        rw [TypeExpr.texts_eq_map]
        exact List.forall_mem_map.mpr ih
      rw [TypeExpr.text]
      split
      · exact path
      · simp only [one_line_append]
        exact ⟨⟨⟨path, by decide⟩, arguments⟩, by decide⟩
  | snapshot _ ih => exact (one_line_append _ _).mpr ⟨by decide, ih⟩
  | @tuple items span _ ih =>
      have inside : OneLine (String.intercalate ", " (TypeExpr.texts items)) := by
        apply one_line_intercalate (by decide)
        rw [TypeExpr.texts_eq_map]
        exact List.forall_mem_map.mpr ih
      rw [TypeExpr.text, one_line_append, one_line_append]
      exact ⟨⟨by decide, inside⟩, by decide⟩

/-- A line is told from the head of a block by the character it ends with. -/
theorem Plain.line_ending {front last : String} {char : Char} (single : OneLine (front ++ last))
    (ending : last.toList.getLast? = some char) (other : char ≠ '\x7b') :
    (Code.line (front ++ last)).Plain := by
  apply Plain.line single
  rw [String.toList_append, List.getLast?_append, ending]
  exact fun same => other (Option.some.inj same)

end Code

/-! ### Accessors -/

structure Accessor.Regular (accessor : Accessor) (host state : String) : Prop where
  name : accessor.name = accessorNameOf accessor.storageField
  hostName : accessor.host = host
  hostState : accessor.hostState = state
  component : IsWord accessor.component
  storageField : IsWord accessor.storageField
  eventVariant : IsWord accessor.eventVariant

theorem accessor_name_word {storageField : String} (word : IsWord storageField) :
    IsWord (accessorNameOf storageField) :=
  IsWord.append (by decide) word.chars

namespace Accessor

variable {host state : String} {accessor first second : Accessor}

/-- The code of an accessor is made of words and of fixed text. -/
theorem Regular.plain (regular : accessor.Regular host state) (stateWord : IsWord state) :
    accessor.code.Plain := by
  have name : Code.OneLine accessor.name := by
    rw [regular.name]
    exact Code.one_line_of_word (accessor_name_word regular.storageField)
  have component := Code.one_line_of_word regular.component
  have event := Code.one_line_of_word regular.eventVariant
  have stateLine : Code.OneLine accessor.hostState := by
    rw [regular.hostState]
    exact Code.one_line_of_word stateWord
  have view : Code.OneLine accessor.viewType := by
    simp +decide [viewType, component, stateLine]
  have location : Code.OneLine accessor.location := by
    have field := Code.one_line_of_word regular.storageField
    unfold location
    cases accessor.layout with
    | flat => exact (by decide : Code.OneLine "flat")
    | nested => simp +decide [field]
  have contract : (Code.line "self.contract").Plain := .line (by decide) (by decide)
  apply Code.Plain.block
  · simp +decide [name, component, stateLine]
  · simp only [List.forall_mem_cons, List.not_mem_nil, false_implies, implies_true, and_true]
    refine ⟨.block ?_ ?_, .block ?_ ?_, .block ?_ ?_, .block ?_ ?_, .block ?_ ?_⟩
    · simp +decide [stateLine, view]
    · rw [List.forall_mem_singleton]
      exact .line_ending (by simp +decide [component, location]) rfl (by decide)
    · simp +decide [stateLine, view]
    · rw [List.forall_mem_singleton]
      exact .line_ending (by simp +decide [component, location]) rfl (by decide)
    · simp +decide [stateLine, view]
    · exact List.forall_mem_singleton.mpr contract
    · simp +decide [stateLine, view]
    · exact List.forall_mem_singleton.mpr contract
    · simp +decide [component, view]
    · rw [List.forall_mem_cons, List.forall_mem_cons, List.forall_mem_singleton]
      refine ⟨?_, ?_, ?_⟩
      · exact .line_ending (by simp +decide [component]) rfl (by decide)
      · exact .line_ending (by simp +decide [name]) rfl (by decide)
      · exact .line_ending (by simp +decide [event]) rfl (by decide)

theorem layout_of_location (same : first.location = second.location) :
    first.layout = second.layout := by
  have apart (field : String) : "flat" ≠ "nested(" ++ field ++ ")" := by
    intro same
    have chars := congrArg String.toList same
    simp at chars
  unfold location at same
  cases one : first.layout with
  | flat =>
      cases other : second.layout with
      | flat => rfl
      | nested =>
          rw [one, other] at same
          exact absurd same (apart _)
  | nested =>
      cases other : second.layout with
      | flat =>
          rw [one, other] at same
          exact absurd same.symm (apart _)
      | nested => rfl

/-- An accessor is determined by its code, up to its span. -/
theorem bare_of_code (regular : first.Regular host state) (other : second.Regular host state)
    (same : first.code = second.code) : first.bare = second.bare := by
  simp only [code, Code.block.injEq, List.cons.injEq, Code.line.injEq, and_true] at same
  obtain ⟨head, ⟨_, located⟩, _, _, _, _, _, _, emitted⟩ := same
  have nameWord := accessor_name_word regular.storageField
  have otherWord := accessor_name_word other.storageField
  rw [← regular.name] at nameWord
  rw [← other.name] at otherWord
  simp only [String.append_assoc, String.append_right_inj] at head located emitted
  obtain ⟨name, behind⟩ := word_split nameWord otherWord head rfl rfl
  rw [String.append_right_inj] at behind
  have component := (word_split regular.component other.component behind rfl rfl).1
  have storageField : first.storageField = second.storageField := by
    rw [regular.name, other.name] at name
    exact (String.append_right_inj _).mp name
  have layout : first.layout = second.layout := by
    rw [component, String.append_right_inj, String.append_right_inj, String.append_left_inj]
      at located
    exact layout_of_location located
  have eventVariant := (String.append_left_inj _).mp emitted
  have hosts := regular.hostName.trans other.hostName.symm
  have states := regular.hostState.trans other.hostState.symm
  rw [bare, bare, name, component, hosts, states, storageField, eventVariant, layout]

end Accessor

/-! ### Wrappers -/

structure Wrapper.Regular (wrapper : Wrapper) (state : String) : Prop where
  hostState : wrapper.hostState = state
  aliasName : IsWord wrapper.aliasName
  component : IsWord wrapper.component
  implName : IsWord wrapper.implName
  interface : IsWord wrapper.interface
  accessor : IsWord wrapper.accessor
  signatures : ∀ method ∈ wrapper.methods, method.signature.WellNamed
  forwards : ∀ method ∈ wrapper.methods,
    method = .forward method.signature wrapper.component wrapper.implName wrapper.accessor

namespace WrapperMethod

variable {signature : Signature}

theorem header_one_line {method : WrapperMethod} (named : method.signature.WellNamed)
    {state : String} (stateWord : IsWord state) : Code.OneLine (method.header state) := by
  obtain ⟨decl, declNamed, signature⟩ := named
  have stateLine := Code.one_line_of_word stateWord
  have name : Code.OneLine decl.signature.name := Code.one_line_of_word declNamed.name.1
  have receiver : Code.OneLine (receiverText decl.signature.receiver state) := by
    cases decl.signature.receiver with
    | snapshot => exact (Code.one_line_append _ _).mpr ⟨by decide, stateLine⟩
    | reference => exact (Code.one_line_append _ _).mpr ⟨by decide, stateLine⟩
  have params : Code.OneLine (String.intercalate ", " (receiverText decl.signature.receiver state ::
      decl.signature.params.map fun param => param.name ++ ": " ++ param.type)) := by
    apply Code.one_line_intercalate (by decide)
    rw [List.forall_mem_cons, List.forall_mem_map]
    refine ⟨receiver, ?_⟩
    intro param member
    obtain ⟨declared, among, rfl⟩ := List.mem_map.mp member
    have own := Code.one_line_of_word (declNamed.param_names declared among).1
    have type := Code.one_line_of_type (declNamed.param_types declared among)
    simp +decide [own, type]
  have ret : Code.OneLine (retText decl.signature.ret) := by
    rw [MethodDecl.signature]
    cases stated : decl.ret with
    | none => exact (by decide : Code.OneLine "")
    | some type =>
        exact (Code.one_line_append _ _).mpr
          ⟨by decide, Code.one_line_of_type (declNamed.ret type stated)⟩
  rw [header_eq, ← signature]
  simp +decide [name, params, ret]

theorem forward_lines_plain (named : signature.WellNamed) {component implName accessor : String}
    (componentWord : IsWord component) (implWord : IsWord implName)
    (accessorWord : IsWord accessor) :
    ∀ text ∈ (forward signature component implName accessor).body, (Code.line text).Plain := by
  obtain ⟨decl, declNamed, rfl⟩ := named
  have componentLine := Code.one_line_of_word componentWord
  have implLine := Code.one_line_of_word implWord
  have accessorLine := Code.one_line_of_word accessorWord
  have name : Code.OneLine decl.signature.name := Code.one_line_of_word declNamed.name.1
  have arguments : ∀ receiver, Code.OneLine receiver → Code.OneLine
      (String.intercalate ", " (receiver :: decl.signature.params.map (·.name))) := by
    intro receiver single
    apply Code.one_line_intercalate (by decide)
    rw [List.forall_mem_cons, List.forall_mem_map]
    refine ⟨single, ?_⟩
    intro param member
    obtain ⟨declared, among, rfl⟩ := List.mem_map.mp member
    exact Code.one_line_of_word (declNamed.param_names declared among).1
  have snapshot := arguments "component" (by decide)
  have reference := arguments "ref component" (by decide)
  rw [forward]
  cases decl.signature.receiver with
  | snapshot =>
      rw [List.forall_mem_cons, List.forall_mem_singleton]
      exact ⟨.line_ending (by simp +decide [accessorLine]) rfl (by decide),
        .line_ending (by simp +decide [componentLine, implLine, name, snapshot]) rfl (by decide)⟩
  | reference =>
      rw [List.forall_mem_cons, List.forall_mem_singleton]
      exact ⟨.line_ending (by simp +decide [accessorLine]) rfl (by decide),
        .line_ending (by simp +decide [componentLine, implLine, name, reference]) rfl (by decide)⟩

end WrapperMethod

/-- Wrappers that are the same up to their spans and, where they have no methods, the names of their
implementations. -/
structure Wrapper.SameCode (first second : Wrapper) : Prop where
  aliasName : first.aliasName = second.aliasName
  component : first.component = second.component
  interface : first.interface = second.interface
  accessor : first.accessor = second.accessor
  hostState : first.hostState = second.hostState
  methods : first.methods = second.methods
  implName : first.methods ≠ [] → first.implName = second.implName

theorem forall₂_of_map_eq {First Second Image : Type} {Related : First → Second → Prop}
    {image : First → Image} {otherImage : Second → Image} {firsts : List First}
    {seconds : List Second} (same : firsts.map image = seconds.map otherImage)
    (related : ∀ first ∈ firsts, ∀ second ∈ seconds, image first = otherImage second →
      Related first second) : List.Forall₂ Related firsts seconds := by
  induction firsts generalizing seconds with
  | nil =>
      rw [List.map_nil, eq_comm, List.map_eq_nil_iff] at same
      rw [same]
      exact .nil
  | cons first rest ih =>
      cases seconds with
      | nil => cases same
      | cons second others =>
          rw [List.map_cons, List.map_cons, List.cons.injEq] at same
          refine .cons (related _ List.mem_cons_self _ List.mem_cons_self same.1) (ih same.2 ?_)
          exact fun one member other among =>
            related one (List.mem_cons_of_mem _ member) other (List.mem_cons_of_mem _ among)

namespace Wrapper

variable {state : String} {wrapper first second : Wrapper}

/-- The code of a wrapper is made of words, of types and of fixed text. -/
theorem Regular.plain (regular : wrapper.Regular state) (stateWord : IsWord state) :
    wrapper.code.Plain := by
  have aliasName := Code.one_line_of_word regular.aliasName
  have component := Code.one_line_of_word regular.component
  have interface := Code.one_line_of_word regular.interface
  have accessor := Code.one_line_of_word regular.accessor
  have stateLine := Code.one_line_of_word stateWord
  rw [code, regular.hostState]
  apply Code.Plain.block
  · simp +decide [aliasName, component, interface, accessor, stateLine]
  · rw [List.forall_mem_map]
    intro method member
    have named := regular.signatures method member
    have lines := WrapperMethod.forward_lines_plain named regular.component regular.implName
      regular.accessor
    rw [← regular.forwards method member] at lines
    exact .block (WrapperMethod.header_one_line named stateWord) (List.forall_mem_map.mpr lines)

/-- The methods of wrappers over one state are determined by their code. -/
theorem methods_of_code (regular : first.Regular state) (other : second.Regular state)
    (stateNamed : IsIdentifier state)
    (same : (first.methods.map fun method =>
        Code.block (method.header first.hostState) (method.body.map .line)) =
      second.methods.map fun method =>
        Code.block (method.header second.hostState) (method.body.map .line)) :
    first.methods = second.methods := by
  rw [← List.forall₂_eq_eq_eq]
  apply forall₂_of_map_eq same
  intro method member otherMethod among code
  rw [Code.block.injEq, regular.hostState, other.hostState] at code
  obtain ⟨decl, named, signature⟩ := regular.signatures method member
  obtain ⟨otherDecl, otherNamed, otherSignature⟩ := other.signatures otherMethod among
  have signatures := WrapperMethod.signature_of_header signature otherSignature named otherNamed
    stateNamed code.1
  have lines : Function.Injective Code.line := fun _ _ same => Code.line.inj same
  have bodies := List.map_injective_iff.mpr lines code.2
  rcases method with ⟨_, _⟩
  rcases otherMethod with ⟨_, _⟩
  exact congrArg₂ WrapperMethod.mk signatures bodies

/-- A method tells which implementation it calls. -/
theorem impl_name_of_method {signature : Signature} {component implName otherName accessor : String}
    (same : WrapperMethod.forward signature component implName accessor =
      .forward signature component otherName accessor) : implName = otherName := by
  have bodies := congrArg WrapperMethod.body same
  simp only [WrapperMethod.forward, List.cons.injEq, and_true, true_and, String.append_assoc,
    String.append_right_inj, String.append_left_inj] at bodies
  exact bodies

/-- A wrapper is determined by its code, but for what no part of it shows. -/
theorem same_code_of_code (regular : first.Regular state) (other : second.Regular state)
    (stateNamed : IsIdentifier state) (same : first.code = second.code) :
    first.SameCode second := by
  rw [code, code, Code.block.injEq] at same
  obtain ⟨head, body⟩ := same
  have methods := methods_of_code regular other stateNamed body
  simp only [String.append_assoc, String.append_right_inj] at head
  obtain ⟨aliasName, behind⟩ := word_split regular.aliasName other.aliasName head rfl rfl
  have states := regular.hostState.trans other.hostState.symm
  rw [states] at behind
  simp only [String.append_right_inj] at behind
  obtain ⟨accessor, served⟩ := word_split regular.accessor other.accessor behind rfl rfl
  rw [String.append_right_inj] at served
  obtain ⟨component, implemented⟩ := word_split regular.component other.component served rfl rfl
  rw [String.append_right_inj] at implemented
  have interface := (word_split regular.interface other.interface implemented rfl rfl).1
  refine ⟨aliasName, component, interface, accessor, states, methods, fun some => ?_⟩
  obtain ⟨method, member⟩ := List.exists_mem_of_ne_nil _ some
  have forwards := regular.forwards method member
  have otherForwards := other.forwards method (methods ▸ member)
  rw [← component, ← accessor] at otherForwards
  exact impl_name_of_method (forwards.symm.trans otherForwards)

end Wrapper

/-- An accessor is no wrapper, by its head. -/
theorem accessor_code_ne_wrapper {accessor : Accessor} {wrapper : Wrapper} {host state : String}
    (regular : accessor.Regular host state) (other : wrapper.Regular state) :
    accessor.code ≠ wrapper.code := by
  intro same
  rw [Accessor.code, Wrapper.code, Code.block.injEq] at same
  have head := same.1
  have nameWord := accessor_name_word regular.storageField
  rw [← regular.name] at nameWord
  simp only [String.append_assoc, String.append_right_inj] at head
  have behind := (word_split nameWord other.aliasName head rfl rfl).2
  have chars := congrArg String.toList behind
  simp at chars

end Composer
