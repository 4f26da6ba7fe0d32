/-!
Error codes. A code is a number shown as `E` and the number; its hundreds tell the category.
-/

namespace Composer

inductive Category
  | syntactic
  | component
  | binding
  | exposure
  | structural
deriving DecidableEq, Repr

def Category.text : Category → String
  | syntactic => "syntax"
  | component => "component"
  | binding => "binding"
  | exposure => "exposure"
  | structural => "structure"

structure ErrorCode where
  number : Nat
deriving DecidableEq, Repr

namespace ErrorCode

def unexpectedToken : ErrorCode := ⟨100⟩
def unclosedBrace : ErrorCode := ⟨101⟩
def unexpectedCharacter : ErrorCode := ⟨102⟩
def duplicateBlock : ErrorCode := ⟨103⟩

def duplicateStorageField : ErrorCode := ⟨200⟩
def duplicateEventVariant : ErrorCode := ⟨201⟩
def embeddableNotInterface : ErrorCode := ⟨202⟩
def unknownInterface : ErrorCode := ⟨203⟩
def multipleAliases : ErrorCode := ⟨204⟩
def missingAlias : ErrorCode := ⟨205⟩
def duplicateAlias : ErrorCode := ⟨206⟩
def duplicateMethod : ErrorCode := ⟨207⟩
def methodNotInInterface : ErrorCode := ⟨208⟩
def duplicateComponent : ErrorCode := ⟨209⟩

def missingSubstorageMember : ErrorCode := ⟨300⟩
def missingNestedEvent : ErrorCode := ⟨301⟩
def unknownComponent : ErrorCode := ⟨302⟩
def aliasedSubstorage : ErrorCode := ⟨303⟩
def duplicateEventBinding : ErrorCode := ⟨304⟩
def storageCollision : ErrorCode := ⟨305⟩

def unresolvedAlias : ErrorCode := ⟨400⟩
def ambiguousExposure : ErrorCode := ⟨401⟩
def hostTypeMismatch : ErrorCode := ⟨402⟩
def duplicateEntryPoint : ErrorCode := ⟨403⟩

def duplicateHostMember : ErrorCode := ⟨500⟩
def duplicateHostVariant : ErrorCode := ⟨501⟩
def duplicateContract : ErrorCode := ⟨502⟩

/-- The category of a code; numbers outside the known hundreds count as syntax errors. -/
def category (code : ErrorCode) : Category :=
  match code.number / 100 with
  | 2 => .component
  | 3 => .binding
  | 4 => .exposure
  | 5 => .structural
  | _ => .syntactic

/-- The code as reports show it, such as `E300`. -/
def text (code : ErrorCode) : String := "E" ++ toString code.number

end ErrorCode

inductive Severity
  | error
  | warning
deriving DecidableEq, Repr

def Severity.text : Severity → String
  | error => "error"
  | warning => "warning"

end Composer
