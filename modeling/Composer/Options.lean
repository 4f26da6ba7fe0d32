import Composer.Model.Host
import Composer.Report.Log
import Composer.Json.Reader
import Composer.Json.Value

/-!
Options of a compilation and their JSON form: an object of up to three fields, each with a default.
Options are accepted if at least one error can be stored, the state type has a name and the substorage
version is known, and refused for the first of these that fails.
-/

namespace Composer

structure Options where
  /-- The state type for which every exposure must take its wrapper. -/
  contractState : String
  maxErrors : Nat
  /-- The version written into suggested storage declarations. -/
  defaultSubstorage : String
deriving DecidableEq, Repr

inductive OptionsError
  | json (problem : Json.ReadError)
  | unknownSubstorage (version : String)
  | zeroMaxErrors
  | emptyContractState
deriving DecidableEq, Repr

def Json.ReadError.message : Json.ReadError → String
  | truncated => "unexpected end of input"
  | malformed => "malformed JSON"
  | mismatched => "unexpected key or value"

def OptionsError.message : OptionsError → String
  | json problem => "invalid options JSON: " ++ problem.message
  | unknownSubstorage version =>
      "unknown substorage version '" ++ version ++ "' (expected v0 or v1)"
  | zeroMaxErrors => "max_errors must be at least 1"
  | emptyContractState => "contract_state must not be empty"

namespace Options

def standard : Options :=
  { contractState := "ContractState"
    maxErrors := ReportLog.defaultLimit
    defaultSubstorage := Layout.flat.version }

def layout (options : Options) : Except OptionsError Layout :=
  match Layout.ofVersion? options.defaultSubstorage with
  | some layout => .ok layout
  | none => .error (.unknownSubstorage options.defaultSubstorage)

/-- The options, if a compilation may run under them. -/
def validate (options : Options) : Except OptionsError Options :=
  if options.maxErrors = 0 then .error .zeroMaxErrors
  else if options.contractState = "" then .error .emptyContractState
  else options.layout.map fun _ => options

def toJson (options : Options) : Json :=
  .object [("contract_state", .string options.contractState),
    ("max_errors", .number options.maxErrors),
    ("default_substorage", .string options.defaultSubstorage)]

/-- Options of which some fields may not have been given yet. -/
structure Draft where
  contractState : Option String
  maxErrors : Option Nat
  defaultSubstorage : Option String
deriving DecidableEq, Repr

/-- The options with the standard ones in place of what was not given. -/
def Draft.complete (draft : Draft) : Options :=
  { contractState := draft.contractState.getD standard.contractState
    maxErrors := draft.maxErrors.getD standard.maxErrors
    defaultSubstorage := draft.defaultSubstorage.getD standard.defaultSubstorage }

def largestMaxErrors : Nat := UInt64.size - 1

/-- The fields of options in the order of the array form. -/
def fields : List (Json.RecordField Draft) :=
  [{ name := "contract_state"
     isSet := fun draft => draft.contractState.isSome
     read := fun draft text => do
       let (value, text) ← Json.readString text
       return ({ draft with contractState := some value }, text) },
   { name := "max_errors"
     isSet := fun draft => draft.maxErrors.isSome
     read := fun draft text => do
       let (value, text) ← Json.readNatural largestMaxErrors text
       return ({ draft with maxErrors := some value }, text) },
   { name := "default_substorage"
     isSet := fun draft => draft.defaultSubstorage.isSome
     read := fun draft text => do
       let (value, text) ← Json.readString text
       return ({ draft with defaultSubstorage := some value }, text) }]

/-- Reads options from JSON and validates them. A key that names no option is refused. -/
def ofJson (text : String) : Except OptionsError Options :=
  match Json.readAll (Json.readRecord fields .refused ⟨none, none, none⟩) text with
  | .error problem => .error (.json problem)
  | .ok draft => draft.complete.validate

end Options

end Composer
