/-!
Why nothing can be generated for an inclusion or an implementation. The registry and the validation
rule all of this out beforehand.
-/

namespace Composer

inductive SynthesisError
  /-- The implementation has no alias or no interface. -/
  | notEmbeddable (component implName : String)
  /-- The component does not declare the interface. -/
  | unknownInterface (component interface : String)
  /-- The inclusion or accessor is of another component. -/
  | componentMismatch (expected found : String)
  /-- The host has no such member, or the member holds no component. -/
  | missingSubstorage (host member : String)
deriving DecidableEq, Repr

def SynthesisError.message : SynthesisError → String
  | notEmbeddable component implName =>
      "impl '" ++ implName ++ "' of component '" ++ component ++ "' is not embeddable"
  | unknownInterface component interface =>
      "component '" ++ component ++ "' declares no interface '" ++ interface ++ "'"
  | componentMismatch expected found =>
      "binding of '" ++ found ++ "' cannot be synthesized against component '" ++ expected ++ "'"
  | missingSubstorage host member =>
      "host '" ++ host ++ "' has no substorage member '" ++ member ++ "'"

end Composer
