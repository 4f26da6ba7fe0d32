import Composer.Registry

/-!
Validation of a host: every inclusion is checked against the storage and the events that the host
declares, and gets a verdict. The checks go on after a failure, and the storage and the event of one
inclusion are judged apart. A storage member and an event variant serve one inclusion each, namely
the first that claims them; in the flat layout the fields of a component must also differ from all
names that the root of the host's storage already holds.
-/

namespace Composer

inductive Verdict
  /-- Nothing. -/
  | invalid
  /-- The storage is sound but the events cannot be nested: an accessor and no wrappers. -/
  | accessorOnly
  /-- An accessor and wrappers. -/
  | valid
deriving DecidableEq, Repr

def Verdict.text : Verdict → String
  | invalid => "invalid"
  | accessorOnly => "accessor_only"
  | valid => "valid"

/-- The verdict on what was found for the storage and for the events of an inclusion. -/
def Verdict.ofFindings (storage events : List Diagnostic) : Verdict :=
  match storage, events with
  | [], [] => valid
  | [], _ :: _ => accessorOnly
  | _ :: _, _ => invalid

/-- Who holds a name at the root of a host's storage. -/
inductive NameOwner
  | host
  | member (name : String)
  | inclusion (component storageField : String)
deriving DecidableEq, Repr

def NameOwner.text : NameOwner → String
  | host => "the contract"
  | member name => "substorage member '" ++ name ++ "'"
  | inclusion component storageField =>
      "component '" ++ component ++ "' at '" ++ storageField ++ "'"

/-- What earlier inclusions of a host have claimed, and which names its storage root holds. -/
structure Claims where
  storageFields : List String
  eventVariants : List String
  rootNames : List (String × NameOwner)
deriving DecidableEq, Repr

structure Validation where
  verdicts : List Verdict
  diagnostics : List Diagnostic
deriving DecidableEq, Repr

/-- The name that a member puts at the storage root: its own, unless the fields of a component take
its place. -/
def HostMember.rootName? (member : HostMember) : Option (String × NameOwner) :=
  match member.substorage with
  | .native => some (member.name, .host)
  | .layout .flat => none
  | .layout .nested => some (member.name, .member member.name)
  | .unknownVersion _ => some (member.name, .member member.name)

namespace Inclusion

def storageDeclaration (inclusion : Inclusion) (component : Component) (layout : Layout) : String :=
  "#[substorage(" ++ layout.version ++ ")] " ++ inclusion.storageField ++ ": " ++
    component.storageType ++ ","

def eventDeclaration (inclusion : Inclusion) (component : Component) : String :=
  inclusion.eventVariant ++ ": " ++ component.eventType ++ ","

end Inclusion

namespace Host

/-! ### The host by itself -/

def repeatedNames (host : Host) : List Diagnostic :=
  ((repeatsBy (·.name) host.storage).map fun member =>
      .duplicateHostMember host.name member.name member.span) ++
    (repeatsBy (·.name) host.events).map fun variant =>
      .duplicateHostVariant host.name variant.name variant.span

/-- The names at the storage root before any inclusion; the first member of a name decides. -/
def rootNames (host : Host) : List (String × NameOwner) :=
  (firstsBy (·.name) host.storage).filterMap HostMember.rootName?

def initialClaims (host : Host) : Claims := ⟨[], [], host.rootNames⟩

def layoutFor? (host : Host) (storageField : String) (component : Component) : Option Layout := do
  let member ← host.member? storageField
  if member.type = component.storageType then member.layout? else none

/-! ### One inclusion -/

/-- A diagnostic for each field of a component whose name the storage root holds already. -/
def collisions (host : Host) (rootNames : List (String × NameOwner)) (inclusion : Inclusion)
    (component : Component) : List Diagnostic :=
  component.storage.filterMap fun field =>
    (rootNames.lookup field.name).map fun owner =>
      .storageCollision host.name component.name field.name owner.text inclusion.span

def storageFindings (host : Host) (defaultLayout : Layout) (claims : Claims)
    (inclusion : Inclusion) (component : Component) : List Diagnostic :=
  if inclusion.storageField ∈ claims.storageFields then
    [.aliasedSubstorage host.name component.name inclusion.storageField inclusion.span]
  else match host.layoutFor? inclusion.storageField component with
    | none =>
        [.missingSubstorageMember host.name component.name inclusion.storageField
          (inclusion.storageDeclaration component defaultLayout) inclusion.span]
    | some .flat => host.collisions claims.rootNames inclusion component
    | some .nested => []

def eventFindings (host : Host) (claims : Claims) (inclusion : Inclusion)
    (component : Component) : List Diagnostic :=
  if inclusion.eventVariant ∈ claims.eventVariants then
    [.duplicateEventBinding host.name component.name inclusion.eventVariant inclusion.span]
  else if (host.variant? inclusion.eventVariant).bind (·.payload) = some component.eventType then []
  else
    [.missingNestedEvent host.name component.name inclusion.eventVariant
      (inclusion.eventDeclaration component) inclusion.span]

/-- The names that an inclusion with sound storage adds to the storage root. -/
def addedRootNames (host : Host) (inclusion : Inclusion) (component : Component) :
    List (String × NameOwner) :=
  match host.layoutFor? inclusion.storageField component with
  | some .flat =>
      component.storage.map fun field =>
        (field.name, .inclusion component.name inclusion.storageField)
  | _ => []

/-- What is claimed after an inclusion. Unsound storage still claims its member, but adds no names
to the storage root. -/
def claim (host : Host) (claims : Claims) (inclusion : Inclusion) (component : Component)
    (storageIsSound : Bool) : Claims :=
  { storageFields := inclusion.storageField :: claims.storageFields
    eventVariants := inclusion.eventVariant :: claims.eventVariants
    rootNames :=
      if storageIsSound then host.addedRootNames inclusion component ++ claims.rootNames
      else claims.rootNames }

/-! ### All inclusions -/

/-- Judges inclusions in order, each by what the earlier ones left. An inclusion of a component that
was refused has been reported with the component. -/
def judge (host : Host) (registry : Registry) (defaultLayout : Layout) :
    Claims → List Inclusion → List (Verdict × List Diagnostic)
  | _, [] => []
  | claims, inclusion :: rest =>
      match registry.get? inclusion.component with
      | none =>
          let findings : List Diagnostic :=
            if registry.isRejected inclusion.component then []
            else [.unknownComponent host.name inclusion.component inclusion.span]
          (.invalid, findings) :: host.judge registry defaultLayout claims rest
      | some component =>
          let storage := host.storageFindings defaultLayout claims inclusion component
          let events := host.eventFindings claims inclusion component
          (.ofFindings storage events, storage ++ events) ::
            host.judge registry defaultLayout
              (host.claim claims inclusion component storage.isEmpty) rest

/-- Validates a host. The default layout is the one written into suggested declarations. -/
def validate (host : Host) (registry : Registry) (defaultLayout : Layout) : Validation :=
  let judged := host.judge registry defaultLayout host.initialClaims host.inclusions
  { verdicts := judged.map (·.1)
    diagnostics := host.repeatedNames ++ judged.flatMap (·.2) }

end Host

end Composer
