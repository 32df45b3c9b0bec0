import AccessPolicy.Json.Decode

/-!
# Events

What the operations report while they run: what was read and how it was taken, what a mapping could
not carry over, and what a comparison found. The events of an operation are a function of its input,
defined beside the operation, and end where it fails.

* `Event.level` and `Event.fields` are the form in which events are recorded.
-/

namespace AccessPolicy

/-- How much an event matters. -/
inductive Level where
  | debug
  | info
  | warn
deriving DecidableEq, Repr

/-- The name of a level. -/
def Level.name : Level → String
  | .debug => "DEBUG"
  | .info => "INFO"
  | .warn => "WARN"

/-- The formats of Cedar policies. -/
inductive CedarFormat where
  | json
  | text
deriving DecidableEq, Repr

/-- The name of a format. -/
def CedarFormat.name : CedarFormat → String
  | .json => "cedar-json"
  | .text => "cedar-text"

/-- A report of an operation. -/
inductive Event where
  /-- A policy file was read. -/
  | policiesRead (bytes : Nat)
  /-- Policies were loaded. -/
  | policiesParsed (policies : Nat)
  /-- A binding file was read. -/
  | bindingsRead (bytes : Nat)
  /-- The shape of a binding document was recognised. -/
  | bindingsSniffed (shape : String)
  /-- A policy has no form as role bindings. -/
  | dropped (policy reason : String)
  /-- A condition is lost in role bindings. -/
  | conditionLost (policy rule : String)
  /-- An excluded action is lost in role bindings. -/
  | exclusionLost (policy action : String)
  /-- The bindings of a resource were made. -/
  | assigned (resource : String) (roles : Nat)
  /-- The bindings of a resource were expanded; `policies` are all made so far. -/
  | expanded (resource : String) (policies : Nat)
  /-- Cedar policies were read. -/
  | cedarParsed (format : CedarFormat) (policies : Nat)
  /-- A policy became a number of Cedar policies. -/
  | split (policy : String) (cedarPolicies : Nat)
  /-- An annotation without a meaning was passed over. -/
  | annotationIgnored (key : String)
  /-- Cedar policies became policies. -/
  | merged (cedarPolicies policies : Nat)
  /-- A policy was classified in a comparison. -/
  | classified (kind report : String)
  /-- A comparison ended. -/
  | compared (equal changed removed added : Nat)
deriving DecidableEq, Repr

namespace Event

/-- The level of an event. -/
def level : Event → Level
  | .dropped .. => .warn
  | .conditionLost .. => .warn
  | .exclusionLost .. => .warn
  | .compared .. => .info
  | _ => .debug

/-- The message of an event, if it has one. -/
def message : Event → Option String
  | .dropped .. => some "policy cannot be expressed as role bindings"
  | .conditionLost .. => some "condition is not carried into role bindings"
  | .exclusionLost .. => some "excluded action is not carried into role bindings"
  | .annotationIgnored .. => some "ignored"
  | _ => none

/-- The area and the phase that an event belongs to. Reading Cedar policies has no phases. -/
def topic : Event → String × Option String
  | .policiesRead .. => ("Load", some "Read")
  | .policiesParsed .. => ("Load", some "Parsed")
  | .bindingsRead .. => ("BindParse", some "Read")
  | .bindingsSniffed .. => ("BindParse", some "Sniffed")
  | .dropped .. => ("BindMap", some "Dropped")
  | .conditionLost .. => ("BindMap", some "InformationLoss")
  | .exclusionLost .. => ("BindMap", some "InformationLoss")
  | .assigned .. => ("BindMap", some "Assignment")
  | .expanded .. => ("BindMap", some "Expanded")
  | .cedarParsed .. => ("Parse", none)
  | .split .. => ("CedarMap", some "Split")
  | .annotationIgnored .. => ("CedarMap", some "Annotation")
  | .merged .. => ("CedarMap", some "Merge")
  | .classified .. => ("Reconcile", some "Classify")
  | .compared .. => ("Reconcile", some "Summary")

/-- What an event tells. -/
def details : Event → List (String × Json)
  | .policiesRead bytes => [("bytes", .nat bytes)]
  | .policiesParsed policies => [("policies", .nat policies)]
  | .bindingsRead bytes => [("bytes", .nat bytes)]
  | .bindingsSniffed shape => [("shape", .string shape)]
  | .dropped policy reason => [("policy", .string policy), ("reason", .string reason)]
  | .conditionLost policy rule => [("policy", .string policy), ("rule", .string rule)]
  | .exclusionLost policy action => [("policy", .string policy), ("action", .string action)]
  | .assigned resource roles => [("resource", .string resource), ("roles", .nat roles)]
  | .expanded resource policies => [("resource", .string resource), ("policies", .nat policies)]
  | .cedarParsed format policies => [("format", .string format.name), ("policies", .nat policies)]
  | .split policy cedarPolicies =>
    [("policy", .string policy), ("cedar_policies", .nat cedarPolicies)]
  | .annotationIgnored key => [("key", .string key)]
  | .merged cedarPolicies policies =>
    [("cedar_policies", .nat cedarPolicies), ("policies", .nat policies)]
  | .classified kind report => [("kind", .string kind), ("report", .string report)]
  | .compared equal changed removed added =>
    [("equal", .nat equal), ("changed", .nat changed), ("removed", .nat removed),
      ("added", .nat added)]

/-- The fields of a recorded event, in order. -/
def fields (e : Event) : List (String × Json) :=
  Json.optionField "message" .string e.message ++ [("event", .string e.topic.1)]
    ++ Json.optionField "phase" .string e.topic.2 ++ e.details

end Event

end AccessPolicy
