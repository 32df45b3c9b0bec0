import AccessPolicy.Binding.Basic
import AccessPolicy.Binding.RoleTable
import AccessPolicy.Event
import AccessPolicy.Policy.Document

/-!
# Policies and role bindings

Forward, every policy that role bindings can express grants its members the roles of its included
actions on its resource. The grants of one resource come together in one assignment.

Backward, every member of a role of a resource becomes a policy of its own.

* `RoleTable.assignments`: policies to assignments.
* `RoleTable.policies`: assignments to policies.
* `Policy.unmappable?`: why a policy has no form as role bindings, if it has none.
-/

namespace AccessPolicy

/-! ## What role bindings can express -/

/-- Why a policy has no form as role bindings. A binding only grants, so a policy that denies would
    turn into a grant. -/
inductive Unmappable where
  | onlyExcludes
  | denies
  | noResource
deriving DecidableEq, Repr

/-- The reason in words. -/
def Unmappable.reason : Unmappable → String
  | .onlyExcludes => "only excludes actions"
  | .denies => "denies on a condition"
  | .noResource => "names no resource"

/-- Why a policy has no form as role bindings, if it has none. -/
def Policy.unmappable? (p : Policy) : Option Unmappable :=
  if p.isWhollyExcluded then some .onlyExcludes
  else if p.denies then some .denies
  else if p.resourceId = "" then some .noResource
  else none

/-- The policies that have no form as role bindings. -/
def PolicySet.unmappable (ps : PolicySet) : PolicySet := ps.filter fun p => p.unmappable?.isSome

/-! ## From policies to assignments -/

/-- Roles on a resource for members. -/
structure Grant where
  resourceId : String
  roles : List String
  members : List String
deriving DecidableEq, Repr

/-- The roles of actions, each once, in the order in which they first come. -/
def RoleTable.rolesOf (t : RoleTable) : List String → List Action → Except Error (List String)
  | roles, [] => .ok roles
  | roles, a :: rest =>
    match t.role? a.identifier with
    | none => .error (.unmappedAction a.identifier)
    | some role => t.rolesOf (addNew roles role) rest

/-- What a policy grants, if role bindings can express it and it grants anything. -/
def RoleTable.grant? (t : RoleTable) (p : Policy) : Except Error (Option Grant) :=
  if p.unmappable?.isSome then .ok none
  else do
    let roles ← t.rolesOf [] p.included
    return if roles.isEmpty then none else some ⟨p.resourceId, roles, p.subject.members⟩

/-- What policies grant, in order. -/
def RoleTable.grants (t : RoleTable) : List Policy → Except Error (List Grant)
  | [] => .ok []
  | p :: rest => do
    let g ← t.grant? p
    let gs ← t.grants rest
    return g.toList ++ gs

namespace Assignment

/-- Takes up the roles of a grant. -/
def takeUp (a : Assignment) (g : Grant) : Assignment :=
  g.roles.foldl (fun a role => a.grant role g.members) a

/-- Takes up a grant in the assignment of its resource. -/
def addGrant (as : List Assignment) (g : Grant) : List Assignment :=
  updateFirst (fun a => a.resourceId = g.resourceId) { resourceId := g.resourceId } (·.takeUp g) as

/-- The assignments of grants, one for each resource. -/
def ofGrants (gs : List Grant) : List Assignment := gs.foldl addGrant []

end Assignment

/-- The assignments of policies, one for each resource, in the order in which resources first
    come. -/
def RoleTable.assignments (t : RoleTable) (ps : PolicySet) : Except Error (List Assignment) := do
  let gs ← t.grants ps
  return Assignment.ofGrants gs

/-! ## From assignments to policies -/

/-- The object of a resource. Without a resource there is none. -/
def Object.ofResource (resourceId : String) : Option Object :=
  if resourceId = "" then none else some { assetId := some resourceId }

/-- The policy for one member of a role. -/
def Policy.ofMember (resourceId : String) (actions : List Action) (member : String) : Policy :=
  { subject := { members := [member] }, actions, object := Object.ofResource resourceId }

/-- The actions of a role as those of a policy. The role is their name. -/
def RoleTable.policyActions (t : RoleTable) (role : String) : Except Error (List Action) := do
  let ids ← t.actions role
  return ids.map fun id => { name := role, uri := id }

/-- The members of a list that are not among those seen, each once. -/
def newMembers (seen : List String) : List String → List String
  | [] => []
  | m :: rest => if m ∈ seen then newMembers seen rest else m :: newMembers (m :: seen) rest

/-- The members that earlier bindings of a list give a role. -/
def membersOf (role : String) (before : List Binding) : List String :=
  (before.filter fun b => b.role = role).flatMap Binding.members

/-- The policies of bindings of a resource; `before` are the bindings already expanded. -/
def RoleTable.expandBindings (t : RoleTable) (resourceId : String) (before : List Binding) :
    List Binding → Except Error (List Policy)
  | [] => .ok []
  | b :: rest => do
    let actions ← t.policyActions b.role
    let members := newMembers (membersOf b.role before) b.members
    let others ← t.expandBindings resourceId (before ++ [b]) rest
    return members.map (Policy.ofMember resourceId actions) ++ others

/-- The policies of an assignment: one for each distinct member of each role. -/
def RoleTable.expand (t : RoleTable) (a : Assignment) : Except Error (List Policy) :=
  t.expandBindings a.resourceId [] a.bindings

/-- The policies of assignments, in order. -/
def RoleTable.policies (t : RoleTable) : List Assignment → Except Error PolicySet
  | [] => .ok []
  | a :: rest => do
    let ps ← t.expand a
    let others ← t.policies rest
    return ps ++ others

/-! ## Events -/

/-- What is lost when a policy is mapped to role bindings. -/
def Policy.bindingLosses (p : Policy) (index : Nat) : List Event :=
  match p.unmappable? with
  | some why => [.dropped (p.label index) why.reason]
  | none =>
    (p.condition.map fun c => Event.conditionLost (p.label index) c.rule).toList
      ++ p.excluded.map fun a => .exclusionLost (p.label index) a.identifier

/-- What is reported on policies from a place on, up to the first that cannot be mapped. -/
def RoleTable.lossEvents (t : RoleTable) : Nat → List Policy → List Event
  | _, [] => []
  | index, p :: rest =>
    p.bindingLosses index ++
      match t.grant? p with
      | .ok _ => t.lossEvents (index + 1) rest
      | .error _ => []

/-- What mapping policies to assignments reports. -/
def RoleTable.assignmentEvents (t : RoleTable) (ps : PolicySet) : List Event :=
  t.lossEvents 0 ps ++
    match t.assignments ps with
    | .ok as => as.map fun a => .assigned a.resourceId a.bindings.length
    | .error _ => []

/-- What mapping assignments to policies reports, after `made` policies. -/
def RoleTable.expansionEvents (t : RoleTable) (made : Nat) : List Assignment → List Event
  | [] => []
  | a :: rest =>
    match t.expand a with
    | .error _ => []
    | .ok ps =>
      .expanded a.resourceId (made + ps.length) :: t.expansionEvents (made + ps.length) rest

end AccessPolicy
