/-!
# Operators of expressions

The closed sets of variables, operators and functions of Cedar expressions, each with its spelling.
`ofName?` of a set is the inverse of `name`.
-/

namespace AccessPolicy.Cedar

/-! ## Variables -/

/-- The variables of an expression. -/
inductive Var where
  | principal
  | action
  | resource
  | context
deriving DecidableEq, Repr

namespace Var

/-- The spelling of a variable. -/
def name : Var → String
  | .principal => "principal"
  | .action => "action"
  | .resource => "resource"
  | .context => "context"

/-- All variables. -/
def all : List Var := [.principal, .action, .resource, .context]

/-- The variable of a spelling. -/
def ofName? (s : String) : Option Var := all.find? fun v => v.name = s

@[simp]
theorem ofName?_name (v : Var) : ofName? v.name = some v := by cases v <;> rfl

end Var

/-! ## Operators with two operands -/

/-- The operators with two operands. -/
inductive BinaryOp where
  | equals
  | notEquals
  | within
  | less
  | lessEq
  | greater
  | greaterEq
  | and
  | or
  | add
  | sub
  | mul
  | contains
  | containsAll
  | containsAny
  | getTag
  | hasTag
deriving DecidableEq, Repr

namespace BinaryOp

/-- The spelling of an operator. -/
def name : BinaryOp → String
  | .equals => "=="
  | .notEquals => "!="
  | .within => "in"
  | .less => "<"
  | .lessEq => "<="
  | .greater => ">"
  | .greaterEq => ">="
  | .and => "&&"
  | .or => "||"
  | .add => "+"
  | .sub => "-"
  | .mul => "*"
  | .contains => "contains"
  | .containsAll => "containsAll"
  | .containsAny => "containsAny"
  | .getTag => "getTag"
  | .hasTag => "hasTag"

/-- All operators with two operands. -/
def all : List BinaryOp :=
  [.equals, .notEquals, .within, .less, .lessEq, .greater, .greaterEq, .and, .or, .add, .sub, .mul,
    .contains, .containsAll, .containsAny, .getTag, .hasTag]

/-- The operator of a spelling. -/
def ofName? (s : String) : Option BinaryOp := all.find? fun o => o.name = s

/-- The operator is written as a method of its left operand. -/
def isMethod : BinaryOp → Bool
  | .contains => true
  | .containsAll => true
  | .containsAny => true
  | .getTag => true
  | .hasTag => true
  | _ => false

/-- The operator may follow itself without parentheses, and groups to the left. -/
def isChained : BinaryOp → Bool
  | .and => true
  | .or => true
  | .add => true
  | .sub => true
  | .mul => true
  | _ => false

@[simp]
theorem ofName?_name (o : BinaryOp) : ofName? o.name = some o := by cases o <;> rfl

end BinaryOp

/-! ## Operators on attributes -/

/-- The operators that take an operand and the name of an attribute. -/
inductive AttrOp where
  | access
  | has
deriving DecidableEq, Repr

namespace AttrOp

/-- The spelling of an operator. -/
def name : AttrOp → String
  | .access => "."
  | .has => "has"

/-- All operators on attributes. -/
def all : List AttrOp := [.access, .has]

/-- The operator of a spelling. -/
def ofName? (s : String) : Option AttrOp := all.find? fun o => o.name = s

@[simp]
theorem ofName?_name (o : AttrOp) : ofName? o.name = some o := by cases o <;> rfl

end AttrOp

/-! ## Functions of extension types -/

/-- The functions on decimals, addresses, points in time and durations. -/
inductive ExtensionFn where
  | decimal
  | ip
  | datetime
  | duration
  | lessThan
  | lessThanOrEqual
  | greaterThan
  | greaterThanOrEqual
  | isIpv4
  | isIpv6
  | isLoopback
  | isMulticast
  | isInRange
  | offset
  | durationSince
  | toDate
  | toTime
  | toDays
  | toHours
  | toMinutes
  | toSeconds
  | toMilliseconds
deriving DecidableEq, Repr

namespace ExtensionFn

/-- The spelling of a function. -/
def name : ExtensionFn → String
  | .decimal => "decimal"
  | .ip => "ip"
  | .datetime => "datetime"
  | .duration => "duration"
  | .lessThan => "lessThan"
  | .lessThanOrEqual => "lessThanOrEqual"
  | .greaterThan => "greaterThan"
  | .greaterThanOrEqual => "greaterThanOrEqual"
  | .isIpv4 => "isIpv4"
  | .isIpv6 => "isIpv6"
  | .isLoopback => "isLoopback"
  | .isMulticast => "isMulticast"
  | .isInRange => "isInRange"
  | .offset => "offset"
  | .durationSince => "durationSince"
  | .toDate => "toDate"
  | .toTime => "toTime"
  | .toDays => "toDays"
  | .toHours => "toHours"
  | .toMinutes => "toMinutes"
  | .toSeconds => "toSeconds"
  | .toMilliseconds => "toMilliseconds"

/-- All functions. -/
def all : List ExtensionFn :=
  [.decimal, .ip, .datetime, .duration, .lessThan, .lessThanOrEqual, .greaterThan,
    .greaterThanOrEqual, .isIpv4, .isIpv6, .isLoopback, .isMulticast, .isInRange, .offset,
    .durationSince, .toDate, .toTime, .toDays, .toHours, .toMinutes, .toSeconds, .toMilliseconds]

/-- The function of a spelling. -/
def ofName? (s : String) : Option ExtensionFn := all.find? fun f => f.name = s

/-- The function makes a value and is written before its arguments. All others are written as
    methods of their first argument. -/
def isConstructor : ExtensionFn → Bool
  | .decimal => true
  | .ip => true
  | .datetime => true
  | .duration => true
  | _ => false

@[simp]
theorem ofName?_name (f : ExtensionFn) : ofName? f.name = some f := by cases f <;> rfl

end ExtensionFn

end AccessPolicy.Cedar
