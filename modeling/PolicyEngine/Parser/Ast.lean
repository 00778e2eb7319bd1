import PolicyEngine.Go.Map
import PolicyEngine.Go.Net

namespace PolicyEngine.Parser

open PolicyEngine.Go

structure Position where
  line : ℕ := 0
  column : ℕ := 0
  offset : ℕ := 0
deriving DecidableEq, Repr

inductive Effect
  | permit
  | forbid
deriving DecidableEq, Repr

inductive ScopeOp
  | eq
  | in
  | any
deriving DecidableEq, Repr

structure ScopeNode where
  operator : ScopeOp
  entityType : String := ""
  entityId : String := ""
deriving DecidableEq, Repr

inductive ValueType
  | string
  | int
  | bool
  | ip
  | ipNet
  | dateTime
deriving DecidableEq, Repr

/-- A `ValueNode` without its position: the type tag and the one field the tag
selects. -/
inductive Value
  | string (strVal : String)
  | int (intVal : Int64)
  | bool (boolVal : Bool)
  | ip (ipVal : Net.IP)
  | ipNet (ipNetVal : Net.IPNet)
  | dateTime (intVal : Int64)
deriving DecidableEq

def Value.valType : Value → ValueType
  | .string _ => .string
  | .int _ => .int
  | .bool _ => .bool
  | .ip _ => .ip
  | .ipNet _ => .ipNet
  | .dateTime _ => .dateTime

/-- The `ValueType` constants count from one. -/
def ValueType.code : ValueType → ℕ
  | .string => 1
  | .int => 2
  | .bool => 3
  | .ip => 4
  | .ipNet => 5
  | .dateTime => 6

inductive VarScope
  | principal
  | resource
  | context
deriving DecidableEq, Repr

inductive UnaryOp
  | not
  | neg
deriving DecidableEq, Repr

inductive BinaryOp
  | and
  | or
  | eq
  | ne
  | gt
  | lt
  | ge
  | le
  | in
  | contains
deriving DecidableEq, Repr

inductive Node
  | nil
  | valueNode (val : Value) (pos : Position := {})
  | variableNode (scope : VarScope) (field : String) (pos : Position := {})
  | unaryExprNode (op : UnaryOp) (child : Node) (pos : Position := {})
  | binaryExprNode (op : BinaryOp) (left right : Node) (pos : Position := {})
deriving DecidableEq

def obligationRequireHumanApproval : String := "REQUIRE_HUMAN_APPROVAL"

def obligationAuditSensitive : String := "AUDIT_SENSITIVE_TOOL_CALL"

def obligationMaskAttributes : String := "MASK_ATTRIBUTES"

structure ObligationNode where
  type : String
  message : String := ""
  payload : Map String := ∅
deriving DecidableEq

structure PolicyNode where
  id : String
  tenantId : String := ""
  effect : Effect
  principal : Option ScopeNode := none
  action : Option ScopeNode := none
  resource : Option ScopeNode := none
  condition : Node := .nil
  isUnless : Bool := false
  explanationList : List String := []
  requiredAttributes : List String := []
  obligations : List ObligationNode := []
deriving DecidableEq

end PolicyEngine.Parser
