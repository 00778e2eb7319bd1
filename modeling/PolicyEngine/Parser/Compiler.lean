import Mathlib.Data.List.Sort
import PolicyEngine.Go.Time
import PolicyEngine.Parser.Ast

namespace PolicyEngine.Parser

open PolicyEngine.Go

def maxPolicyObligations : ℕ := 4

def maxObligationMessageLen : ℕ := 256

/-- `%q` on an identifier, which has nothing to escape. -/
def quoteIdent (s : String) : String := "\"" ++ s ++ "\""

def validateObligations : List ObligationNode → List String → Except String Unit
  | [], _ => .ok ()
  | obligation :: rest, seen =>
    if obligation.type ∉ [obligationRequireHumanApproval, obligationAuditSensitive,
        obligationMaskAttributes] then
      .error ("unsupported obligation type " ++ quoteIdent obligation.type)
    else if obligation.type ∈ seen then
      .error ("duplicate obligation type " ++ quoteIdent obligation.type)
    else if obligation.message.utf8ByteSize > maxObligationMessageLen then
      .error ("obligation " ++ quoteIdent obligation.type ++ " message exceeds " ++
        Strconv.formatNat maxObligationMessageLen ++ " bytes")
    else validateObligations rest (obligation.type :: seen)

def validatePolicyObligations (policy : PolicyNode) : Except String Unit :=
  if policy.obligations.length > maxPolicyObligations then
    .error ("policy may define at most " ++ Strconv.formatNat maxPolicyObligations ++ " obligations")
  else validateObligations policy.obligations []

def checkDepth : Node → ℕ → Except String Unit
  | node, currentDepth =>
    if currentDepth > 15 then
      .error ("độ sâu của biểu thức logic vượt quá giới hạn an toàn là 15 cấp " ++
        "(ngăn chặn tấn công DoS)")
    else
      match node with
      | .binaryExprNode _ left right _ => do
        checkDepth left (currentDepth + 1)
        checkDepth right (currentDepth + 1)
      | .unaryExprNode _ child _ => checkDepth child (currentDepth + 1)
      | _ => .ok ()

def collectFields : Node → List String
  | .variableNode _ field _ => [field]
  | .binaryExprNode _ left right _ => collectFields left ++ collectFields right
  | .unaryExprNode _ child _ => collectFields child
  | _ => []

def extractRequiredAttributes (node : Node) : List String :=
  (collectFields node).dedup.insertionSort (· ≤ ·)

inductive IPOrCIDR
  | ip (ip : Net.IP)
  | cidr (net : Net.IPNet)

def tryParseIPOrCIDR (s : String) : Option IPOrCIDR :=
  match Net.parseIP s with
  | some ip => some (.ip ip)
  | none => (Net.parseCIDR s).map fun r ↦ .cidr r.2

def secondsOfDay (hour min sec : ℤ) : Option Int64 :=
  if 0 ≤ hour ∧ hour < 24 ∧ 0 ≤ min ∧ min < 60 ∧ 0 ≤ sec ∧ sec < 60 then
    some (Int64.ofInt (hour * 3600 + min * 60 + sec))
  else none

/-- A layout `%d:%d:%d`. The literal `Z` that ends the layout of a text ending
in `Z` has to follow the seconds directly. -/
def scanClock (s : String) : Option Int64 :=
  if Text.hasSuffix s "Z" then
    match Strconv.sscanfThen s.toList [':', ':'] 'Z' with
    | some [hour, min, sec] => secondsOfDay hour min sec
    | _ => none
  else
    match Strconv.sscanf s.toList [':', ':'] with
    | some [hour, min, sec] => secondsOfDay hour min sec
    | _ => none

def tryParseDateTimeOrTime (s : String) : Option Int64 :=
  match Time.parseRFC3339 s with
  | some t => some (Time.unixNano t)
  | none =>
    match scanClock s with
    | some totalSeconds => some totalSeconds
    | none =>
      match Strconv.sscanf s.toList [':'] with
      | some [hour, min] => secondsOfDay hour min 0
      | _ => none

def optimizeValue : Value → Value
  | .string s =>
    match tryParseIPOrCIDR s with
    | some (.cidr net) => .ipNet net
    | some (.ip ip) => .ip ip
    | none =>
      match tryParseDateTimeOrTime s with
      | some dt => .dateTime dt
      | none => .string s
  | v => v

def isRelationalOp (op : BinaryOp) : Bool := op = .gt ∨ op = .lt ∨ op = .ge ∨ op = .le

def addError (pos : Position) (msg : String) : String :=
  "Lỗi biên dịch tại dòng " ++ Strconv.formatNat pos.line ++ ", cột " ++
    Strconv.formatNat pos.column ++ ": " ++ msg

def checkTypeCompatibility (left right : Node) (pos : Position) : List String :=
  match left, right with
  | .valueNode l _, .valueNode r _ =>
    if l.valType = r.valType then []
    else [addError pos ("Không thể so sánh hai kiểu dữ liệu khác nhau (kiểu " ++
      Strconv.formatNat l.valType.code ++ " và " ++ Strconv.formatNat r.valType.code ++ ")")]
  | _, _ => []

def preparseIdentifiersAndLiterals (op : BinaryOp) (left right : Node) : Node :=
  match left, right with
  | .variableNode _ field _, .valueNode (.string s) pos =>
    let value :=
      if (op = .in ∨ op = .eq) ∧ (Text.contains field "ip" ∨ Text.contains field "addr") then
        match tryParseIPOrCIDR s with
        | some (.cidr net) => Value.ipNet net
        | some (.ip ip) => .ip ip
        | none => .string s
      else .string s
    -- The literal's text is still there after the first step, so a time reading overrides it.
    if Text.contains field "time" ∨ Text.contains field "date" then
      match tryParseDateTimeOrTime s with
      | some dt => .valueNode (.dateTime dt) pos
      | none => .valueNode value pos
    else .valueNode value pos
  | _, right => right

def evaluateEq : Value → Value → Bool
  | .bool l, .bool r => l == r
  | .int l, .int r => l == r
  | .string l, .string r => l == r
  | .ip l, .ip r => l == r
  | _, _ => false

def evaluateCompare : Value → Value → Option Ordering
  | .int l, .int r => some (if l > r then .gt else if l < r then .lt else .eq)
  | .dateTime l, .dateTime r => some (if l > r then .gt else if l < r then .lt else .eq)
  | .string l, .string r => some (if l > r then .gt else if l < r then .lt else .eq)
  | _, _ => none

def isBool (b : Bool) : Node → Bool
  | .valueNode (.bool b') _ => b' == b
  | _ => false

def foldLiterals (op : BinaryOp) (l r : Value) : Option Bool :=
  match op with
  | .and =>
    match l, r with
    | .bool l, .bool r => some (l && r)
    | _, _ => none
  | .or =>
    match l, r with
    | .bool l, .bool r => some (l || r)
    | _, _ => none
  | .eq => some (evaluateEq l r)
  | .ne => some (!evaluateEq l r)
  | .gt => (evaluateCompare l r).map (· == .gt)
  | .lt => (evaluateCompare l r).map (· == .lt)
  | .ge => (evaluateCompare l r).map (· != .lt)
  | .le => (evaluateCompare l r).map (· != .gt)
  | .in | .contains => none

def foldBinaryExpr (op : BinaryOp) (left right : Node) (pos : Position) : Node :=
  if op = .and ∧ (isBool false left ∨ isBool false right) then .valueNode (.bool false) pos
  else if op = .or ∧ (isBool true left ∨ isBool true right) then .valueNode (.bool true) pos
  else
    match left, right with
    | .valueNode l _, .valueNode r _ =>
      match foldLiterals op l r with
      | some b => .valueNode (.bool b) pos
      | none => .binaryExprNode op left right pos
    | _, _ => .binaryExprNode op left right pos

def foldUnaryExpr (op : UnaryOp) (child : Node) (pos : Position) : Node :=
  match op, child with
  | .not, .valueNode (.bool b) _ => .valueNode (.bool !b) pos
  | .neg, .valueNode (.int n) _ => .valueNode (.int (-n)) pos
  | op, child => .unaryExprNode op child pos

def optimizeNode : Node → Node × List String
  | .nil => (.nil, [])
  | .variableNode scope field pos => (.variableNode scope field pos, [])
  | .valueNode v pos => (.valueNode (optimizeValue v) pos, [])
  | .unaryExprNode op child pos =>
    let (child, errors) := optimizeNode child
    (foldUnaryExpr op child pos, errors)
  | .binaryExprNode op left right pos =>
    let (left, errorsLeft) := optimizeNode left
    let (right, errorsRight) := optimizeNode right
    let errors := if isRelationalOp op then checkTypeCompatibility left right pos else []
    let right := preparseIdentifiersAndLiterals op left right
    (foldBinaryExpr op left right pos, errorsLeft ++ errorsRight ++ errors)

def compileCondition (policy : PolicyNode) : Except String (PolicyNode × List String) :=
  if policy.condition = .nil then .ok (policy, [])
  else do
    checkDepth policy.condition 1
    let (condition, errors) := optimizeNode policy.condition
    .ok ({ policy with
      condition := condition
      requiredAttributes := extractRequiredAttributes condition }, errors)

def compile : Option PolicyNode → Except String PolicyNode
  | none => .error "policy node là nil"
  | some policy => do
    validatePolicyObligations policy
    let (policy, errors) ← compileCondition policy
    if errors ≠ [] then .error "phát hiện lỗi trong quá trình biên dịch AST"
    else .ok { policy with explanationList := [policy.id] }

end PolicyEngine.Parser
