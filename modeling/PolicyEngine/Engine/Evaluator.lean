import PolicyEngine.Go.Time
import PolicyEngine.Parser.Ast
import PolicyEngine.Engine.RoleDag

namespace PolicyEngine.Engine

open PolicyEngine.Go PolicyEngine.Parser

inductive EvalError
  | missingAttribute
  | unsupportedOp
  | parseInt (val : String)
  | parseBool (val : String)
  | parseCIDR (val : String)
  | invalidIP
  | invalidDateTime
deriving DecidableEq, Repr

/-- The texts the evaluator writes itself; the others are composed by the
standard library around the offending value. -/
def EvalError.text : EvalError → Option String
  | .missingAttribute => some "thuộc tính yêu cầu không tồn tại trong ngữ cảnh"
  | .unsupportedOp => some "toán tử không được hỗ trợ cho kiểu dữ liệu này"
  | .invalidIP => some "định dạng IP không hợp lệ"
  | .invalidDateTime => some "định dạng DateTime không hợp lệ"
  | .parseInt _ | .parseBool _ | .parseCIDR _ => none

structure EvalContext where
  subject : String
  action : String
  resource : String
  context : Map String
  roleDag : Option RoleDag

def digitByte (b : UInt8) : Option Int64 :=
  let d := b - 48
  if d ≤ 9 then some (Int64.ofNat d.toNat) else none

def parseFastTime (s : String) : Option Int64 :=
  let colon : UInt8 := 58
  match Text.bytes (Text.trimSuffix s "Z") with
  | [h0, h1, c1, m0, m1, c2, s0, s1] => do
    if c1 ≠ colon ∨ c2 ≠ colon then none
    let h := (← digitByte h0) * 10 + (← digitByte h1)
    let m := (← digitByte m0) * 10 + (← digitByte m1)
    let sec := (← digitByte s0) * 10 + (← digitByte s1)
    if h < 24 ∧ m < 60 ∧ sec < 60 then some (h * 3600 + m * 60 + sec) else none
  | [h0, h1, c1, m0, m1] => do
    if c1 ≠ colon then none
    let h := (← digitByte h0) * 10 + (← digitByte h1)
    let m := (← digitByte m0) * 10 + (← digitByte m1)
    if h < 24 ∧ m < 60 then some (h * 3600 + m * 60) else none
  | _ => none

def tryParseDateTimeOrTime (s : String) : Option Int64 :=
  match parseFastTime s with
  | some val => some val
  | none => (Time.parseRFC3339 s).map Time.unixNano

/-- The loop of `parseIPv4FastInto`: the octets stored so far, the value and
the number of digits of the current one. -/
def scanIPv4 : List UInt8 → List ℕ → ℕ → ℕ → Option (List ℕ × ℕ × ℕ)
  | [], p, val, digits => some (p, val, digits)
  | c :: cs, p, val, digits =>
    if 48 ≤ c ∧ c ≤ 57 then
      let val := val * 10 + (c.toNat - 48)
      if val > 255 ∨ digits + 1 > 3 then none else scanIPv4 cs p val (digits + 1)
    else if c = 46 then
      if digits = 0 ∨ p.length ≥ 3 then none else scanIPv4 cs (p ++ [val]) 0 0
    else none

def parseIPv4FastInto (s : String) : Option Net.IP :=
  match scanIPv4 (Text.bytes s) [] 0 0 with
  | none => none
  | some (p, val, digits) =>
    match p with
    | [a, b, c] =>
      if digits = 0 then Net.parseIP s
      else some (Net.mapped (BitVec.ofNat 32 (((a * 256 + b) * 256 + c) * 256 + val)))
    | _ => Net.parseIP s

def parseStringValue (val : String) : ValueType → Except EvalError Value
  | .string => .ok (.string val)
  | .int =>
    match Strconv.parseInt val with
    | some n => .ok (.int n)
    | none => .error (.parseInt val)
  | .bool =>
    match Strconv.parseBool val with
    | some b => .ok (.bool b)
    | none => .error (.parseBool val)
  | .ip =>
    match parseIPv4FastInto val with
    | some ip => .ok (.ip ip)
    | none => .error .invalidIP
  | .ipNet =>
    match Net.parseCIDR val with
    | some (_, ipnet) => .ok (.ipNet ipnet)
    | none => .error (.parseCIDR val)
  | .dateTime =>
    match tryParseDateTimeOrTime val with
    | some dt => .ok (.dateTime dt)
    | none => .error .invalidDateTime

namespace EvalContext

variable (ctx : EvalContext)

def attributeText (scope : VarScope) (field : String) : Option String :=
  match scope with
  | .principal => ctx.context.lookup ("principal." ++ field)
  | .resource => ctx.context.lookup ("resource." ++ field)
  | .context =>
    match ctx.context.lookup field with
    | some val => some val
    | none => ctx.context.lookup ("context." ++ field)

def getAttribute (scope : VarScope) (field : String) (expectedType : ValueType) :
    Except EvalError Value :=
  if scope = .principal ∧ field = "id" then .ok (.string ctx.subject)
  else if scope = .resource ∧ field = "id" then .ok (.string ctx.resource)
  else
    match ctx.attributeText scope field with
    | some val => parseStringValue val expectedType
    | none => .error .missingAttribute

end EvalContext

def compareEq : Value → Value → Bool
  | .string l, .string r => l == r
  | .int l, .int r => l == r
  | .dateTime l, .dateTime r => l == r
  | .bool l, .bool r => l == r
  | .ip l, .ip r => l == r
  | _, _ => false

def compareInt (l r : Int64) : Ordering :=
  if l > r then .gt else if l < r then .lt else .eq

def compareString (l r : String) : Ordering :=
  if l > r then .gt else if l < r then .lt else .eq

def compareOrder : Value → Value → Option Ordering
  | .int l, .int r => some (compareInt l r)
  | .dateTime l, .dateTime r => some (compareInt l r)
  | .string l, .string r => some (compareString l r)
  | _, _ => none

def compareRelational (test : Ordering → Bool) (l r : Value) : Except EvalError Bool :=
  match compareOrder l r with
  | some cmp => .ok (test cmp)
  | none => .error .unsupportedOp

def memberOf (roleDag : Option RoleDag) (parent child : String) : Bool :=
  let child := Text.trimPrefix child "role:"
  let parent := Text.trimPrefix parent "role:"
  match roleDag with
  | some g => RoleDag.isDescendant (some g) parent child
  | none => parent == child

def compareValues (roleDag : Option RoleDag) (op : BinaryOp) (l r : Value) :
    Except EvalError Bool :=
  match op with
  | .eq => .ok (compareEq l r)
  | .ne => .ok (!compareEq l r)
  | .gt => compareRelational (· == .gt) l r
  | .lt => compareRelational (· == .lt) l r
  | .ge => compareRelational (· != .lt) l r
  | .le => compareRelational (· != .gt) l r
  | .in =>
    match l, r with
    | .ip ip, .ipNet net => .ok (net.contains ip)
    | .string parent, .string child => .ok (memberOf roleDag parent child)
    | _, _ => .error .unsupportedOp
  | .contains =>
    match l, r with
    | .string l, .string r => .ok ((Text.split l ',').any fun part ↦ Text.trimSpace part == r)
    | _, _ => .error .unsupportedOp
  -- The two logical operators are handled before a comparison is reached.
  | .and | .or => .ok false

def evaluateComparison (roleDag : Option RoleDag) (op : BinaryOp)
    (left right : Except EvalError Value) : Except EvalError Value :=
  match left, right with
  | .error _, _ => .ok (.bool false)
  | .ok _, .error _ => .ok (.bool false)
  | .ok l, .ok r => (compareValues roleDag op l r).map .bool

/-- The type a variable on the left is read at: that of the literal on the
right, an address for a network. -/
def expectedType (op : BinaryOp) (right : Node) : ValueType :=
  match right with
  | .valueNode v _ => if op = .in ∧ v.valType = .ipNet then .ip else v.valType
  | _ => .string

/-- The right operand of a logical operator decides once the left one has not:
an error counts as false, another type is an error. -/
def rightOperand : Except EvalError Value → Except EvalError Value
  | .error _ => .ok (.bool false)
  | .ok (.bool b) => .ok (.bool b)
  | .ok _ => .error .unsupportedOp

def evaluate (ctx : EvalContext) : Node → Except EvalError Value
  | .nil => .ok (.bool true)
  | .valueNode v _ => .ok v
  | .variableNode scope field _ => ctx.getAttribute scope field .string
  | .unaryExprNode op child _ =>
    match evaluate ctx child with
    | .error e => .error e
    | .ok v =>
      match op, v with
      | .not, .bool b => .ok (.bool !b)
      | .neg, .int n => .ok (.int (-n))
      | _, _ => .error .unsupportedOp
  | .binaryExprNode op left right _ =>
    match op with
    | .and =>
      match evaluate ctx left with
      | .error _ => .ok (.bool false)
      | .ok (.bool false) => .ok (.bool false)
      | .ok (.bool true) => rightOperand (evaluate ctx right)
      | .ok _ => .error .unsupportedOp
    | .or =>
      match evaluate ctx left with
      | .ok (.bool true) => .ok (.bool true)
      | _ => rightOperand (evaluate ctx right)
    | op =>
      let leftVal :=
        match left with
        | .variableNode scope field _ => ctx.getAttribute scope field (expectedType op right)
        | _ => evaluate ctx left
      evaluateComparison ctx.roleDag op leftVal (evaluate ctx right)

def readVars : Node → List (VarScope × String)
  | .variableNode scope field _ => [(scope, field)]
  | .unaryExprNode _ child _ => readVars child
  | .binaryExprNode _ left right _ => readVars left ++ readVars right
  | .nil | .valueNode _ _ => []

section Congruence

variable {ctx ctx' : EvalContext}

/-- Evaluation reads the variables of the condition and consults the role graph
through `IsDescendant`; nothing else of the context matters. -/
theorem evaluate_congr (hmem : memberOf ctx.roleDag = memberOf ctx'.roleDag) {node : Node}
    (h : ∀ v ∈ readVars node, ctx.getAttribute v.1 v.2 = ctx'.getAttribute v.1 v.2) :
    evaluate ctx node = evaluate ctx' node := by
  have hcmp (op : BinaryOp) (left right : Except EvalError Value) :
      evaluateComparison ctx.roleDag op left right =
        evaluateComparison ctx'.roleDag op left right := by
    unfold evaluateComparison compareValues
    simp only [hmem]
  induction node with
  | nil => rfl
  | valueNode => rfl
  | variableNode scope field =>
    have hvar := h (scope, field) List.mem_cons_self
    simp only [evaluate, hvar]
  | unaryExprNode _ _ _ ih => simp only [evaluate, ih h]
  | binaryExprNode op left _ _ ihl ihr =>
    have hleft := ihl fun v hv ↦ h v (List.mem_append_left _ hv)
    have hright := ihr fun v hv ↦ h v (List.mem_append_right _ hv)
    -- A variable on the left of a comparison is read at the literal's type, not evaluated.
    cases left with
    | variableNode scope field =>
      have hvar := h (scope, field) List.mem_cons_self
      cases op <;> simp only [evaluate, hright, hcmp, hvar]
    | _ => cases op <;> simp only [evaluate, hcmp] at hleft hright ⊢ <;> simp only [hleft, hright]

theorem evaluate_roleDag_congr (ctx : EvalContext) {g g' : RoleDag}
    (h : ∀ p c, RoleDag.isDescendant (some g) p c = RoleDag.isDescendant (some g') p c)
    (node : Node) :
    evaluate { ctx with roleDag := some g } node = evaluate { ctx with roleDag := some g' } node := by
  refine evaluate_congr ?_ fun _ _ ↦ rfl
  funext parent child
  exact h _ _

end Congruence

end PolicyEngine.Engine
