import PolicyEngine.Parser.Lexer

set_option linter.dupNamespace false

namespace PolicyEngine.Parser

open PolicyEngine.Go

structure Parser where
  l : Lexer
  errors : List String := []
  curToken : Token
  peekToken : Token

/-- `none` is a run out of fuel. -/
abbrev ParserM := StateT Parser Option

def lowest : ℕ := 1

def unaryPrecedence : ℕ := 6

def precedences : List (TokenType × ℕ) :=
  [(.or, 2), (.and, 3), (.eq, 4), (.ne, 4), (.gt, 5), (.lt, 5), (.ge, 5), (.le, 5), (.in, 5),
    (.contains, 5)]

def precedenceOf (type : TokenType) : ℕ := (precedences.lookup type).getD lowest

def binaryOps : List (TokenType × BinaryOp) :=
  [(.or, .or), (.and, .and), (.eq, .eq), (.ne, .ne), (.gt, .gt), (.lt, .lt), (.ge, .ge), (.le, .le),
    (.in, .in), (.contains, .contains)]

def varScopes : List (String × VarScope) :=
  [("principal", .principal), ("resource", .resource), ("context", .context)]

def syntaxError (pos : Position) (msg : String) : String :=
  "Lỗi cú pháp tại dòng " ++ Strconv.formatNat pos.line ++ ", cột " ++
    Strconv.formatNat pos.column ++ ": " ++ msg

namespace Parser

def addError (pos : Position) (msg : String) : ParserM Unit :=
  modify fun p ↦ { p with errors := p.errors ++ [syntaxError pos msg] }

/-- A function of the source that records an error and returns `nil`. -/
def reject {α : Type} (pos : Position) (msg : String) : OptionT ParserM α := do
  addError pos msg
  failure

def outOfFuel {α : Type} : ParserM α := fun _ ↦ none

def parseNumber : ParserM Node := do
  let p ← get
  match Strconv.parseInt p.curToken.literal with
  | some val => return .valueNode (.int val) p.curToken.pos
  | none =>
    addError p.curToken.pos
      ("Không thể chuyển đổi '" ++ p.curToken.literal ++ "' thành số nguyên 64-bit")
    return .nil

def parseString : ParserM Node := do
  let p ← get
  return .valueNode (.string p.curToken.literal) p.curToken.pos

def parseIP : ParserM Node := do
  let p ← get
  match Net.parseIP p.curToken.literal with
  | some ip => return .valueNode (.ip ip) p.curToken.pos
  | none =>
    match Net.parseCIDR p.curToken.literal with
    | some (_, ipnet) => return .valueNode (.ipNet ipnet) p.curToken.pos
    | none =>
      addError p.curToken.pos ("Định dạng IP Address không hợp lệ: '" ++ p.curToken.literal ++ "'")
      return .nil

def parseBoolean : ParserM Node := do
  let p ← get
  return .valueNode (.bool (p.curToken.type = .true)) p.curToken.pos

variable (letter : Char → Bool)

def advance (p : Parser) : Parser :=
  let (tok, l) := p.l.nextToken letter
  { p with l := l, curToken := p.peekToken, peekToken := tok }

def nextToken : ParserM Unit := modify (advance letter)

def expectPeek (t : TokenType) : OptionT ParserM Unit := do
  let p ← get
  if p.peekToken.type = t then nextToken letter
  else
    reject p.peekToken.pos ("Mong đợi token kiểu '" ++ t.text ++ "', nhưng nhận được '" ++
      p.peekToken.type.text ++ "' (literal: '" ++ p.peekToken.literal ++ "')")

def parseVariable : OptionT ParserM Node := do
  let p ← get
  match varScopes.lookup p.curToken.literal with
  | none =>
    reject p.curToken.pos ("Không gian tên biến không hợp lệ: '" ++ p.curToken.literal ++
      "'. Chỉ hỗ trợ 'principal', 'resource', hoặc 'context'")
  | some scope =>
    expectPeek letter .dot
    expectPeek letter .ident
    return .variableNode scope (← get).curToken.literal p.curToken.pos

def orNil (f : OptionT ParserM Node) : ParserM Node := do
  return (← f.run).getD .nil

section Expressions

-- The expression parser itself, which the functions for the parts of an expression call.
variable (parseExpression : ℕ → ParserM Node)

def parsePrefixExpression : ParserM Node := do
  let p ← get
  if p.curToken.type = .not then
    nextToken letter
    let child ← parseExpression unaryPrecedence
    return .unaryExprNode .not child p.curToken.pos
  else
    addError p.curToken.pos ("Toán tử một ngôi không được hỗ trợ: '" ++ p.curToken.literal ++ "'")
    return .nil

def parseGroupedExpression : ParserM Node := do
  nextToken letter
  let expr ← parseExpression lowest
  orNil do
    expectPeek letter .rParen
    return expr

/-- An identifier is registered twice, and the second registration stands. -/
def prefixParseFns (type : TokenType) : Option (ParserM Node) :=
  match type with
  | .int => some parseNumber
  | .string => some parseString
  | .ip => some parseIP
  | .true | .false => some parseBoolean
  | .not => some (parsePrefixExpression letter parseExpression)
  | .lParen => some (parseGroupedExpression letter parseExpression)
  | .principal | .resource | .ident => some (orNil (parseVariable letter))
  | _ => none

def parseInfixExpression (left : Node) : ParserM Node := do
  let p ← get
  match binaryOps.lookup p.curToken.type with
  | none =>
    addError p.curToken.pos ("Toán tử hai ngôi không được hỗ trợ: '" ++ p.curToken.literal ++ "'")
    return .nil
  | some op =>
    nextToken letter
    let right ← parseExpression (precedenceOf p.curToken.type)
    return .binaryExprNode op left right p.curToken.pos

def parseOperators (precedence : ℕ) : ℕ → Node → ParserM Node
  | 0, _ => outOfFuel
  | fuel + 1, leftExp => do
    let p ← get
    if p.peekToken.type ≠ .rBrace ∧ p.peekToken.type ≠ .eof ∧
        precedence < precedenceOf p.peekToken.type then
      if (binaryOps.lookup p.peekToken.type).isNone then return leftExp
      else
        nextToken letter
        let leftExp ← parseInfixExpression letter parseExpression leftExp
        parseOperators precedence fuel leftExp
    else return leftExp

end Expressions

def parseExpression : ℕ → ℕ → ParserM Node
  | 0, _ => outOfFuel
  | fuel + 1, precedence => do
    let p ← get
    match prefixParseFns letter (parseExpression fuel) p.curToken.type with
    | none =>
      addError p.curToken.pos ("Không tìm thấy hàm phân tích tiền tố cho token: '" ++
        p.curToken.type.text ++ "' (literal: '" ++ p.curToken.literal ++ "')")
      return .nil
    | some operand =>
      let leftExp ← operand
      parseOperators letter (parseExpression fuel) precedence fuel leftExp

def parseScope (scopeKeyword : TokenType) : OptionT ParserM ScopeNode := do
  let p ← get
  if p.curToken.type ≠ scopeKeyword then
    reject p.curToken.pos ("Mong đợi từ khóa Scope là '" ++ scopeKeyword.text ++
      "', nhưng nhận được '" ++ p.curToken.literal ++ "'")
  else if p.peekToken.type ≠ .eq ∧ p.peekToken.type ≠ .in then
    reject p.peekToken.pos ("Toán tử Scope không hợp lệ: '" ++ p.peekToken.literal ++
      "'. Chỉ hỗ trợ '==' hoặc 'in'")
  else
    nextToken letter
    nextToken letter
    let q ← get
    if q.curToken.type = .any then return { operator := .any }
    else if q.curToken.type ∈ [TokenType.ident, .principal, .action, .resource] then
      expectPeek letter .colon
      let r ← get
      if r.peekToken.type ≠ .string ∧ r.peekToken.type ≠ .ident then
        reject r.peekToken.pos ("Mã định danh thực thể Scope không hợp lệ: '" ++
          r.peekToken.literal ++ "'. Phải là String hoặc Identifier")
      else
        nextToken letter
        return {
          operator := if p.peekToken.type = .eq then .eq else .in
          entityType := q.curToken.literal
          entityId := (← get).curToken.literal }
    else
      reject q.curToken.pos ("Giá trị Scope không hợp lệ: '" ++ q.curToken.literal ++
        "'. Phải là 'any' hoặc định dạng 'Type:ID'")

def parseObligation : OptionT ParserM ObligationNode := do
  expectPeek letter .ident
  let p ← get
  if p.peekToken.type = .string then
    nextToken letter
    return { type := p.curToken.literal, message := (← get).curToken.literal }
  else return { type := p.curToken.literal }

def parseObligations : ℕ → OptionT ParserM (List ObligationNode)
  | 0 => OptionT.lift outOfFuel
  | fuel + 1 => do
    if (← get).peekToken.type = .obligation then
      nextToken letter
      let obligation ← parseObligation letter
      return obligation :: (← parseObligations fuel)
    else return []

def parseEffect : OptionT ParserM Effect := do
  let p ← get
  if p.curToken.type = .permit then return .permit
  else if p.curToken.type = .forbid then return .forbid
  else
    reject p.curToken.pos ("Mỗi câu chính sách phải bắt đầu bằng 'permit' hoặc 'forbid', " ++
      "nhận được: '" ++ p.curToken.literal ++ "'")

/-- The `when` or `unless` clause, with whether it is the latter. -/
def parseCondition (fuel : ℕ) : OptionT ParserM (Node × Bool) := do
  let p ← get
  if p.peekToken.type = .when ∨ p.peekToken.type = .unless then
    nextToken letter
    expectPeek letter .lBrace
    nextToken letter
    let condition ← parseExpression letter fuel lowest
    if condition = .nil then failure
    else
      expectPeek letter .rBrace
      return (condition, p.peekToken.type = .unless)
  else return (.nil, false)

def parsePolicy (fuel : ℕ) : OptionT ParserM PolicyNode := do
  let effect ← parseEffect
  expectPeek letter .lParen
  nextToken letter
  let principal ← parseScope letter .principal
  expectPeek letter .comma
  nextToken letter
  let action ← parseScope letter .action
  expectPeek letter .comma
  nextToken letter
  let resource ← parseScope letter .resource
  expectPeek letter .rParen
  let (condition, isUnless) ← parseCondition letter fuel
  let obligations ← parseObligations letter fuel
  expectPeek letter .semicolon
  return {
    id := ""
    effect := effect
    principal := some principal
    action := some action
    resource := some resource
    condition := condition
    isUnless := isUnless
    obligations := obligations }

def parsePolicies : ℕ → ParserM (List PolicyNode)
  | 0 => outOfFuel
  | fuel + 1 => do
    if (← get).curToken.type = .eof then return []
    else
      let policy ← (parsePolicy letter (fuel + 1)).run
      nextToken letter
      return policy.toList ++ (← parsePolicies fuel)

end Parser

def newParser (letter : Char → Bool) (l : Lexer) : Parser :=
  let (curToken, l) := l.nextToken letter
  let (peekToken, l) := l.nextToken letter
  { l := l, curToken := curToken, peekToken := peekToken }

end PolicyEngine.Parser
