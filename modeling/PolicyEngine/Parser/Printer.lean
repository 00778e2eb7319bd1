import PolicyEngine.Parser.Parser

namespace PolicyEngine.Parser

open PolicyEngine.Go

abbrev Lexeme := TokenType × String

def IsIdentifier (letter : Char → Bool) (cs : List Char) : Prop :=
  ∃ c rest, cs = c :: rest ∧ Lexer.isLetter letter c = true ∧
    ∀ x ∈ rest, (Lexer.isLetter letter x || isDigit x) = true

structure Ident (letter : Char → Bool) where
  text : String
  identifier : IsIdentifier letter text.toList
  plain : lookupIdent text = .ident

structure Quoted where
  text : String
  noQuote : '"' ∉ text.toList
  noNul : nul ∉ text.toList

variable {letter : Char → Bool}

def Quoted.printed (s : Quoted) : String := "\"" ++ s.text ++ "\""

def Quoted.token (s : Quoted) : Lexeme := (.string, s.text)

def Ident.token (name : Ident letter) : Lexeme := (.ident, name.text)

def TokenType.token (type : TokenType) : Lexeme := (type, type.text)

def VarScope.token : VarScope → Lexeme
  | .principal => TokenType.principal.token
  | .resource => TokenType.resource.token
  | .context => (.ident, "context")

def BinaryOp.type : BinaryOp → TokenType
  | .and => .and
  | .or => .or
  | .eq => .eq
  | .ne => .ne
  | .gt => .gt
  | .lt => .lt
  | .ge => .ge
  | .le => .le
  | .in => .in
  | .contains => .contains

def boolType (b : Bool) : TokenType := if b then .true else .false

def BinaryOp.precedence (op : BinaryOp) : ℕ := precedenceOf op.type

inductive Expr (letter : Char → Bool)
  | var (scope : VarScope) (field : Ident letter)
  | int (n : Int64) (nonneg : 0 ≤ n.toInt)
  | bool (b : Bool)
  | string (s : Quoted)
  | not (e : Expr letter)
  | binary (op : BinaryOp) (left right : Expr letter)

namespace Expr

def precedence : Expr letter → ℕ
  | .binary op _ _ => op.precedence
  | _ => unaryPrecedence

def bracket (needed : Prop) [Decidable needed] (text : String) : String :=
  if needed then "(" ++ text ++ ")" else text

/-- An operand stands in brackets when it binds less tightly than its operator,
and on the right also when it binds equally tightly. -/
def print : Expr letter → String
  | .var scope field => scope.token.2 ++ "." ++ field.text
  | .int n _ => Strconv.formatInt n
  | .bool b => (boolType b).text
  | .string s => s.printed
  | .not e => "!" ++ bracket (e.precedence < unaryPrecedence) e.print
  | .binary op left right =>
    bracket (left.precedence < op.precedence) left.print ++ " " ++ op.type.text ++ " " ++
      bracket (right.precedence ≤ op.precedence) right.print

def bracketTokens (needed : Prop) [Decidable needed] (tokens : List Lexeme) : List Lexeme :=
  if needed then TokenType.lParen.token :: tokens ++ [TokenType.rParen.token] else tokens

def tokens : Expr letter → List Lexeme
  | .var scope field => [scope.token, TokenType.dot.token, field.token]
  | .int n _ => [(.int, Strconv.formatInt n)]
  | .bool b => [(boolType b).token]
  | .string s => [s.token]
  | .not e => TokenType.not.token :: bracketTokens (e.precedence < unaryPrecedence) e.tokens
  | .binary op left right =>
    bracketTokens (left.precedence < op.precedence) left.tokens ++ op.type.token ::
      bracketTokens (right.precedence ≤ op.precedence) right.tokens

def node : Expr letter → Node
  | .var scope field => .variableNode scope field.text
  | .int n _ => .valueNode (.int n)
  | .bool b => .valueNode (.bool b)
  | .string s => .valueNode (.string s.text)
  | .not e => .unaryExprNode .not e.node
  | .binary op left right => .binaryExprNode op left.node right.node

end Expr

def Node.unplaced : Node → Node
  | .nil => .nil
  | .valueNode v _ => .valueNode v
  | .variableNode scope field _ => .variableNode scope field
  | .unaryExprNode op child _ => .unaryExprNode op child.unplaced
  | .binaryExprNode op left right _ => .binaryExprNode op left.unplaced right.unplaced

def PolicyNode.unplaced (policy : PolicyNode) : PolicyNode :=
  { policy with condition := policy.condition.unplaced }

inductive EntityType (letter : Char → Bool)
  | ident (name : Ident letter)
  | principal
  | action
  | resource

def EntityType.token : EntityType letter → Lexeme
  | .ident name => name.token
  | .principal => TokenType.principal.token
  | .action => TokenType.action.token
  | .resource => TokenType.resource.token

inductive EntityId (letter : Char → Bool)
  | ident (name : Ident letter)
  | string (s : Quoted)

namespace EntityId

def token : EntityId letter → Lexeme
  | .ident name => name.token
  | .string s => s.token

def print : EntityId letter → String
  | .ident name => name.text
  | .string s => s.printed

end EntityId

/-- A scope after its keyword: `== any`, `in role:admin`, `== user:"alice"`. -/
structure Scope (letter : Char → Bool) where
  isIn : Bool
  entity : Option (EntityType letter × EntityId letter)

namespace Scope

def operator (scope : Scope letter) : TokenType := if scope.isIn then .in else .eq

def print (scope : Scope letter) (keyword : TokenType) : String :=
  keyword.text ++ " " ++ scope.operator.text ++ " " ++
    match scope.entity with
    | none => TokenType.any.text
    | some (type, id) => type.token.2 ++ ":" ++ id.print

def tokens (scope : Scope letter) (keyword : TokenType) : List Lexeme :=
  keyword.token :: scope.operator.token ::
    match scope.entity with
    | none => [TokenType.any.token]
    | some (type, id) => [type.token, TokenType.colon.token, id.token]

def node (scope : Scope letter) : ScopeNode :=
  match scope.entity with
  | none => { operator := .any }
  | some (type, id) =>
    { operator := if scope.isIn then .in else .eq
      entityType := type.token.2
      entityId := id.token.2 }

end Scope

structure Obligation (letter : Char → Bool) where
  type : Ident letter
  message : Option Quoted

namespace Obligation

def print (obligation : Obligation letter) : String :=
  " " ++ TokenType.obligation.text ++ " " ++ obligation.type.text ++
    match obligation.message with
    | none => ""
    | some message => " " ++ message.printed

def tokens (obligation : Obligation letter) : List Lexeme :=
  TokenType.obligation.token :: obligation.type.token ::
    match obligation.message with
    | none => []
    | some message => [message.token]

def node (obligation : Obligation letter) : ObligationNode :=
  { type := obligation.type.text
    message := match obligation.message with
      | none => ""
      | some message => message.text }

end Obligation

structure Statement (letter : Char → Bool) where
  effect : Effect
  principal : Scope letter
  action : Scope letter
  resource : Scope letter
  isUnless : Bool
  condition : Expr letter
  obligations : List (Obligation letter)

def Effect.type : Effect → TokenType
  | .permit => .permit
  | .forbid => .forbid

namespace Statement

def clause (s : Statement letter) : TokenType := if s.isUnless then .unless else .when

def printObligations : List (Obligation letter) → String
  | [] => ""
  | obligation :: rest => obligation.print ++ printObligations rest

def print (s : Statement letter) : String :=
  s.effect.type.text ++ "(" ++ s.principal.print .principal ++ ", " ++ s.action.print .action ++
    ", " ++ s.resource.print .resource ++ ") " ++ s.clause.text ++ " \x7b " ++ s.condition.print ++
    " \x7d" ++ printObligations s.obligations ++ ";"

def tokens (s : Statement letter) : List Lexeme :=
  s.effect.type.token :: TokenType.lParen.token :: s.principal.tokens .principal ++
    TokenType.comma.token :: s.action.tokens .action ++
    TokenType.comma.token :: s.resource.tokens .resource ++
    TokenType.rParen.token :: s.clause.token :: TokenType.lBrace.token :: s.condition.tokens ++
    TokenType.rBrace.token :: s.obligations.flatMap Obligation.tokens ++
    [TokenType.semicolon.token]

def node (s : Statement letter) : PolicyNode where
  id := ""
  effect := s.effect
  principal := some s.principal.node
  action := some s.action.node
  resource := some s.resource.node
  condition := s.condition.node
  isUnless := s.isUnless
  obligations := s.obligations.map Obligation.node

end Statement

end PolicyEngine.Parser
