import Mathlib.Logic.Function.Iterate
import PolicyEngine.Parser.Ast

namespace PolicyEngine.Parser

inductive TokenType
  | eof
  | illegal
  | ident
  | int
  | string
  | ip
  | permit
  | forbid
  | principal
  | action
  | resource
  | any
  | when
  | unless
  | in
  | contains
  | obligation
  | true
  | false
  | eq
  | ne
  | gt
  | lt
  | ge
  | le
  | and
  | or
  | not
  | dot
  | comma
  | colon
  | semicolon
  | lParen
  | rParen
  | lBrace
  | rBrace
deriving DecidableEq

def TokenType.text : TokenType → String
  | .eof => "EOF"
  | .illegal => "ILLEGAL"
  | .ident => "IDENT"
  | .int => "INT"
  | .string => "STRING"
  | .ip => "IP"
  | .permit => "permit"
  | .forbid => "forbid"
  | .principal => "principal"
  | .action => "action"
  | .resource => "resource"
  | .any => "any"
  | .when => "when"
  | .unless => "unless"
  | .in => "in"
  | .contains => "contains"
  | .obligation => "obligation"
  | .true => "true"
  | .false => "false"
  | .eq => "=="
  | .ne => "!="
  | .gt => ">"
  | .lt => "<"
  | .ge => ">="
  | .le => "<="
  | .and => "&&"
  | .or => "||"
  | .not => "!"
  | .dot => "."
  | .comma => ","
  | .colon => ":"
  | .semicolon => ";"
  | .lParen => "("
  | .rParen => ")"
  | .lBrace => "\x7b"
  | .rBrace => "\x7d"

structure Token where
  type : TokenType
  literal : String
  pos : Position
deriving DecidableEq

/-- `rest` is the input from the current character on. -/
structure Lexer where
  rest : List Char
  position : ℕ
  line : ℕ
  col : ℕ
  inCondition : Bool
  braceCount : ℤ

def nul : Char := '\x00'

def isDigit (ch : Char) : Bool := '0' ≤ ch && ch ≤ '9'

def isBlank (ch : Char) : Bool := ch == ' ' || ch == '\t' || ch == '\n' || ch == '\r'

def keywords : List (String × TokenType) :=
  [("permit", .permit), ("forbid", .forbid), ("principal", .principal), ("action", .action),
    ("resource", .resource), ("any", .any), ("when", .when), ("unless", .unless), ("in", .in),
    ("contains", .contains), ("obligation", .obligation), ("true", .true), ("false", .false)]

def lookupIdent (ident : String) : TokenType := (keywords.lookup ident).getD .ident

def operators : List (Char × Char × TokenType × TokenType) :=
  [('=', '=', .eq, .illegal), ('!', '=', .ne, .not), ('>', '=', .ge, .gt), ('<', '=', .le, .lt),
    ('&', '&', .and, .illegal), ('|', '|', .or, .illegal)]

def delimiters : List (Char × TokenType) :=
  [('.', .dot), (',', .comma), (':', .colon), (';', .semicolon), ('(', .lParen), (')', .rParen),
    ('\x7b', .lBrace), ('\x7d', .rBrace)]

namespace Lexer

def ch (l : Lexer) : Char := l.rest.headD nul

def peekChar (l : Lexer) : Char := l.rest.tail.headD nul

def readChar (l : Lexer) : Lexer :=
  { l with
    rest := l.rest.tail
    position := l.position + 1
    line := if l.peekChar = '\n' then l.line + 1 else l.line
    col := if l.peekChar = '\n' then 0 else l.col + 1 }

def readWhile (test : Char → Bool) (l : Lexer) : Lexer :=
  readChar^[(l.rest.takeWhile test).length] l

/-- `string(l.input[start:l.position])`, for a later state of the lexer. -/
def textUntil (start l : Lexer) : String :=
  String.ofList (start.rest.take (l.position - start.position))

def skipWhitespace (l : Lexer) : Lexer := l.readWhile isBlank

def pos (l : Lexer) : Position := ⟨l.line, l.col, l.position⟩

def readString (l : Lexer) : String × Lexer :=
  let start := l.readChar
  let stop := start.readWhile fun ch ↦ ch != '"' && ch != nul
  (start.textUntil stop, stop.readChar)

def readGroups : ℕ → Lexer → Bool × Lexer
  | 0, l => (true, l)
  | n + 1, l =>
    if l.ch ≠ '.' then (false, l)
    else if isDigit l.readChar.ch = false then (false, l.readChar)
    else readGroups n (l.readChar.readWhile isDigit)

def readMask (l : Lexer) : Bool × Lexer :=
  if l.ch ≠ '/' then (true, l)
  else if isDigit l.readChar.ch = false then (false, l.readChar)
  else (true, l.readChar.readWhile isDigit)

def readNumberOrIP (start : Lexer) : String × TokenType × Lexer :=
  let l := start.readWhile isDigit
  if l.ch = '.' then
    let (groups, l) := l.readGroups 3
    if groups = false then (start.textUntil l, .illegal, l)
    else
      let (mask, l) := l.readMask
      (start.textUntil l, if mask then .ip else .illegal, l)
  else (start.textUntil l, .int, l)

def enterBrace (l : Lexer) : Lexer := { l with braceCount := l.braceCount + 1, inCondition := true }

def leaveBrace (l : Lexer) : Lexer :=
  if l.braceCount - 1 ≤ 0 then { l with braceCount := 0, inCondition := false }
  else { l with braceCount := l.braceCount - 1 }

def countBrace (type : TokenType) (l : Lexer) : Lexer :=
  match type with
  | .lBrace => l.enterBrace
  | .rBrace => l.leaveBrace
  | _ => l

-- `unicode.IsLetter` on the characters beyond ASCII.
variable (letter : Char → Bool)

def isLetter (ch : Char) : Bool :=
  (if ch.toNat < 128 then ch.isAlpha else letter ch) || ch == '_'

def readIdentifier (start : Lexer) : String × Lexer :=
  let l := start.readWhile fun ch ↦ isLetter letter ch || isDigit ch
  (start.textUntil l, l)

def scan (l : Lexer) : Token × Lexer :=
  let single (type : TokenType) : Token := ⟨type, String.singleton l.ch, l.pos⟩
  match operators.lookup l.ch with
  | some (second, long, short) =>
    if l.peekChar = second then
      (⟨long, String.singleton l.ch ++ String.singleton second, l.pos⟩, l.readChar.readChar)
    else (single short, l.readChar)
  | none =>
    match delimiters.lookup l.ch with
    | some type => (single type, (l.countBrace type).readChar)
    | none =>
      if l.ch = '"' then
        let (literal, l') := l.readString
        (⟨.string, literal, l.pos⟩, l')
      else if l.ch = nul then (⟨.eof, "", l.pos⟩, l.readChar)
      else if isLetter letter l.ch then
        let (literal, l') := l.readIdentifier letter
        (⟨lookupIdent literal, literal, l.pos⟩, l')
      else if isDigit l.ch then
        let (literal, type, l') := l.readNumberOrIP
        (⟨type, literal, l.pos⟩, l')
      else (single .illegal, l.readChar)

def nextToken (l : Lexer) : Token × Lexer := l.skipWhitespace.scan letter

end Lexer

def newLexer (input : String) : Lexer where
  rest := input.toList
  position := 0
  line := if input.toList.head? = some '\n' then 2 else 1
  col := if input.toList.head? = some '\n' then 0 else 1
  inCondition := false
  braceCount := 0

end PolicyEngine.Parser
