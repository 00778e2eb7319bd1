import PolicyEngine.Decimal.Digits
import PolicyEngine.Go.Encoding

namespace PolicyEngine.Json

open PolicyEngine.Decimal PolicyEngine.Go

inductive Value where
  | null
  | bool (b : Bool)
  | num (literal : String)
  | str (text : String)
  | arr (items : List Value)
  | obj (members : List (String × Value))

abbrev Reader (α : Type) := List Char → Option (α × List Char)

def isSpace (c : Char) : Bool := c == ' ' || c == '\t' || c == '\r' || c == '\n'

def skipSpace (cs : List Char) : List Char := cs.dropWhile isSpace

section Strings

inductive Piece where
  | char (c : Char)
  | unit (n : ℕ)

def onto (p : Piece) (r : List Piece × List Char) : List Piece × List Char := (p :: r.1, r.2)

def hex4 (a b c d : Char) : Option ℕ := do
  let a ← Encoding.hexDigit a
  let b ← Encoding.hexDigit b
  let c ← Encoding.hexDigit c
  let d ← Encoding.hexDigit d
  return ((a * 16 + b) * 16 + c) * 16 + d

def escaped : Char → Option Char
  | '"' => some '"'
  | '\\' => some '\\'
  | '/' => some '/'
  | 'b' => some '\x08'
  | 'f' => some '\x0c'
  | 'n' => some '\n'
  | 'r' => some '\r'
  | 't' => some '\t'
  | _ => none

/-- A string literal after its first quote, up to the next one. A control
character may only stand in it escaped. -/
def pieces : Reader (List Piece)
  | [] => none
  | '"' :: rest => some ([], rest)
  | '\\' :: 'u' :: a :: b :: c :: d :: rest =>
    (hex4 a b c d).bind fun n ↦ (pieces rest).map (onto (.unit n))
  | '\\' :: e :: rest => (escaped e).bind fun c ↦ (pieces rest).map (onto (.char c))
  | c :: rest => if c.toNat < 0x20 then none else (pieces rest).map (onto (.char c))

def isSurrogate (n : ℕ) : Bool := 0xD800 ≤ n && n < 0xE000

/-- A surrogate that is not half of a pair becomes the replacement character. -/
def unitChar (n : ℕ) : Char := if isSurrogate n then '\uFFFD' else Char.ofNat n

def joinPieces : List Piece → List Char
  | [] => []
  | .char c :: ps => c :: joinPieces ps
  | .unit hi :: .unit lo :: ps =>
    if 0xD800 ≤ hi ∧ hi < 0xDC00 ∧ 0xDC00 ≤ lo ∧ lo < 0xE000 then
      Char.ofNat ((hi - 0xD800) * 0x400 + (lo - 0xDC00) + 0x10000) :: joinPieces ps
    else unitChar hi :: joinPieces (.unit lo :: ps)
  | .unit n :: ps => unitChar n :: joinPieces ps

def string : Reader String
  | '"' :: cs => (pieces cs).map fun r ↦ (String.ofList (joinPieces r.1), r.2)
  | _ => none

end Strings

section Numbers

def minus : List Char → List Char × List Char
  | '-' :: cs => (['-'], cs)
  | cs => ([], cs)

def digits : Reader (List Char) := fun cs ↦
  if cs.takeWhile Char.isDigit = [] then none
  else some (cs.takeWhile Char.isDigit, cs.dropWhile Char.isDigit)

def whole : Reader (List Char)
  | '0' :: cs => some (['0'], cs)
  | cs => digits cs

def fraction : Reader (List Char)
  | '.' :: cs => (digits cs).map fun r ↦ ('.' :: r.1, r.2)
  | cs => some ([], cs)

def exponentDigits : Reader (List Char)
  | '+' :: cs => (digits cs).map fun r ↦ ('+' :: r.1, r.2)
  | '-' :: cs => (digits cs).map fun r ↦ ('-' :: r.1, r.2)
  | cs => digits cs

def exponent : Reader (List Char)
  | 'e' :: cs => (exponentDigits cs).map fun r ↦ ('e' :: r.1, r.2)
  | 'E' :: cs => (exponentDigits cs).map fun r ↦ ('E' :: r.1, r.2)
  | cs => some ([], cs)

def number : Reader String := fun cs ↦ do
  let (int, cs') ← whole (minus cs).2
  let (frac, cs') ← fraction cs'
  let (exp, cs') ← exponent cs'
  return (String.ofList ((minus cs).1 ++ int ++ frac ++ exp), cs')

end Numbers

section Values

def word (text : List Char) (v : Value) : Reader Value := fun cs ↦
  if text.isPrefixOf cs then some (v, cs.drop text.length) else none

def scalar : Reader Value
  | '"' :: cs => (string ('"' :: cs)).map (Prod.map .str id)
  | 'n' :: cs => word ['n', 'u', 'l', 'l'] .null ('n' :: cs)
  | 't' :: cs => word ['t', 'r', 'u', 'e'] (.bool true) ('t' :: cs)
  | 'f' :: cs => word ['f', 'a', 'l', 's', 'e'] (.bool false) ('f' :: cs)
  | cs => (number cs).map (Prod.map .num id)

def sequence {α : Type} (item : Reader α) (close : Char) : ℕ → Reader (List α)
  | 0, _ => none
  | fuel + 1, cs =>
    (item (skipSpace cs)).bind fun r ↦
      match skipSpace r.2 with
      | [] => none
      | c :: cs =>
        if c = close then some ([r.1], cs)
        else if c = ',' then (sequence item close fuel cs).map (Prod.map (r.1 :: ·) id)
        else none

def enclosed {α : Type} (item : Reader α) (close : Char) : Reader (List α) := fun cs ↦
  if (skipSpace cs).head? = some close then some ([], (skipSpace cs).tail)
  else sequence item close cs.length cs

def member (value : Reader Value) : Reader (String × Value) := fun cs ↦
  (string cs).bind fun key ↦
    match skipSpace key.2 with
    | ':' :: cs => (value (skipSpace cs)).map (Prod.map (key.1, ·) id)
    | _ => none

def value : ℕ → Reader Value
  | 0, cs => scalar cs
  | depth + 1, '[' :: cs => (enclosed (value depth) ']' cs).map (Prod.map .arr id)
  | depth + 1, '\x7b' :: cs =>
    (enclosed (member (value depth)) '\x7d' cs).map (Prod.map .obj id)
  | _ + 1, cs => scalar cs

def maxNestingDepth : ℕ := 10000

def document (cs : List Char) : Option Value :=
  (value maxNestingDepth (skipSpace cs)).bind fun r ↦
    if skipSpace r.2 = [] then some r.1 else none

def parse (text : String) : Option Value := document text.toList

end Values

end PolicyEngine.Json
