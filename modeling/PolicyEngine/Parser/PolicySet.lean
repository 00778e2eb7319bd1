import PolicyEngine.Go.Result
import PolicyEngine.Parser.Compiler
import PolicyEngine.Parser.Termination

namespace PolicyEngine.Parser

open PolicyEngine.Go

variable (letter : Char → Bool)

/-- `Parse` on a new parser for the text, with fuel for every character. -/
def parseWithin (text : String) : Option (List PolicyNode × Parser) :=
  Parser.parsePolicies letter (text.toList.length + 1) (newParser letter (newLexer text))

theorem isSome_parseWithin (text : String) : (parseWithin letter text).isSome = true :=
  (Parser.returns_parsePolicies (I := fun _ ↦ True) ⟨fun _ _ h ↦ h, fun _ h _ ↦ h⟩
    (Nat.lt_succ_of_le (left_newParser_le letter (newLexer text))) trivial).isSome

def parse (text : String) : List PolicyNode × List String :=
  let (nodes, p) := (parseWithin letter text).get (isSome_parseWithin letter text)
  (nodes, p.errors)

structure PolicySource where
  id : String
  text : String

def compileSource (source : PolicySource) : Except String PolicyNode :=
  let (nodes, parseErrors) := parse letter source.text
  if parseErrors ≠ [] then
    .error ("policy " ++ source.id ++ " parse failed: " ++ String.intercalate "; " parseErrors)
  else
    match nodes with
    | [node] =>
      match compile (some { node with id := source.id }) with
      | .ok compiled => .ok compiled
      | .error err => .error ("policy " ++ source.id ++ " compile failed: " ++ err)
    | nodes =>
      .error ("policy " ++ source.id ++ " must contain exactly one statement, got " ++
        Strconv.formatNat nodes.length)

def compilePolicySet (sources : List PolicySource) : Except String (List PolicyNode) :=
  sources.mapM (compileSource letter)

variable {letter}

theorem isOk_compileSource_iff {source : PolicySource} :
    (compileSource letter source).isOk = true ↔
      ∃ node, parse letter source.text = ([node], []) ∧
        (compile (some { node with id := source.id })).isOk = true := by
  unfold compileSource
  obtain ⟨nodes, errors⟩ := parse letter source.text
  cases errors with
  | cons => simp [Except.isOk, Except.toBool]
  | nil =>
    obtain _ | ⟨node, _ | ⟨_, _⟩⟩ := nodes
    · simp [Except.isOk, Except.toBool]
    · cases h : compile (some { node with id := source.id }) with
      | error => simp [h, Except.isOk, Except.toBool]
      | ok => simp [h, Except.isOk, Except.toBool]
    · simp [Except.isOk, Except.toBool]

end PolicyEngine.Parser
