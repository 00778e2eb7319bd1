import PolicyEngine.Parser.PolicySet

namespace PolicyEngine.Server

open PolicyEngine.Parser PolicyEngine.Go

/-- What `handlePublishPolicy` makes of the text it read. -/
inductive PublishCheck
  | parseErrors (errors : List String)
  | panics
  | compilerError (err : String)
  | accepted (compiledNode : PolicyNode)

def PublishCheck.isAccepted : PublishCheck → Bool
  | .accepted _ => true
  | _ => false

variable (letter : Char → Bool)

def publishCheck (policyId policyText : String) : PublishCheck :=
  let (nodes, errors) := parse letter policyText
  if errors ≠ [] then .parseErrors errors
  else
    match nodes with
    -- `nodes[0]` of an empty slice
    | [] => .panics
    | node :: _ =>
      match compile (some { node with id := policyId }) with
      | .ok compiledNode => .accepted compiledNode
      | .error err => .compilerError ("Lỗi compiler: " ++ err)

variable {letter}

theorem isAccepted_publishCheck_iff {policyId policyText : String} :
    (publishCheck letter policyId policyText).isAccepted = true ↔
      ∃ node rest, parse letter policyText = (node :: rest, []) ∧
        (compile (some { node with id := policyId })).isOk = true := by
  unfold publishCheck
  obtain ⟨nodes, errors⟩ := parse letter policyText
  cases errors with
  | cons => simp [PublishCheck.isAccepted]
  | nil =>
    cases nodes with
    | nil => simp [PublishCheck.isAccepted]
    | cons node =>
      cases h : compile (some { node with id := policyId }) with
      | error => simp [h, PublishCheck.isAccepted, Except.isOk, Except.toBool]
      | ok => simp [h, PublishCheck.isAccepted, Except.isOk, Except.toBool]

/-- A publication and the loaders agree on a text unless it parses into several
statements of which the first compiles. -/
theorem publish_agrees_with_loader_iff (letter : Char → Bool) (policyId policyText : String) :
    ((publishCheck letter policyId policyText).isAccepted = true ↔
        (compilePolicySet letter [⟨policyId, policyText⟩]).isOk = true) ↔
      ¬ ∃ first second rest, parse letter policyText = (first :: second :: rest, []) ∧
        (compile (some { first with id := policyId })).isOk = true := by
  unfold compilePolicySet
  rw [Result.isOk_mapM_iff, List.forall_mem_singleton, isOk_compileSource_iff,
    isAccepted_publishCheck_iff]
  constructor
  · rintro h ⟨first, second, rest, hparse, hcompile⟩
    obtain ⟨node, hnode, -⟩ := h.mp ⟨first, second :: rest, hparse, hcompile⟩
    rw [hparse] at hnode
    cases hnode
  · intro h
    constructor
    · rintro ⟨node, rest, hparse, hcompile⟩
      cases rest with
      | nil => exact ⟨node, hparse, hcompile⟩
      | cons second rest => exact absurd ⟨node, second, rest, hparse, hcompile⟩ h
    · rintro ⟨node, hparse, hcompile⟩
      exact ⟨node, [], hparse, hcompile⟩

/-- A bundle of published texts loads exactly when none of them holds several statements. -/
theorem isOk_compilePolicySet_of_published {sources : List PolicySource}
    (h : ∀ source ∈ sources, (publishCheck letter source.id source.text).isAccepted = true) :
    (compilePolicySet letter sources).isOk = true ↔
      ∀ source ∈ sources, ¬ ∃ first second rest,
        parse letter source.text = (first :: second :: rest, []) := by
  unfold compilePolicySet
  rw [Result.isOk_mapM_iff]
  refine forall₂_congr fun source hsource ↦ ?_
  obtain ⟨node, rest, hparse, hcompile⟩ := isAccepted_publishCheck_iff.mp (h source hsource)
  rw [isOk_compileSource_iff, hparse]
  cases rest with
  | nil => simpa using hcompile
  | cons => simp

def twoStatements : String :=
  "permit(principal == any, action == action:READ, resource == any);\n" ++
    "permit(principal == any, action == action:WRITE, resource == any);"

/-- The text has ASCII letters only, so it does not matter which others there are. -/
theorem two_statements_published_unloadable :
    (publishCheck (fun _ ↦ false) "two-statements" twoStatements).isAccepted = true ∧
      (compilePolicySet (fun _ ↦ false) [⟨"two-statements", twoStatements⟩]).isOk = false := by
  decide +kernel

end PolicyEngine.Server
