import PolicyEngine.Go.Map
import PolicyEngine.Go.Text

namespace PolicyEngine.Audit

open PolicyEngine.Go

def redactedAuditValue : String := "[REDACTED]"

def sensitiveAuditKeyFragments : List String :=
  ["authorization", "credential", "password", "private_key", "api_key", "apikey", "secret", "token",
    "proof", "cookie", "nonce"]

def piiAuditKeyTokens : List String :=
  ["email", "phone", "address", "ip", "user_agent", "delegation_chain", "delegated_by", "creator_id"]

def lowerASCII (value : UInt8) : UInt8 := if 65 ≤ value ∧ value ≤ 90 then value + 32 else value

def isAuditKeyDelimiter (value : UInt8) : Bool := value == 46 || value == 95 || value == 45

def matchesAt (value part : List UInt8) (start : ℕ) : Bool :=
  ((value.drop start).take part.length).map lowerASCII == part.map lowerASCII

def containsFoldASCII (value fragment : String) : Bool :=
  let value := Text.bytes value
  let fragment := Text.bytes fragment
  if fragment.length = 0 ∨ value.length < fragment.length then false
  else (List.range (value.length + 1 - fragment.length)).any (matchesAt value fragment)

def hasDelimitedTokenFoldASCII (value token : String) : Bool :=
  let value := Text.bytes value
  let token := Text.bytes token
  (List.range (value.length + 1 - token.length)).any fun start ↦
    (start == 0 || isAuditKeyDelimiter (value.getD (start - 1) 0)) &&
      (decide (value.length ≤ start + token.length) ||
        isAuditKeyDelimiter (value.getD (start + token.length) 0)) &&
      matchesAt value token start

def shouldRedactAuditContextKey (key : String) : Bool :=
  sensitiveAuditKeyFragments.any (containsFoldASCII key) ||
    piiAuditKeyTokens.any (hasDelimitedTokenFoldASCII key)

def redactedValue (key value : String) : String :=
  if shouldRedactAuditContextKey key then redactedAuditValue else value

/-- An empty context becomes `nil`; the order of the loop does not matter. -/
def redactedAuditContext (source : Map String) : Option (Map String) :=
  if source.keys = [] then none
  else some (Map.ofList (source.keys.map fun key ↦ (key, redactedValue key (source.get "" key))))

theorem lookup_redactedAuditContext {source audit : Map String}
    (h : redactedAuditContext source = some audit) (key : String) :
    audit.lookup key = (source.lookup key).map (redactedValue key) := by
  unfold redactedAuditContext at h
  split_ifs at h
  cases h
  exact Map.lookup_ofList_map (.refl _) "" redactedValue key

theorem exists_redactedAuditContext {source : Map String} {key value : String}
    (h : source.lookup key = some value) : ∃ audit, redactedAuditContext source = some audit := by
  have hmem : key ∈ source.keys := AList.lookup_isSome.mp (by rw [h]; rfl)
  exact ⟨_, if_neg (List.ne_nil_of_mem hmem)⟩

end PolicyEngine.Audit
