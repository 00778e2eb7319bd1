import Mathlib.Data.List.Sort
import PolicyEngine.Go.Float
import PolicyEngine.Go.Map

namespace PolicyEngine.Security

open PolicyEngine.Go

inductive Claim
  | string (v : String)
  | bool (v : Bool)
  | float64 (v : Float64)
  | null
  | array (items : List Claim)
  | object (entries : List (String × Claim))

namespace Claim

mutual

/-- The verb `%v`; a map is printed in the order of its keys. -/
def format : Claim → String
  | .string v => v
  | .bool v => if v then "true" else "false"
  | .float64 v => v.formatG
  | .null => "<nil>"
  | .array items => "[" ++ String.intercalate " " (formatItems items) ++ "]"
  | .object entries =>
    let sorted := (formatEntries entries).insertionSort fun a b ↦ a.1 ≤ b.1
    "map[" ++ String.intercalate " " (sorted.map fun e ↦ e.1 ++ ":" ++ e.2) ++ "]"

def formatItems : List Claim → List String
  | [] => []
  | v :: items => v.format :: formatItems items

def formatEntries : List (String × Claim) → List (String × String)
  | [] => []
  | (k, v) :: entries => (k, v.format) :: formatEntries entries

end

/-- The text of the attribute for a claim: `%t` for a boolean, `%g` for a number
and `%v` for a list or an object. -/
def attributeText : Claim → String
  | .string v => v
  | .bool v => if v then "true" else "false"
  | .float64 v => v.formatG
  | v => v.format

end Claim

def tokenClaims : List String := ["sub", "exp", "iat", "nbf", "iss", "aud", "jti"]

def extractClaim (claims : Map Claim) (attrs : Map String) (k : String) : Map String :=
  if k ∈ tokenClaims then attrs
  else
    match claims.lookup k with
    | some v => attrs.insert k v.attributeText
    | none => attrs

def extractSubjectAttributes (o : RangeOrder) (claims : Map Claim) :
    Except String (String × Map String) :=
  match claims.lookup "sub" with
  | some (.string sub) =>
    if sub = "" then .error "thieu hoac sai kieu truong 'sub' trong token claims"
    else .ok (sub, (o.keys claims).foldl (extractClaim claims) ∅)
  | _ => .error "thieu hoac sai kieu truong 'sub' trong token claims"

section Extraction

variable {claims : Map Claim} {o : RangeOrder}

theorem lookup_extractClaims (keys : List String) (attrs : Map String) (k : String) :
    (keys.foldl (extractClaim claims) attrs).lookup k =
      if k ∈ keys ∧ k ∉ tokenClaims then ((claims.lookup k).map Claim.attributeText).or (attrs.lookup k)
      else attrs.lookup k := by
  induction keys generalizing attrs with
  | nil => simp
  | cons key _ ih =>
    rw [List.foldl_cons, ih]
    by_cases hkey : k = key
    · subst hkey
      by_cases hreserved : k ∈ tokenClaims
      · simp [extractClaim, hreserved]
      · cases hclaim : claims.lookup k with
        | none => simp [extractClaim, hreserved, hclaim]
        | some => simp [extractClaim, hreserved, hclaim]
    · have hattrs : (extractClaim claims attrs key).lookup k = attrs.lookup k := by
        unfold extractClaim
        split
        · rfl
        · split
          · exact AList.lookup_insert_ne hkey
          · rfl
      simp [hattrs, hkey]

theorem lookup_attributes {subject : String} {attributes : Map String}
    (h : extractSubjectAttributes o claims = .ok (subject, attributes)) (k : String) :
    attributes.lookup k =
      if k ∈ tokenClaims then none else (claims.lookup k).map Claim.attributeText := by
  unfold extractSubjectAttributes at h
  split at h
  · split_ifs at h
    cases h
    rw [lookup_extractClaims]
    by_cases hreserved : k ∈ tokenClaims
    · simp [hreserved]
    · cases hclaim : claims.lookup k with
      | none => simp [hreserved]
      | some =>
        have hmem : k ∈ o.keys claims :=
          o.mem_keys.mpr (AList.lookup_isSome.mp (by rw [hclaim]; rfl))
        simp [hreserved, hmem]
  · cases h

end Extraction

end PolicyEngine.Security
