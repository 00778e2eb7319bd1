import PolicyEngine.Addon.Reconstruction

namespace PolicyEngine.Addon

open PolicyEngine.Go PolicyEngine.Go.Result PolicyEngine.Python PolicyEngine.Security

namespace Pdp

def proofVersion : String := "v1"

def maxDelegationTTLSeconds : ℤ := 24 * 60 * 60

def stringFields : List String :=
  ["tenant_id", "grant_id", "delegator", "agent", "action", "resource", "amount",
    "delegation_chain", "creator_id", "tool_context", "execution_mode", "nonce"]

def requiredFields : List String :=
  ["tenant_id", "grant_id", "delegator", "agent", "action", "resource", "delegation_chain", "nonce"]

section Signer

-- The `int` of an object; nothing depends on what it makes of a text or a float.
variable (intOf : Value → Except String ℤ) (values : Dict)

def getStr (field : String) : String := (Map.get values (.str "") field).toStr

def validateTuple : Except String Unit :=
  match requiredFields.find? fun field ↦ strip isSpace (getStr values field) = "" with
  | some field => .error ("missing delegation field " ++ field)
  | none => do
    let issuedAt ← intOf (Map.get values (.int 0) "issued_at")
    let validUntil ← intOf (Map.get values (.int 0) "valid_until")
    rejectIf (issuedAt ≤ 0 ∨ validUntil ≤ issuedAt) "invalid delegation validity window"
    rejectIf (validUntil - issuedAt > maxDelegationTTLSeconds) "delegation TTL exceeds 24 hours"
    let chain ← Dict.item values "delegation_chain"
    let delegator ← Dict.item values "delegator"
    let agent ← Dict.item values "agent"
    rejectIf (chain ≠ .str (delegator.toStr ++ "," ++ agent.toStr))
      "delegation chain must bind delegator directly to agent"

def canonicalDelegationBytes (keyId : String) : Except String (List UInt8) := do
  validateTuple intOf values
  rejectIf (keyIdPattern keyId = false) "invalid delegation key ID"
  return Text.bytes "PDP-DELEGATION-PROOF" ++ (← packText proofVersion) ++ (← packText keyId) ++
    (← stringFields.mapM fun field ↦ packText (getStr values field)).flatten ++
    (← packInt64 (← intOf (← Dict.item values "issued_at"))) ++
    (← packInt64 (← intOf (← Dict.item values "valid_until")))

def signDelegationTuple (prim : Primitives) (keyId secret : String) : Except String String := do
  rejectIf (secret.toList.length < 32) "delegation signing key is too short"
  let payload ← canonicalDelegationBytes intOf values keyId
  return proofVersion ++ "." ++ keyId ++ "." ++
    Encoding.hexEncode (prim.hmac (Text.bytes secret) payload)

def tuple (issuedAt validUntil : Int64) : DelegationProofInput where
  tenantId := getStr values "tenant_id"
  grantId := getStr values "grant_id"
  delegator := getStr values "delegator"
  agent := getStr values "agent"
  action := getStr values "action"
  resource := getStr values "resource"
  amount := getStr values "amount"
  delegationChain := getStr values "delegation_chain"
  creatorId := getStr values "creator_id"
  toolContext := getStr values "tool_context"
  executionMode := getStr values "execution_mode"
  nonce := getStr values "nonce"
  issuedAt := issuedAt
  validUntil := validUntil

end Signer

section Agreement

variable {prim : Primitives} {intOf : Value → Except String ℤ} {values : Dict}
  {keyId secret proof : String}

theorem getStr_of_item {field : String} {value : Value} (h : Dict.item values field = .ok value) :
    getStr values field = value.toStr := by
  unfold Dict.item at h
  split at h
  · rename_i hfound
    rw [getStr, Map.get, hfound, Option.getD_some, Except.ok.inj h]
  · cases h

theorem item_of_get {field : String} {zero value : Value} {number : ℤ}
    (h : Dict.item values field = .ok value) (hint : intOf (Map.get values zero field) = .ok number) :
    intOf value = .ok number := by
  unfold Dict.item at h
  split at h
  · rename_i hfound
    rw [Map.get, hfound, Option.getD_some, Except.ok.inj h] at hint
    exact hint
  · cases h

variable (values) in
structure Tuple (issued valid : Int64) : Prop where
  required : ∀ field ∈ requiredFields, strip isSpace (getStr values field) ≠ ""
  positive : 0 < issued.toInt
  ordered : issued.toInt < valid.toInt
  ttl : valid.toInt - issued.toInt ≤ maxDelegationTTLSeconds
  chain : getStr values "delegation_chain" =
    getStr values "delegator" ++ "," ++ getStr values "agent"

theorem validateStructure_iff (input : DelegationProofInput) (hpositive : 0 < input.issuedAt.toInt)
    (hordered : input.issuedAt.toInt < input.validUntil.toInt)
    (hshort : input.validUntil.toInt - input.issuedAt.toInt ≤ maxDelegationTTLSeconds) :
    input.validateStructure = .ok () ↔ (∀ f ∈ input.required, Text.trimSpace f.2 ≠ "") ∧
      Text.split input.delegationChain ',' = [input.delegator, input.agent] := by
  have hwindow : ¬ (input.issuedAt ≤ 0 ∨ input.validUntil ≤ 0 ∨ input.validUntil ≤ input.issuedAt) := by
    simp only [not_or, Int64.not_le, Int64.lt_iff_toInt_lt, Int64.toInt_zero]
    omega
  have httl : ¬ (input.validUntil - input.issuedAt) * Int64.ofInt Time.second >
      Int64.ofInt maxDelegationTTL := by
    unfold maxDelegationTTLSeconds at hshort
    have hsecond : (Int64.ofInt Time.second).toInt = 1000000000 := by decide
    have hmax : (Int64.ofInt maxDelegationTTL).toInt = 86400000000000 := by decide
    have hmul : ((input.validUntil - input.issuedAt) * Int64.ofInt Time.second).toInt =
        (input.validUntil.toInt - input.issuedAt.toInt) * 1000000000 := by
      rw [Int64.toInt_mul, toInt_sub_of_ordered hpositive hordered, hsecond]
      exact Int.bmod_eq_of_le (by omega) (by omega)
    rw [gt_iff_lt, Int64.not_lt, Int64.le_iff_toInt_le, hmul, hmax]
    omega
  unfold DelegationProofInput.validateStructure
  split
  · rename_i hfind
    refine ⟨nofun, fun h ↦ ?_⟩
    exact absurd (h.1 _ (List.mem_of_find?_eq_some hfind)) (by simpa using List.find?_some hfind)
  · rename_i hnone
    rw [if_neg hwindow, if_neg httl]
    have hblank : ∀ f ∈ input.required, Text.trimSpace f.2 ≠ "" := by simpa using hnone
    split_ifs with hsplit
    · exact ⟨nofun, fun h ↦ absurd h.2 hsplit⟩
    · exact ⟨fun _ ↦ ⟨hblank, not_not.mp hsplit⟩, fun _ ↦ rfl⟩

theorem trimSpace_ne_empty {text : String} (h : strip isSpace text ≠ "") :
    Text.trimSpace text ≠ "" := by
  intro hempty
  refine h (strip_eq_empty_iff.mpr fun c hc ↦ ?_)
  rw [isSpace, strip_eq_empty_iff.mp hempty c hc]
  rfl

theorem Tuple.validateStructure_iff {issued valid : Int64} (h : Tuple values issued valid) :
    (tuple values issued valid).validateStructure = .ok () ↔
      ',' ∉ (getStr values "delegator").toList ∧ ',' ∉ (getStr values "agent").toList := by
  have hblank : ∀ f ∈ (tuple values issued valid).required, Text.trimSpace f.2 ≠ "" := by
    have hstrip := h.required
    simp only [requiredFields, DelegationProofInput.required, List.forall_mem_cons] at hstrip ⊢
    obtain ⟨h₁, h₂, h₃, h₄, h₅, h₆, h₇, h₈, -⟩ := hstrip
    exact ⟨trimSpace_ne_empty h₁, trimSpace_ne_empty h₂, trimSpace_ne_empty h₃,
      trimSpace_ne_empty h₄, trimSpace_ne_empty h₅, trimSpace_ne_empty h₆, trimSpace_ne_empty h₇,
      trimSpace_ne_empty h₈, nofun⟩
  have hcomma : "," = String.singleton ',' := by decide
  rw [Pdp.validateStructure_iff (tuple values issued valid) h.positive h.ordered h.ttl,
    and_iff_right hblank, ← Text.split_append_eq_pair_iff]
  simp only [tuple, h.chain, hcomma]

theorem mapM_packText {fields : List String} {chunks : List (List UInt8)}
    (h : fields.mapM (fun field ↦ packText (getStr values field)) = .ok chunks) :
    chunks = fields.map fun field ↦ Encoding.lengthPrefixed (Text.bytes (getStr values field)) := by
  induction fields generalizing chunks with
  | nil =>
    cases h
    rfl
  | cons _ _ ih =>
    simp only [List.mapM_cons, bind_eq_ok, packText_eq_ok] at h
    obtain ⟨_, ⟨-, rfl⟩, _, hrest, h⟩ := h
    cases h
    rw [ih hrest, List.map_cons]

theorem validateTuple_of_ok {issued valid : Int64} {issuedAt validUntil : Value}
    (hissued : Dict.item values "issued_at" = .ok issuedAt) (hi : intOf issuedAt = .ok issued.toInt)
    (hvalid : Dict.item values "valid_until" = .ok validUntil)
    (hv : intOf validUntil = .ok valid.toInt) (h : validateTuple intOf values = .ok ()) :
    Tuple values issued valid := by
  unfold validateTuple at h
  split at h
  · cases h
  · rename_i hnone
    simp only [bind_unit_eq_ok, bind_eq_ok (α := Value), bind_eq_ok (α := ℤ), rejectIf_eq_ok, not_or,
      ne_eq, not_not, Int.not_le] at h
    obtain ⟨_, hgeti, _, hgetv, hwindow, httl, _, hchain, _, hd, _, ha, rfl⟩ := h
    obtain rfl := Except.ok.inj (hi.symm.trans (item_of_get hissued hgeti))
    obtain rfl := Except.ok.inj (hv.symm.trans (item_of_get hvalid hgetv))
    refine ⟨?_, hwindow.1, hwindow.2, Int.not_lt.mp httl, ?_⟩
    · simpa using hnone
    · rw [getStr_of_item hchain, getStr_of_item hd, getStr_of_item ha]
      rfl

theorem canonicalDelegationBytes_of_ok {bytes : List UInt8}
    (h : canonicalDelegationBytes intOf values keyId = .ok bytes) :
    keyIdPattern keyId = true ∧ ∃ issued valid : Int64,
      (Dict.item values "issued_at" >>= intOf) = .ok issued.toInt ∧
      (Dict.item values "valid_until" >>= intOf) = .ok valid.toInt ∧
      Tuple values issued valid ∧ bytes = (tuple values issued valid).canonicalBytes keyId := by
  simp only [canonicalDelegationBytes, bind_unit_eq_ok, rejectIf_eq_ok, bind_eq_ok (α := List UInt8),
    bind_eq_ok (α := List (List UInt8)), bind_eq_ok (α := Value), bind_eq_ok (α := ℤ),
    packText_eq_ok, packInt64_eq_ok, pure, Except.pure, Except.ok.injEq, and_assoc,
    exists_and_left, exists_eq_left'] at h
  obtain ⟨htuple, hkey, -, -, chunks, hchunks, issuedAt, hissued, i, hi, hrange, validUntil, hvalid,
    v, hv, hrange', rfl⟩ := h
  obtain ⟨issued, rfl⟩ : ∃ issued : Int64, issued.toInt = i := ⟨_, hrange⟩
  obtain ⟨valid, rfl⟩ : ∃ valid : Int64, valid.toInt = v := ⟨_, hrange'⟩
  obtain rfl := mapM_packText hchunks
  refine ⟨by simpa using hkey, issued, valid, bind_eq_ok.mpr ⟨_, hissued, hi⟩,
    bind_eq_ok.mpr ⟨_, hvalid, hv⟩, validateTuple_of_ok hissued hi hvalid hv htuple, ?_⟩
  rw [Int64.ofInt_toInt, Int64.ofInt_toInt]
  simp only [DelegationProofInput.canonicalBytes, tuple, stringFields, proofVersion, List.map_cons,
    List.map_nil, List.flatten_cons, List.flatten_nil, List.flatMap_cons, List.flatMap_nil,
    List.append_assoc]

theorem verifyProof_iff (input : DelegationProofInput) (hkey : keyIdPattern keyId = true)
    (hsecret : 32 ≤ secret.toList.length) {m : DelegationManager} {now : ℤ}
    (hlookup : m.signingKeys.lookup keyId = some (Text.bytes secret))
    (hafter : input.issuedAt.toInt ≤ Time.unix now)
    (hbefore : Time.unix now ≤ input.validUntil.toInt) :
    m.verifyProof prim now input (proofVersion ++ "." ++ keyId ++ "." ++
        Encoding.hexEncode (prim.hmac (Text.bytes secret) (input.canonicalBytes keyId))) = .ok () ↔
      input.validateStructure = .ok () := by
  obtain ⟨hvalid, hdot⟩ := of_keyIdPattern hkey
  rw [verifyProof_eq_ok]
  constructor
  · intro h
    exact (bind_unit_eq_ok.mp h.1).1
  · intro h
    refine ⟨?_, keyId, _, Text.bytes secret,
      split_proof (by decide) hdot Encoding.dot_notMem_hexEncode, hvalid, hlookup,
      bytes_ne_nil hsecret, Encoding.hexDecode_hexEncode _⟩
    have hskew := unix_le_unix_add_skew now
    simp only [DelegationProofInput.validateAt, bind_unit_eq_ok, rejectIf_eq_ok]
    refine ⟨h, ?_, ?_⟩
    · omega
    · omega

theorem signDelegationTuple_of_ok
    (h : signDelegationTuple intOf values prim keyId secret = .ok proof) :
    32 ≤ secret.toList.length ∧ ∃ payload, canonicalDelegationBytes intOf values keyId = .ok payload ∧
      proof = proofVersion ++ "." ++ keyId ++ "." ++
        Encoding.hexEncode (prim.hmac (Text.bytes secret) payload) := by
  simp only [signDelegationTuple, bind_unit_eq_ok, bind_eq_ok (α := List UInt8), rejectIf_eq_ok, pure,
    Except.pure, Except.ok.injEq] at h
  obtain ⟨hsecret, payload, hpayload, rfl⟩ := h
  exact ⟨Nat.not_lt.mp hsecret, payload, hpayload, rfl⟩

/-- Both sides sign the same bytes of a tuple that the Python signer signs; the
server accepts its proof within the window exactly when neither subject of the
chain has a comma in it. -/
theorem signed_tuple_verifies_iff (prim : Primitives) {intOf : Value → Except String ℤ}
    {values : Dict} {keyId secret proof : String}
    (h : signDelegationTuple intOf values prim keyId secret = .ok proof) :
    ∃ issued valid : Int64,
      (Dict.item values "issued_at" >>= intOf) = .ok issued.toInt ∧
      (Dict.item values "valid_until" >>= intOf) = .ok valid.toInt ∧
      canonicalDelegationBytes intOf values keyId =
        .ok ((tuple values issued valid).canonicalBytes keyId) ∧
      ((∀ m : DelegationManager, m.signingKeys.lookup keyId = some (Text.bytes secret) →
        ∀ now, issued.toInt ≤ Time.unix now → Time.unix now ≤ valid.toInt →
          m.verifyProof prim now (tuple values issued valid) proof = .ok ()) ↔
        ',' ∉ (getStr values "delegator").toList ∧ ',' ∉ (getStr values "agent").toList) := by
  obtain ⟨hsecret, _, hpayload, rfl⟩ := signDelegationTuple_of_ok h
  obtain ⟨hkey, issued, valid, hissued, hvalid, htuple, rfl⟩ := canonicalDelegationBytes_of_ok hpayload
  refine ⟨issued, valid, hissued, hvalid, hpayload, ?_⟩
  rw [← htuple.validateStructure_iff]
  constructor
  · intro hall
    -- Any verifier that knows the key, asked when the window opens.
    let m : DelegationManager :=
      { newDelegationManagerWithSecret "" with
        signingKeys := Map.ofList [(keyId, Text.bytes secret)] }
    have hlookup : m.signingKeys.lookup keyId = some (Text.bytes secret) :=
      AList.lookup_insert ∅
    have hnow : Time.unix (issued.toInt * Time.second) = issued.toInt :=
      Int.mul_ediv_cancel _ (by decide)
    have hordered := htuple.ordered
    have hverify := hall m hlookup (issued.toInt * Time.second) (by omega) (by omega)
    exact (bind_unit_eq_ok.mp (verifyProof_eq_ok.mp hverify).1).1
  · intro hstructure _ hlookup _ hafter hbefore
    exact (verifyProof_iff (tuple values issued valid) hkey hsecret hlookup hafter hbefore).mpr
      hstructure

def exactInt : Value → Except String ℤ
  | .int number => .ok number
  | _ => .error "TypeError: int() argument must be a number"

def tupleValues (delegator agent : String) : Dict :=
  Map.ofList [("tenant_id", .str "t1"), ("grant_id", .str "9"), ("delegator", .str delegator),
    ("agent", .str agent), ("action", .str "action:READ"), ("resource", .str "doc:1"),
    ("amount", .str ""), ("delegation_chain", .str (delegator ++ "," ++ agent)),
    ("creator_id", .str "user:carol"), ("tool_context", .str ""), ("execution_mode", .str ""),
    ("nonce", .str "n1"), ("issued_at", .int 1000), ("valid_until", .int 4600)]

theorem signed_tuple_verifies_alice : ∃ proof, signDelegationTuple exactInt
    (tupleValues "user:alice" "agent:bot") .standard "legacy" "0123456789abcdef0123456789abcdef" =
      .ok proof ∧
    (newDelegationManagerWithSecret "0123456789abcdef0123456789abcdef").verifyProof .standard
      (2000 * Time.second) (tuple (tupleValues "user:alice" "agent:bot") 1000 4600) proof =
      .ok () := by
  obtain ⟨proof, hproof⟩ := exists_of_isOk (x := signDelegationTuple exactInt
    (tupleValues "user:alice" "agent:bot") .standard "legacy" "0123456789abcdef0123456789abcdef") rfl
  obtain ⟨issued, valid, hissued, hvalid, -, hverify⟩ := signed_tuple_verifies_iff .standard hproof
  have hi : (1000 : Int64) = issued := Int64.toInt_inj.mp (Except.ok.inj hissued)
  have hv : (4600 : Int64) = valid := Int64.toInt_inj.mp (Except.ok.inj hvalid)
  subst hi hv
  refine ⟨proof, hproof, hverify.mpr ?_ _ rfl _ (by decide) (by decide)⟩
  decide

/-- A comma in the login of a delegator is signed, and the proof is refused. -/
theorem comma_in_delegator_refused : ∃ proof, signDelegationTuple exactInt
    (tupleValues "user:a,b" "agent:bot") .standard "legacy" "0123456789abcdef0123456789abcdef" =
      .ok proof ∧
    (newDelegationManagerWithSecret "0123456789abcdef0123456789abcdef").verifyProof .standard
      (2000 * Time.second) (tuple (tupleValues "user:a,b" "agent:bot") 1000 4600) proof =
      .error "delegation chain must bind delegator directly to agent" := by
  obtain ⟨proof, hproof⟩ := exists_of_isOk (x := signDelegationTuple exactInt
    (tupleValues "user:a,b" "agent:bot") .standard "legacy" "0123456789abcdef0123456789abcdef") rfl
  exact ⟨proof, hproof, rfl⟩

end Agreement

end Pdp

end PolicyEngine.Addon
