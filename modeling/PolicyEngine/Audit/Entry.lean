import PolicyEngine.Go.Map

namespace PolicyEngine.Audit

open PolicyEngine.Go

/-- `LogEntry` without the evaluation time. A `nil` context is `none`. -/
structure LogEntry where
  auditId : String
  payloadVersion : Int64
  timestamp : Int64
  revisionId : UInt64
  tenantId : String
  subject : String
  action : String
  resource : String
  decision : String
  matchedPolicyId : String
  context : Option (Map String)
  isEncrypted : Bool
  keyId : String
  requestId : String
  traceId : String
  encryptedDek : String
  encryptedPayload : String
  integrityTag : String
deriving DecidableEq

end PolicyEngine.Audit
