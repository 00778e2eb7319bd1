import PolicyEngine.Addon.AmountAgreement
import PolicyEngine.Addon.CanonicalDecimals
import PolicyEngine.Addon.CbiLines
import PolicyEngine.Addon.DirectRequest
import PolicyEngine.Addon.PdpProtocol
import PolicyEngine.Audit.ArchiveOnce
import PolicyEngine.Audit.Logger
import PolicyEngine.Audit.SpillCounters
import PolicyEngine.Audit.StreamRoundTrip
import PolicyEngine.Audit.TamperEvidence
import PolicyEngine.Engine.AccessRecords
import PolicyEngine.Engine.Chronology
import PolicyEngine.Engine.ConstantFolding
import PolicyEngine.Engine.DeclaredAttributes
import PolicyEngine.Engine.EdgeSync
import PolicyEngine.Engine.MirrorComparison
import PolicyEngine.Engine.MissingAttributes
import PolicyEngine.Engine.RoleClosure
import PolicyEngine.Engine.RoleScopes
import PolicyEngine.Engine.Simulation
import PolicyEngine.Engine.WrittenConditions
import PolicyEngine.Odoo.Laundering
import PolicyEngine.Odoo.LinePhantom
import PolicyEngine.Odoo.RevocationFence
import PolicyEngine.Parser.Calls
import PolicyEngine.Security.CapabilityLifetime
import PolicyEngine.Security.Lifetime
import PolicyEngine.Security.PurchaseOrderLineMeaning
import PolicyEngine.Security.RevocationSync
import PolicyEngine.Server.AuditAliases
import PolicyEngine.Server.BarredFence
import PolicyEngine.Server.ExplainDecision
import PolicyEngine.Server.IntegerClaims
import PolicyEngine.Server.ReplayBuffer
import PolicyEngine.Server.SignedTuple
import PolicyEngine.Storage.RoleInheritances
