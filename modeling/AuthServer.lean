import AuthServer.Api.JWTMiddleware
import AuthServer.Api.Redirect
import AuthServer.Crypto.Encryptor
import AuthServer.Metadata.Lifetime
import AuthServer.Security.Allowlist
import AuthServer.Security.CallerAuthority
import AuthServer.Security.ConnectFlow
import AuthServer.Security.ConnectVend
import AuthServer.Security.ConsentCascade
import AuthServer.Security.CycleCheck
import AuthServer.Security.ExchangeGates
import AuthServer.Security.FailingLookups
import AuthServer.Security.FederatedIdentity
import AuthServer.Security.FilteredFetch
import AuthServer.Security.ForceLogout
import AuthServer.Security.FrontingCatalog
import AuthServer.Security.IDPKeys
import AuthServer.Security.LineageCut
import AuthServer.Security.Liveness
import AuthServer.Security.Lockout
import AuthServer.Security.OneAccount
import AuthServer.Security.OpenRedirect
import AuthServer.Security.Permanence
import AuthServer.Security.ProofFreshness
import AuthServer.Security.RefusedRefresh
import AuthServer.Security.ReuseCut
import AuthServer.Security.Rotation
import AuthServer.Security.SelfRegistration
import AuthServer.Security.SessionScope
import AuthServer.Security.StaleVend
import AuthServer.Security.Stranger
import AuthServer.Security.TokenRevocation
import AuthServer.Service.ResourceMetadata
import AuthServer.Service.Runs
import AuthServer.Signing.CommandLine
import AuthServer.Signing.KeyListener
import AuthServer.Signing.UnderLoad
import AuthServer.Store.UserCache
