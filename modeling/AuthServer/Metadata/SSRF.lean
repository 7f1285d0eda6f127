import AuthServer.Net.IP
import AuthServer.Store.World

/-!
# Addresses that are not fetched from

`IsPrivateIP` of `internal/ssrf/transport.go`, which is asked of an address before it is dialled,
and `validateURLSafety` of `internal/adapters/cimd/fetcher.go`, which is asked of the URL and sees
an address only where the URL has one in place of a name. The second uses the predicates of the
standard library and covers less. -/

namespace AuthServer

open Net

namespace SSRF

def privateNetworks : List IPNet :=
  [ .dotted 127 0 0 0 8, .dotted 10 0 0 0 8, .dotted 172 16 0 0 12, .dotted 192 168 0 0 16,
    .dotted 169 254 0 0 16, .dotted 0 0 0 0 8,
    .dotted 100 64 0 0 10, .dotted 192 0 0 0 24, .dotted 192 0 2 0 24, .dotted 198 18 0 0 15,
    .dotted 198 51 100 0 24, .dotted 203 0 113 0 24, .dotted 224 0 0 0 4, .dotted 240 0 0 0 4,
    .v6 1 128, .colons 0xfc00 0 7, .colons 0xfe80 0 10,
    .v6 0 128, .colons 0x2001 0x0db8 32, .colons 0xff00 0 8 ]

def isPrivateIP (ip : IP) : Bool := privateNetworks.any (·.contains ip)

/-- **Both forms** of an IPv4 address are private, or neither is. -/
theorem isPrivateIP_of_equal {ip ip' : IP} (h : ip.Equal ip') : isPrivateIP ip =
    isPrivateIP ip' := by
  simp only [isPrivateIP, IPNet.contains_of_equal h]

-- The cloud metadata endpoint, in both forms.
example : isPrivateIP (.v4 0xa9fea9fe) = true ∧ isPrivateIP (.v6 0xffffa9fea9fe) = true := by decide

end SSRF

/-- `validateURLSafety`, with `net.ParseIP`. -/
def validateURLSafety (env : Env) (parseIP : String → Option IP) (parsed : ParsedURL)
    (allowPrivate : Bool) :
    Except Err Unit :=
  if allowPrivate then .ok ()
  else
    let host := parsed.hostname
    let rejected (kind : String) : Except Err Unit :=
      .error (.wrapped .cimdFetchFailed (kind ++ " address rejected: " ++ host))
    if env.equalFold host "localhost" then rejected "loopback"
    else
      match parseIP host with
      | none => .ok ()
      | some ip =>
        if ip.isLoopback then rejected "loopback"
        else if ip.isPrivate then rejected "private network"
        else if ip.isLinkLocalUnicast || ip.isLinkLocalMulticast then rejected "link-local"
        else if ip.isUnspecified then rejected "unspecified"
        else .ok ()

end AuthServer
