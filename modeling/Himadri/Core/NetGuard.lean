import Himadri.Core.IpAddr
import Himadri.Core.Text

/-!
# The guard of base URLs

`himadri-core`'s `net_guard`: which addresses are internal, and the check of a provider's base URL
against requests to them.
-/

namespace Himadri

/-- `ip_is_internal`. -/
def ipIsInternal : IpAddr → Bool
  | .v4 v4 =>
    v4.isLoopback || v4.isPrivate || v4.isLinkLocal || v4.isUnspecified || v4.isBroadcast ||
      v4.isDocumentation || (v4.a.val = 100 && v4.b.val &&& 0xc0 = 64)
  | .v6 v6 => v6.isLoopback || v6.isUnspecified || v6.isUniqueLocal || v6.isUnicastLinkLocal

/-- The piece of a text before the first character of a kind: `split(..).next()`. -/
def firstPiece (stop : Char → Bool) (s : List Char) : List Char := s.takeWhile (!stop ·)

/-- The piece of a text after the last such character: `rsplit(..).next()`. -/
def lastPiece (stop : Char → Bool) (s : List Char) : List Char := s.rtakeWhile (!stop ·)

/-- The authority ends at the path, the query or the fragment. -/
def isSeparator (c : Char) : Bool := c = '/' || c = '?' || c = '#'

/-- The bare host: without brackets or a port. -/
def dropPort : List Char → List Char
  | '[' :: afterBracket => firstPiece (· = ']') afterBracket
  | hostPort => firstPiece (· = ':') hostPort

/-- The bare host of an authority: without the userinfo. -/
def bareHost (authority : List Char) : List Char := dropPort (lastPiece (· = '@') authority)

/-- What follows `http://` or `https://`. -/
def stripScheme (url : String) : Option String :=
  (Text.stripPrefix url "http://").or (Text.stripPrefix url "https://")

/-- The metadata hostnames. -/
def isMetadata (host : List Char) : Bool :=
  let lowered := host.map Char.toLower
  lowered = "metadata".toList || lowered = "metadata.google.internal".toList

/-- `provider_url_is_allowed`. -/
def providerUrlIsAllowed (url : String) (allowPrivate : Bool) : Except String Unit :=
  match stripScheme url with
  | none => .error "base_url must use http or https"
  | some rest =>
    let host := bareHost (firstPiece isSeparator rest.toList)
    if host.isEmpty then .error "base_url has no host"
    else if allowPrivate then .ok ()
    else if isMetadata host then .error ("base_url host '" ++ .ofList host ++ "' is not allowed")
    else if (IpAddr.parse host).any ipIsInternal then
      .error ("base_url points to an internal address '" ++ .ofList host ++
        "'; set ALLOW_PRIVATE_PROVIDER_URLS=1 to permit private backends")
    else .ok ()

example : bareHost "user:pass@127.0.0.1:8080".toList = "127.0.0.1".toList := by decide

end Himadri
