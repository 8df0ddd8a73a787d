import CobraProxy.Lib.IpAddr

/-! Destinations: the normal form of an authority, the canonical origin of an HTTP request, the
canonical key of a CONNECT target, and which destinations the local policy lets through. Parsing an
authority is the http crate's and is a parameter, `parseAuthority`. -/

namespace Cobra

open Text

/-- What the proxy reads of an `http::uri::Authority`. -/
structure Authority where
  host : Str
  portU16 : Option UInt16
  deriving DecidableEq

/-- `str::parse::<Authority>`, with the text of its error. -/
abbrev ParseAuthority := Str → Except String Authority

structure Uri where
  scheme : Option Str
  authority : Option Authority
  pathAndQuery : Option Str

/-- A request as Pingora hands it over. Header names are lower-case, as the header map keeps them. -/
structure RequestHeader where
  method : Str
  uri : Uri
  headers : List (Str × Bytes)

namespace RequestHeader

/-- The first value of a header. -/
def get (r : RequestHeader) (name : String) : Option Bytes :=
  (r.headers.find? fun h => h.1 == name.toList).map Prod.snd

def containsKey (r : RequestHeader) (name : String) : Bool := r.headers.any fun h => h.1 == name.toList

/-- `HeaderValue::to_str`: visible ASCII and tabs only. -/
def toStr (value : Bytes) : Option Str :=
  if value.all fun b => (32 ≤ b && b < 127) || b == 9 then some (value.map fun b => Char.ofNat b.toNat)
  else none

end RequestHeader

/-- Enclosing brackets and trailing dots are dropped, and letters are lowered. -/
def normalizedHost (host : Str) : Str :=
  toAsciiLowercase (trimEnd (· == '.') (trimEnd (· == ']') (trimStart (· == '[') host)))

def normalizedAuthority (authority : Authority) (scheme : Str) : Str × UInt16 :=
  let defaultPort := if eqIgnoreAsciiCase scheme "https".toList then 443 else 80
  (normalizedHost authority.host, authority.portU16.getD defaultPort)

/-- `host:port`, with brackets around a host that has a colon. -/
def formatHostPort (host : Str) (port : UInt16) : Str :=
  (if ':' ∈ host then '[' :: host ++ [']'] else host) ++ ':' :: Nat.toDigits 10 port.toNat

def formatCanonicalOrigin (scheme host : Str) (port : UInt16) : Str :=
  scheme ++ "://".toList ++ formatHostPort host port

section Parsing

variable (parseAuthority : ParseAuthority)

def canonicalCacheKeyParts (request : RequestHeader) : Except String (Str × Str) := do
  let some hostHeader := (request.get "host").bind RequestHeader.toStr
    | throw "request is missing a valid Host header"
  let hostAuthority ← (parseAuthority hostHeader).mapError ("invalid Host authority: " ++ ·)
  let scheme := toAsciiLowercase (request.uri.scheme.getD "http".toList)
  if scheme ≠ "http".toList ∧ scheme ≠ "https".toList then throw "unsupported URI scheme"
  let (host, port) := normalizedAuthority hostAuthority scheme
  if host.isEmpty ∨ port = 0 then
    throw "request authority requires a non-empty host and non-zero port"
  if request.uri.authority.any fun authority => normalizedAuthority authority scheme ≠ (host, port) then
    throw "absolute-form URI authority disagrees with Host header"
  return (formatCanonicalOrigin scheme host port, request.uri.pathAndQuery.getD "/".toList)

def canonicalConnectDestinationKey (destination : Str) : Except String Str := do
  let authority ← (parseAuthority destination).mapError ("invalid CONNECT authority: " ++ ·)
  let some port := authority.portU16.filter (· ≠ 0)
    | throw "CONNECT destination requires a non-zero port"
  return formatHostPort (normalizedHost authority.host) port

/-- The names that both policies refuse. -/
def isLocalName (host : Str) : Bool :=
  host == "localhost".toList || ".localhost".toList.isSuffixOf host || ".local".toList.isSuffixOf host ||
    ".internal".toList.isSuffixOf host || ".home".toList.isSuffixOf host || ".lan".toList.isSuffixOf host

def addressAllowed : IpAddr → Bool
  | .v4 a => !IpAddr.isPrivate a && !IpAddr.isLoopback4 a && !IpAddr.isLinkLocal a &&
      !IpAddr.isBroadcast a && !IpAddr.isUnspecified4 a && !IpAddr.isMulticast4 a
  | .v6 a => !IpAddr.isLoopback6 a && !IpAddr.isUnspecified6 a && !IpAddr.isMulticast6 a &&
      !IpAddr.isUniqueLocal a && !IpAddr.isUnicastLinkLocal a

/-- The error quotes the destination, which the text leaves out. -/
def connectDestinationAllowed (destination : Str) : Except String Bool := do
  let authority ← (parseAuthority destination).mapError ("invalid CONNECT authority: " ++ ·)
  let host := normalizedHost authority.host
  if isLocalName host then return false
  match IpAddr.parse host with
  | none => return true
  | some address => return addressAllowed address

/-- The host and port that `upstream_peer` dials: those of the Host header, port 80 by default. -/
def upstreamPeer (request : RequestHeader) : Option (Str × UInt16) := do
  let host ← (request.get "host").bind RequestHeader.toStr
  let authority ← (parseAuthority host).toOption
  return (authority.host, authority.portU16.getD 80)

/-- The address of the peer. -/
def upstreamTarget (request : RequestHeader) : Option Str := do
  let (host, port) ← upstreamPeer parseAuthority request
  return host ++ ':' :: Nat.toDigits 10 port.toNat

end Parsing

end Cobra
