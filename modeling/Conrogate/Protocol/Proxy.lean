import Conrogate.Core.Dto
import Conrogate.Core.Error

/-!
# Requests to an upstream

Addresses of nodes and the requests the gateway sends to them. What the `http` crate makes of a
text is left open.
-/

namespace Conrogate

structure ParsedUri where
  text : String
  authority : Option String
  pathAndQuery : Option String

/-- What the `http` crate decides. -/
structure HttpCrate where
  parseUri : String → Except String ParsedUri
  buildRequest : (method : String) → ParsedUri → Except String Unit
  buildResponse : (status : Nat) → HeaderMap → Except String Unit
  displayStatus : (status : Nat) → String

structure OutRequest where
  method : String
  uri : ParsedUri
  headers : HeaderMap
  body : Option (List UInt8)

structure ProxyResult where
  status : Nat
  headers : HeaderMap
  body : List UInt8

structure TunnelStats where
  bytesIn : Nat
  bytesOut : Nat

def upstreamAddr (node : UpstreamNodeDto) : String :=
  if containsText node.address "://" then node.address else "http://" ++ node.address

def upstreamScheme (node : UpstreamNodeDto) : String :=
  if startsWith node.address "https://" then "https" else "http"

def upstreamHost (http : HttpCrate) (node : UpstreamNodeDto) : String :=
  match http.parseUri (upstreamAddr node) with
  | .ok uri  => uri.authority.getD node.address
  | .error _ => node.address

def buildUpstreamUri (http : HttpCrate) (node : UpstreamNodeDto) (pathAndQuery : Option String) :
    Result ParsedUri :=
  (http.parseUri (upstreamAddr node ++ pathAndQuery.getD "/")).mapError fun e =>
    .upstreamConnectFailed ("uri parse: " ++ e)

def sensitiveHeaders : List String :=
  ["authorization", "cookie", "proxy-authorization", "x-api-key", "x-forwarded-for",
    "x-forwarded-proto", "x-request-id", "x-trace-id"]

def stripSensitiveHeaders (headers : HeaderMap) : HeaderMap :=
  sensitiveHeaders.foldl HeaderMap.remove headers

lemma getAll_stripSensitiveHeaders (headers : HeaderMap) (name : String) :
    (stripSensitiveHeaders headers).getAll name =
      if name ∈ sensitiveHeaders then [] else headers.getAll name :=
  HeaderMap.getAll_foldl_remove headers sensitiveHeaders name

def buildOutHeaders (http : HttpCrate) (route : RouteSnapshot) (node : UpstreamNodeDto)
    (headers : HeaderMap) (traceId requestId realIp : String) : HeaderMap :=
  ((((stripSensitiveHeaders headers).insertText "x-trace-id" traceId
    |>.insertText "x-forwarded-for" realIp)
    |>.insertText "x-forwarded-proto" (upstreamScheme node))
    |>.insertText "x-request-id" requestId)
    |>.insertText "host" (route.hostHeader.getD (upstreamHost http node))

end Conrogate
