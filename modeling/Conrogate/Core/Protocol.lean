import Conrogate.Core.Http

/-!
# Protocols and match conditions

What a route asks of a request, and what the gateway knows of a request when it looks for a
route.
-/

namespace Conrogate

inductive ProtocolId where
  | http
  | webSocket
  | tcpTunnel
deriving DecidableEq, Repr

inductive PathMatch where
  | prefixed (p : String)
  | exact (p : String)
  | regex (pattern : String)
deriving DecidableEq, Repr

inductive MatchOp where
  | exact
  | prefixed
  | regex
  | notEmpty
deriving DecidableEq, Repr

structure HeaderMatch where
  key : String
  op : MatchOp
  value : String
deriving DecidableEq, Repr

structure QueryMatch where
  key : String
  op : MatchOp
  value : String
deriving DecidableEq, Repr

/-- What a route asks of a request. -/
structure RouteMatchConditions where
  path : PathMatch
  methods : Option (List String)
  host : Option String
  headers : List HeaderMatch
  queryParams : List QueryMatch
deriving DecidableEq, Repr

/-- What the search for a route looks at. -/
structure RouteMatchInfo where
  path : String
  method : Option String
  host : Option String
  headers : List (String × String)
  queryParams : List (String × String)
deriving DecidableEq, Repr

def splitPair (pair : List Char) : String × String :=
  (String.ofList (pair.takeWhile (· != '=')),
    String.ofList ((pair.dropWhile (· != '=')).drop 1))

def queryVec (uri : Uri) : List (String × String) :=
  match uri.query with
  | none   => []
  | some q => (splitChar '&' q.toList).map splitPair

def headerVec (headers : HeaderMap) : List (String × String) :=
  headers.filterMap fun p => p.2.toStr.map fun v => (p.1, v)

def RouteMatchInfo.fromHttpRequest (method : String) (uri : Uri) (headers : HeaderMap)
    (includeHeaders : Bool) : RouteMatchInfo where
  path := uri.path
  method := some method
  host := (headers.get "host").bind HeaderValue.toStr
  headers := if includeHeaders then headerVec headers else []
  queryParams := queryVec uri

def RouteMatchInfo.fromTunnel (listenAddr : String) (sni : Option String) : RouteMatchInfo where
  path := listenAddr
  method := none
  host := sni
  headers := []
  queryParams := []

end Conrogate
