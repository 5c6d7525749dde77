import Conrogate.Core.Http

/-!
# Who calls the control plane

A token of the form `operator:secret:role` says who calls and in which role; any other configured
token is a viewer. Without tokens everybody is an administrator.
-/

namespace Conrogate

structure AuthState where
  tokens : List String

def AuthState.fromConfigured (raw : String) : AuthState where
  tokens := (((splitChar ',' raw.toList).map trim).filter (· ≠ [])).map String.ofList

inductive Role where
  | viewer
  | operator
  | admin
deriving DecidableEq

namespace Role

def rank : Role → Nat
  | .viewer   => 0
  | .operator => 1
  | .admin    => 2

def hasPermission (role required : Role) : Bool := required.rank ≤ role.rank

/-- `parse_role`. No letter outside ASCII has a lower case in one of the two words. -/
def parseRole (s : String) : Role :=
  if toAsciiLowercase s = "admin" then .admin
  else if toAsciiLowercase s = "operator" then .operator
  else .viewer

end Role

def parseToken (token : String) : Option (String × String × Role) :=
  match (splitChar ':' token.toList).map String.ofList with
  | [operator, secret, role] => some (operator, secret, Role.parseRole role)
  | _ => none

def requestToken (headers : HeaderMap) : Option String := do
  let value ← headers.get "authorization"
  let text ← value.toStr
  let rest ← text.toList.dropPrefix? "Bearer ".toList
  some (String.ofList rest)

def authMiddleware (auth : AuthState) (headers : HeaderMap) : Option (Role × String) :=
  if auth.tokens = [] then some (.admin, "anonymous")
  else match requestToken headers with
    | none => none
    | some token =>
      if !auth.tokens.contains token then none
      else match parseToken token with
        | some (operator, _, role) => some (role, operator)
        | none => some (.viewer, "unknown")

end Conrogate
