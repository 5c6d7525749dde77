import Conrogate.Core.Json

/-!
# Tokens

What a token has to be like for `decode` to return its claims, after the documentation of the crate.
Signatures are left to the crate.
-/

namespace Conrogate

inductive JwtAlgorithm where
  | hs256
  | hs384
  | hs512
  | es256
  | es384
  | rs256
  | rs384
  | rs512
  | ps256
  | ps384
  | ps512
  | edDsa
deriving DecidableEq, Repr

inductive AlgorithmFamily where
  | hmac
  | rsa
  | ec
  | ed
deriving DecidableEq, Repr

def JwtAlgorithm.family : JwtAlgorithm → AlgorithmFamily
  | .hs256 | .hs384 | .hs512 => .hmac
  | .rs256 | .rs384 | .rs512 | .ps256 | .ps384 | .ps512 => .rsa
  | .es256 | .es384 => .ec
  | .edDsa => .ed

structure JwtHeader where
  alg : JwtAlgorithm
  kid : Option String

inductive JwtError where
  | invalidAlgorithm
  | invalidSignature
  | missingRequiredClaim (name : String)
  | expiredSignature
  | invalidIssuer
  | invalidAudience
  | malformed (text : String)
deriving DecidableEq

def JwtError.display : JwtError → String
  | .invalidAlgorithm => "InvalidAlgorithm"
  | .invalidSignature => "InvalidSignature"
  | .missingRequiredClaim name => "Missing required claim: " ++ name
  | .expiredSignature => "ExpiredSignature"
  | .invalidIssuer => "InvalidIssuer"
  | .invalidAudience => "InvalidAudience"
  | .malformed text => text

structure JwtCrate (Key : Type) where
  fromSecret : String → Key
  fromRsaPem : String → Except JwtError Key
  fromRsaComponents : (n e : String) → Except JwtError Key
  family : Key → AlgorithmFamily
  decodeHeader : String → Except JwtError JwtHeader
  verify : String → Key → JwtAlgorithm → Except JwtError Bool
  payload : String → Except JwtError Json

inductive TryParse (α : Type) where
  | parsed (value : α)
  | failedToParse
  | notPresent

inductive Names where
  | single (name : String)
  | multiple (names : List String)

def Names.fromValue : Json → Option Names
  | .str s => some (.single s)
  | j => j.asStrings.map .multiple

def Names.meets (correct : List String) : Names → Bool
  | .single name    => correct.contains name
  | .multiple names => names.any correct.contains

structure ClaimsForValidation where
  exp : TryParse Nat
  iss : TryParse Names
  aud : TryParse Names

def TryParse.numeric : Option Json → TryParse Nat
  | none   => .notPresent
  | some j => match j.asU64 with
    | none   => .failedToParse
    | some n => .parsed n

def TryParse.names : Option Json → TryParse Names
  | none | some .null => .notPresent
  | some j => match Names.fromValue j with
    | none => .failedToParse
    | some names => .parsed names

def ClaimsForValidation.fromMembers (members : List (String × Json)) : ClaimsForValidation where
  exp := .numeric (Json.field members "exp")
  iss := .names (Json.field members "iss")
  aud := .names (Json.field members "aud")

structure Validation where
  algorithms : List JwtAlgorithm
  requiredSpecClaims : List String
  leeway : Nat
  validateExp : Bool
  validateAud : Bool
  iss : Option (List String)
  aud : Option (List String)

def Validation.new (alg : JwtAlgorithm) : Validation where
  algorithms := [alg]
  requiredSpecClaims := ["exp"]
  leeway := 60
  validateExp := true
  validateAud := true
  iss := none
  aud := none

def Validation.setIssuer (options : Validation) (names : List String) : Validation :=
  { options with iss := some names }

def Validation.setAudience (options : Validation) (names : List String) : Validation :=
  { options with aud := some names }

def TryParse.isParsed {α : Type} : TryParse α → Bool
  | .parsed _ => true
  | _ => false

namespace ClaimsForValidation

variable (claims : ClaimsForValidation) (options : Validation)

def present : String → Bool
  | "exp" => claims.exp.isParsed
  | "iss" => claims.iss.isParsed
  | "aud" => claims.aud.isParsed
  | _ => true

def checkExp (now : Nat) : Except JwtError Unit :=
  match claims.exp with
  | .parsed exp =>
    if options.validateExp && exp < now - options.leeway then .error .expiredSignature else .ok ()
  | _ => .ok ()

def checkIss : Except JwtError Unit :=
  match claims.iss, options.iss with
  | .parsed iss, some correct => if iss.meets correct then .ok () else .error .invalidIssuer
  | _, _ => .ok ()

def checkAud : Except JwtError Unit :=
  if !options.validateAud then .ok ()
  else match claims.aud with
    | .parsed aud =>
      if aud.meets (options.aud.getD []) then .ok () else .error .invalidAudience
    | _ => .ok ()

def checkRequired : Except JwtError Unit :=
  match options.requiredSpecClaims.find? fun name => !claims.present name with
  | some name => .error (.missingRequiredClaim name)
  | none => .ok ()

def validate (now : Nat) : Except JwtError Unit := do
  claims.checkRequired options
  claims.checkExp options now
  claims.checkIss options
  claims.checkAud options

end ClaimsForValidation

end Conrogate
