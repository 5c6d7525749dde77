/-!
# JSON values

`serde_json::Value`, as far as plugin configurations need it. An object is the list of its
members; its keys are distinct because `serde_json` keeps them in a map.
-/

namespace Conrogate

/-- JSON values; a number is an integer. -/
inductive Json where
  | null
  | bool (b : Bool)
  | num (n : Int)
  | str (s : String)
  | arr (items : List Json)
  | obj (members : List (String × Json))
deriving Repr

namespace Json

def field (members : List (String × Json)) (key : String) : Option Json :=
  (members.find? fun m => m.1 == key).map (·.2)

def asStr : Json → Option String
  | .str s => some s
  | _ => none

def asStrings : Json → Option (List String)
  | .arr items => items.mapM asStr
  | _ => none

def asBool : Json → Option Bool
  | .bool b => some b
  | _ => none

def asU64 : Json → Option Nat
  | .num n => if 0 ≤ n ∧ n ≤ 18446744073709551615 then some n.toNat else none
  | _ => none

def asI32 : Json → Option Int
  | .num n => if -2147483648 ≤ n ∧ n ≤ 2147483647 then some n else none
  | _ => none

def asVec {α : Type} (read : Json → Option α) : Json → Option (List α)
  | .arr items => items.mapM read
  | _ => none

def asOption {α : Type} (read : Json → Option α) : Json → Option (Option α)
  | .null => some none
  | j => (read j).map some

def orDefault {α : Type} (default : α) (read : Json → Option α) : Option Json → Option α
  | none   => some default
  | some j => read j

def optional {α : Type} (members : List (String × Json)) (key : String)
    (read : Json → Option α) : Option (Option α) :=
  orDefault none (asOption read) (field members key)

def members (fields : List String) : Json → Option (List (String × Json))
  -- serde refuses a field that is given twice
  | .obj ms => if fields.all fun f => ms.countP (·.1 == f) ≤ 1 then some ms else none
  | .arr items => if items.length = fields.length then some (fields.zip items) else none
  | _ => none

end Json

end Conrogate
