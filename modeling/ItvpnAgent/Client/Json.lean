import ItvpnAgent.Constants

/-! JSON values with the accessors of the C++ REST SDK that the client uses:
`value::operator[]` on a mutable value, `object::at` and the typed readers. A
number is kept as the integer it converts to. -/

namespace ItvpnAgent

open Kit

inductive Json where
  | null
  | bool (b : Bool)
  | number (n : ℤ)
  | string (s : Str)
  | array (items : List Json)
  | object (fields : List (Str × Json))

namespace Json

def isNull : Json → Bool
  | null => true
  | _ => false

/-- The member of an object, null where it is missing. -/
def member (fields : List (Str × Json)) (key : Str) : Json :=
  ((fields.find? fun f => f.1 = key).map Prod.snd).getD null

/-- `json[key]`: a missing member is inserted as null, and a null value becomes
an object first. -/
def index : Json → Str → Except Exn Json
  | null, _ => .ok null
  | object fields, key => .ok (member fields key)
  | _, _ => .error (.jsonException "not an object".toList)

/-- `object.at(key)`. -/
def at_ (fields : List (Str × Json)) (key : Str) : Except Exn Json :=
  match fields.find? fun f => f.1 = key with
  | some f => .ok f.2
  | none => .error (.jsonException "Key not found".toList)

def asString : Json → Except Exn Str
  | string s => .ok s
  | _ => .error (.jsonException "not a string".toList)

def asInteger : Json → Except Exn ℤ
  | number n => .ok (toInt32 n)
  | _ => .error (.jsonException "not a number".toList)

def asObject : Json → Except Exn (List (Str × Json))
  | object fields => .ok fields
  | _ => .error (.jsonException "not an object".toList)

def asArray : Json → Except Exn (List Json)
  | array items => .ok items
  | _ => .error (.jsonException "not an array".toList)

end Json

end ItvpnAgent
