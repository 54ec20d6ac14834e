import Mathlib.Data.List.Basic

namespace TinyChat.Text

inductive Json where
  | null
  | bool (value : Bool)
  | integer (value : Int)
  | double (numeral : String)
  | string (value : String)
  | array (items : List Json)
  | object (members : List (String × Json))

namespace Json

/-- `value::as_object`. -/
def asObject : Json → Except String (List (String × Json))
  | object members => .ok members
  | _ => .error "not an object"

/-- `value_to<std::string>` and `value::as_string`. -/
def asString : Json → Except String String
  | string value => .ok value
  | _ => .error "not a string"

/-- `object::at`. -/
def member (key : String) (members : List (String × Json)) : Except String Json :=
  match members.lookup key with
  | some value => .ok value
  | none => .error "out of range"

/-- `value_to<std::string>(obj.at(key))`. -/
def stringMember (key : String) (members : List (String × Json)) : Except String String :=
  member key members >>= asString

theorem asString_eq_ok_iff {json : Json} {value : String} :
    json.asString = .ok value ↔ json = .string value := by
  cases json <;> simp [asString]

theorem stringMember_eq_ok_iff {key value : String} {members : List (String × Json)} :
    stringMember key members = .ok value ↔ members.lookup key = some (.string value) := by
  cases found : members.lookup key with
  | none => simp [stringMember, member, found, bind, Except.bind]
  | some json =>
    simpa [stringMember, member, found, bind, Except.bind] using @asString_eq_ok_iff json value

end Json

end TinyChat.Text
