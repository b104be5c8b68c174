namespace FounderOs

/-- A JSON value as Python reads it; a number is kept as its text. -/
inductive Json where
  | null
  | bool (value : Bool)
  | num (text : String)
  | str (value : String)
  | arr (items : List Json)
  | obj (fields : List (String × Json))
  deriving Repr

namespace Json

def asObject : Json → Option (List (String × Json))
  | .obj fields => some fields
  | _ => none

def asArray : Json → Option (List Json)
  | .arr items => some items
  | _ => none

def asString : Json → Option String
  | .str value => some value
  | _ => none

def isTrue : Json → Bool
  | .bool value => value
  | _ => false

def isFalse : Json → Bool
  | .bool value => !value
  | _ => false

/-- `dict.get`, without a default. -/
def get (fields : List (String × Json)) (key : String) : Option Json := fields.lookup key

def strings (items : List Json) : List String := items.filterMap asString

@[simp] theorem asObject_obj (fields : List (String × Json)) :
    (Json.obj fields).asObject = some fields := rfl

@[simp] theorem asString_str (value : String) : (Json.str value).asString = some value := rfl

end Json

end FounderOs
