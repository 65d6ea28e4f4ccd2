import RduHdi.Dict

/-!
# Decoded messages

The values a decoded message can hold, and the handful of operations the connector applies to
them without checking their shape first.  Every operation that can raise says what it raises.
-/

namespace RduHdi

/-- Exceptions, by class. -/
inductive PyError where
  | attributeError
  | typeError
  | keyError
  | valueError
  | assertionError
  | zeroDivisionError
  | indexError
  /-- Raised by a library outside the connector. -/
  | runtimeError
  deriving DecidableEq

/-- `d[key]`. -/
def Dict.get {κ α : Type*} [DecidableEq κ] (dict : Dict κ α) (key : κ) : Except PyError α :=
  match dict.lookup key with
  | some value => .ok value
  | none => .error .keyError

theorem Dict.get_eq_ok {κ α : Type*} [DecidableEq κ] {dict : Dict κ α} {key : κ} {value : α} :
    Dict.get dict key = .ok value ↔ dict.lookup key = some value := by
  rw [Dict.get]
  cases dict.lookup key <;> simp

/-- A decoded value. -/
inductive PyObj where
  | none
  | bool (value : Bool)
  | int (value : ℤ)
  | float (value : ℚ)
  | str (value : String)
  | bytes (value : ByteArray)
  | list (items : List PyObj)
  | dict (items : List (PyObj × PyObj))
  /-- A scalar of any other kind (an extension type, a timestamp, a float that is no number). -/
  | other (tag : ℕ)

/-- A value as a dictionary key: values that compare equal are one key. -/
inductive PyKey where
  | none
  | num (value : ℚ)
  | str (value : String)
  | bytes (value : ByteArray)
  | other (tag : ℕ)
  deriving DecidableEq

namespace PyObj

/-- The key a value hashes to; lists and dictionaries are unhashable. -/
def hashKey : PyObj → Except PyError PyKey
  | .none => .ok .none
  | .bool value => .ok (.num (if value then 1 else 0))
  | .int value => .ok (.num value)
  | .float value => .ok (.num value)
  | .str value => .ok (.str value)
  | .bytes value => .ok (.bytes value)
  | .list _ | .dict _ => .error .typeError
  | .other tag => .ok (.other tag)

def isNone : PyObj → Bool
  | .none => true
  | _ => false

/-- Truth value. -/
def truthy : PyObj → Bool
  | .none => false
  | .bool value => value
  | .int value => value ≠ 0
  | .float value => value ≠ 0
  | .str value => value ≠ ""
  | .bytes value => value.size ≠ 0
  | .list items => !items.isEmpty
  | .dict items => !items.isEmpty
  | .other _ => true

/-- `value.get(name, default)`. -/
def get (value : PyObj) (name : String) (default : PyObj) : Except PyError PyObj :=
  match value with
  | .dict items =>
      .ok <| (items.findSome? fun item =>
        match item.1.hashKey with
        | .ok key => if key = .str name then some item.2 else Option.none
        | .error _ => Option.none).getD default
  | _ => .error .attributeError

/-- The values `for … in value` visits. -/
def iterate : PyObj → Except PyError (List PyObj)
  | .str value => .ok (value.toList.map fun c => .str (String.singleton c))
  | .bytes value => .ok (value.toList.map fun byte => .int byte.toNat)
  | .list items => .ok items
  | .dict items => .ok (items.map Prod.fst)
  | _ => .error .typeError

/-- `first, second = value`. -/
def unpackTwo (value : PyObj) : Except PyError (PyObj × PyObj) :=
  match value.iterate with
  | .ok [first, second] => .ok (first, second)
  | .ok _ => .error .valueError
  | .error raised => .error raised

end PyObj

end RduHdi
