import CodeGraph.Decimal.Shortest
import CodeGraph.Text.Quoted

/-!
# JSON values

Settings are read and reports are written as JSON.  A `Value` keeps whole numbers of any size apart
from floating point numbers, and the members of an object in the order in which their keys first
occurred, each key once (`insert`).
-/

namespace CodeGraph.Json

open CodeGraph.Decimal

/-- A JSON value. -/
inductive Value where
  | null
  | bool (b : Bool)
  | integer (n : Int)
  | number (d : Double)
  | text (s : String)
  | list (items : List Value)
  | object (members : List (String × Value))

/-- The members of an object. -/
abbrev Members := List (String × Value)

/-! ## Members -/

/-- The value of a key. -/
@[grind =]
def find? (key : String) : Members → Option Value
  | [] => none
  | (k, v) :: rest => if k = key then some v else find? key rest

/-- Sets the value of a key: in place if the key is there, else at the end. -/
@[grind =]
def insert (key : String) (value : Value) : Members → Members
  | [] => [(key, value)]
  | (k, v) :: rest => if k = key then (k, value) :: rest else (k, v) :: insert key value rest

/-- The object of a list of members in which keys may repeat: the last value of a key counts. -/
def ofPairs (pairs : List (String × Value)) : Members :=
  pairs.foldl (fun members (k, v) => insert k v members) []

@[simp]
theorem find?_insert_self (key : String) (value : Value) (members : Members) :
    find? key (insert key value members) = some value := by
  induction members with
  | nil => simp [insert, find?]
  | cons m rest ih => grind

theorem find?_insert_of_ne {key other : String} (h : other ≠ key) (value : Value)
    (members : Members) : find? other (insert key value members) = find? other members := by
  induction members with
  | nil => simp [insert, find?, Ne.symm h]
  | cons m rest ih => grind

/-! ## Truth and text -/

/-- A value that switches something on: all but null, false, zero and the empty ones. -/
def Value.isTruthy : Value → Bool
  | .null => false
  | .bool b => b
  | .integer n => n != 0
  | .number d => !d.isZero
  | .text s => s != ""
  | .list items => !items.isEmpty
  | .object members => !members.isEmpty

mutual

/-- The text of a value as messages show it. -/
def Value.literal : Value → List Char
  | .null => "None".toList
  | .bool true => "True".toList
  | .bool false => "False".toList
  | .integer n => (toString n).toList
  | .number d => d.textWith "inf" "nan"
  | .text s => Text.quoted s.toList
  | .list items => '[' :: literals items ++ [']']
  | .object members => Char.ofNat 123 :: memberLiterals members ++ [Char.ofNat 125]

/-- The texts of the items of a list, with commas. -/
def literals : List Value → List Char
  | [] => []
  | [v] => v.literal
  | v :: w :: rest => v.literal ++ ", ".toList ++ literals (w :: rest)

/-- The texts of the members of an object, with commas. -/
def memberLiterals : List (String × Value) → List Char
  | [] => []
  | [(k, v)] => Text.quoted k.toList ++ ": ".toList ++ v.literal
  | (k, v) :: m :: rest =>
    Text.quoted k.toList ++ ": ".toList ++ v.literal ++ ", ".toList ++ memberLiterals (m :: rest)

end

end CodeGraph.Json
