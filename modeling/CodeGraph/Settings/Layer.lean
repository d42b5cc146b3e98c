import CodeGraph.Json.Value

/-!
# Layers of settings

Settings are objects laid over one another.  `overlay base top` has what `top` says, and what `base`
says where `top` is silent; where both hold an object for a key, the objects are laid over one
another in turn.  `atPath?` looks a value up along a path of keys.
-/

namespace CodeGraph.Settings

open CodeGraph.Json

mutual

/-- What a key holds once a value is laid over the value it held before. -/
def cover (below : Option Value) : Value → Value
  | .object top =>
    match below with
    | some (.object base) => .object (overlay base top)
    | _ => .object top
  | top => top

/-- The members of `base` with those of the second object laid over them. -/
def overlay (base : Members) : List (String × Value) → Members
  | [] => base
  | (key, value) :: rest => overlay (insert key (cover (find? key base) value) base) rest

end

/-- The value at the end of a path of keys. -/
def atPath? (value : Value) : List String → Option Value
  | [] => some value
  | key :: path =>
    match value with
    | .object members => (find? key members).bind fun inner => atPath? inner path
    | _ => none

end CodeGraph.Settings
