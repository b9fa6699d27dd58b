import TemplateBlocks.Json.Basic

/-!
# Reading documents

Looking up the fields of an object by name. Fields that nobody asks for are ignored; a field that
is asked for may stand at most once.

Where a value stands decides how much of it counts. Some nodes are read as a whole before anything
is made of them: then every part of them has to be legible and to keep to the nesting limit, whether
somebody asks for it or not. Outside such nodes only the values that are asked for count.
-/

namespace TemplateBlocks.Json

/-! ### Fields -/

/-- The fields of an object. Nothing else stands for an object, in particular no array. -/
def fields? : Json → Option (List (String × Json))
  | .obj fields => some fields
  | _ => none

/-- The value of the field `key`, if there is one; a repeated field is refused. -/
def lookup? (fields : List (String × Json)) (key : String) : Option (Option Json) :=
  match fields.filter fun f => f.1 == key with
  | [] => some none
  | [f] => some (some f.2)
  | _ => none

variable {α : Type}

/-- A field that has to be there. -/
def required? (fields : List (String × Json)) (key : String) (decode : Json → Option α) :
    Option α :=
  match lookup? fields key with
  | some (some j) => decode j
  | _ => none

/-- A field with a default. -/
def defaulted? (fields : List (String × Json)) (key : String) (default : α)
    (decode : Json → Option α) : Option α :=
  match lookup? fields key with
  | some none => some default
  | some (some j) => decode j
  | none => none

/-- A field that may be absent or null. -/
def nullable? (fields : List (String × Json)) (key : String) (decode : Json → Option α) :
    Option (Option α) :=
  match lookup? fields key with
  | some none => some none
  | some (some .null) => some none
  | some (some j) => (decode j).map some
  | none => none

/-! ### Plain values -/

/-- A text. -/
def string? : Json → Option String
  | .str s => some s
  | _ => none

/-- A truth value. -/
def bool? : Json → Option Bool
  | .bool b => some b
  | _ => none

/-- A count of 32 bits, written as an integer. -/
def word? : Json → Option UInt32
  | .int (.ofNat n) => if h : n < UInt32.size then some (UInt32.ofNatLT n h) else none
  | _ => none

/-- A number that is finite in double precision. -/
def number? : Json → Option Binary64
  | .int i => let x := Binary64.ofInt i; if x.isFinite then some x else none
  | .real x => if x.isFinite then some x else none
  | _ => none

/-- The items of an array, each decoded. -/
def items? (decode : Json → Option α) : Json → Option (List α)
  | .arr items => items.mapM decode
  | _ => none

/-! ### Places -/

/-- How many arrays and objects may stand around a value. -/
def nestingLimit : Nat := 127

/-- Where a value stands in a document. -/
inductive Place where
  /-- Within so many arrays and objects, none of which is read as a whole. -/
  | bare (around : Nat)
  /-- Inside a node that is read as a whole. -/
  | enclosed

namespace Place

/-- The root of a document. -/
def root : Place := .bare 0

/-- The place of a value that stands within so many arrays and objects of a value at this place. -/
def within (p : Place) (layers : Nat) : Place :=
  match p with
  | .bare around => .bare (around + layers)
  | .enclosed => .enclosed

/-- Whether a value can be read as a whole at this place. What stands inside another such value has
been read with it. -/
def admits (p : Place) (j : Json) : Bool :=
  match p with
  | .bare around => j.isLegible && decide (around + j.depth ≤ nestingLimit)
  | .enclosed => true

end Place

end TemplateBlocks.Json
