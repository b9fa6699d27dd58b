import TemplateBlocks.Decimal.Layout
import TemplateBlocks.Text

/-!
# Documents

A JSON value: objects keep their fields in written order, repetitions included, and a number
written without point and exponent is kept apart as an integer. A value may be well-formed and yet
say nothing that can be held; it is kept as `illegible`, for it does no harm where nobody looks.
With it, how deep a value nests, whether all of it is legible, and how it is written compactly.
-/

namespace TemplateBlocks

/-- A JSON value. -/
inductive Json where
  | null
  | bool (b : Bool)
  /-- A number written without point and exponent. -/
  | int (i : Int)
  /-- Any other number. -/
  | real (x : Binary64)
  | str (s : String)
  | arr (items : List Json)
  | obj (fields : List (String × Json))
  /-- A number beyond double precision, a text with half of a surrogate pair, or an object with
  such a text for the name of a field. -/
  | illegible

namespace Json

/-! ### Nesting -/

mutual
/-- How many arrays and objects stand around the innermost value, the value itself included. -/
def depth : Json → Nat
  | .arr items => depthItems items + 1
  | .obj fields => depthFields fields + 1
  | _ => 0
/-- The greatest depth of the items of an array. -/
def depthItems : List Json → Nat
  | [] => 0
  | j :: js => max j.depth (depthItems js)
/-- The greatest depth of the fields of an object. -/
def depthFields : List (String × Json) → Nat
  | [] => 0
  | (_, j) :: fs => max j.depth (depthFields fs)
end

/-! ### Legibility -/

mutual
/-- Whether a value and all its parts are legible. -/
def isLegible : Json → Bool
  | .arr items => legibleItems items
  | .obj fields => legibleFields fields
  | .illegible => false
  | _ => true
/-- Whether all items of an array are legible. -/
def legibleItems : List Json → Bool
  | [] => true
  | j :: js => j.isLegible && legibleItems js
/-- Whether the values of all fields of an object are legible. -/
def legibleFields : List (String × Json) → Bool
  | [] => true
  | (_, j) :: fs => j.isLegible && legibleFields fs
end

/-! ### Writing -/

mutual
/-- The compact text of a value; nothing is left of an illegible one. -/
def write : Json → String
  | .null | .illegible => "null"
  | .bool b => if b then "true" else "false"
  | .int i => toString i
  | .real x => Decimal.Layout.json.write x
  | .str s => Text.quoted s
  | .arr [] => "[]"
  | .arr (j :: js) => "[" ++ j.write ++ writeItems js ++ "]"
  | .obj [] => "\x7b\x7d"
  | .obj ((k, j) :: fs) => "\x7b" ++ Text.quoted k ++ ":" ++ j.write ++ writeFields fs ++ "\x7d"
/-- The items of an array after the first. -/
def writeItems : List Json → String
  | [] => ""
  | j :: js => "," ++ j.write ++ writeItems js
/-- The fields of an object after the first. -/
def writeFields : List (String × Json) → String
  | [] => ""
  | (k, j) :: fs => "," ++ Text.quoted k ++ ":" ++ j.write ++ writeFields fs
end

end Json

end TemplateBlocks
