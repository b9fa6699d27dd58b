import TemplateBlocks.Decimal.Layout
import TemplateBlocks.Names
import TemplateBlocks.Text

/-!
# Render values

The values that flow through helper calls when a desugared template renders. A *marker* stands for
one invocation of a named block: it has an identity of its own and carries the block's name.

* `Value.same`: equality of values; markers are equal by identity and hashes regardless of order;
* `Value.display`: what a value renders as.
-/

namespace TemplateBlocks

/-- One invocation of a named block. -/
structure Marker where
  id : Nat
  block : String
  deriving DecidableEq

/-- A value at render time. -/
inductive Value where
  | undefined
  | null
  | bool (b : Bool)
  | number (x : Binary64)
  | string (s : String)
  | array (items : List Value)
  | hash (entries : List (String × Value))
  | marker (m : Marker)

namespace Value

/-- The name of a value's type. -/
def typeName : Value → String
  | .undefined => "undefined"
  | .null => "null"
  | .bool _ => "boolean"
  | .number _ => "number"
  | .string _ => "string"
  | .array _ => "array"
  | .hash _ => "hash"
  | .marker _ => "invocation"

/-- Whether a condition on the value holds. -/
def isTruthy : Value → Bool
  | .undefined => false
  | .null => false
  | .bool b => b
  | .number x => !x.isZero && !x.isNaN
  | .string s => s != ""
  | .array items => !items.isEmpty
  | .hash _ => true
  | .marker _ => true

mutual
/-- Equality of values: numbers by their value, markers by identity, hashes regardless of order. -/
def same : Value → Value → Bool
  | .undefined, .undefined => true
  | .null, .null => true
  | .bool a, .bool b => a == b
  | .number x, .number y => x.same y
  | .string s, .string t => s == t
  | .array xs, .array ys => sameItems xs ys
  | .hash es, .hash fs => es.length == fs.length && sameEntries es fs
  | .marker m, .marker n => m.id == n.id
  | _, _ => false
/-- The items are equal one by one. -/
def sameItems : List Value → List Value → Bool
  | [], [] => true
  | x :: xs, y :: ys => same x y && sameItems xs ys
  | _, _ => false
/-- Each entry has an equal one under its key. -/
def sameEntries : List (String × Value) → List (String × Value) → Bool
  | [], _ => true
  | (k, x) :: es, fs =>
    (match Entries.get? fs k with
      | some y => same x y
      | none => false) && sameEntries es fs
end

mutual
/-- What a value renders as. -/
def display : Value → String
  | .undefined => ""
  | .null => ""
  | .bool b => if b then "true" else "false"
  | .number x => Decimal.Layout.plain.write x
  | .string s => s
  | .array items => ",".intercalate (displayItems items)
  | .hash _ => "[object Object]"
  | .marker m => "\x7b\x7byield to=" ++ Text.quoted m.block ++ "\x7d\x7d"
/-- What the items of an array render as. -/
def displayItems : List Value → List String
  | [] => []
  | x :: xs => x.display :: displayItems xs
end

/-- Whether a value has the shape of invocation metadata: a hash of numbers. -/
def isMetadata : Value → Bool
  | .hash entries => entries.all fun e =>
    match e.2 with
    | .number _ => true
    | _ => false
  | _ => false

/-- Whether a value invokes the block of a name. A marker invokes the block that it was made for;
anything else invokes the default block. -/
def isInvocationOf (v : Value) (block : String) : Bool :=
  match v with
  | .marker m => m.block == block
  | _ => block == Names.defaultBlock

end Value

end TemplateBlocks
