/-!
# Names

The names with a meaning: the block names that stand for something of their own, the keywords of the
template language that desugaring looks for or writes, and the helpers and the argument that
desugared templates rely on. The helpers' names start with a dash, which no template can declare.

Entries list values under names: every name stands once, in the order in which the names first came.
Putting a name again keeps its place and replaces its value.
-/

namespace TemplateBlocks

namespace Names

/-! ### Blocks -/

def defaultBlock : String := "default"
def elseBlock : String := "else"
def inverseBlock : String := "inverse"

/-! ### Keywords -/

def yieldKeyword : String := "yield"
def targetKey : String := "to"
def ifKeyword : String := "if"
def letKeyword : String := "let"
def hashHelper : String := "hash"

/-! ### Helpers and arguments of desugared templates -/

/-- Makes a marker for a block name. -/
def markHelper : String := "-named-block-invocation"

/-- Tests whether a value is the marker of a block name. -/
def testHelper : String := "-is-named-block-invocation"

/-- Answers whether a block was passed. -/
def hasBlockHelper : String := "-has-block"

/-- Answers whether a block was passed that binds params. -/
def hasBlockParamsHelper : String := "-has-block-params"

/-- The argument that lists the blocks passed to an invocation. -/
def metadataArgument : String := "@namedBlocksInfo"

/-- The name of the block param in slot `i` of a desugared invocation. -/
def slot (i : Nat) : String := "__arg" ++ toString i

end Names

/-! ### Entries -/

namespace Entries

variable {α : Type}

/-- Puts a value under a key. -/
def put (key : String) (value : α) : List (String × α) → List (String × α)
  | [] => [(key, value)]
  | e :: es => if e.1 = key then (key, value) :: es else e :: put key value es

/-- The entries that a list of keys and values makes when put one after the other. -/
def ofList (pairs : List (String × α)) : List (String × α) :=
  pairs.foldl (fun es p => put p.1 p.2 es) []

/-- The value under a key. -/
def get? (es : List (String × α)) (key : String) : Option α := es.lookup key

example : ofList [("a", 1), ("b", 2), ("a", 3)] = [("a", 3), ("b", 2)] := by decide

end Entries

end TemplateBlocks
