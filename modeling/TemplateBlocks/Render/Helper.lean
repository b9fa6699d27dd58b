import TemplateBlocks.Render.Value

/-!
# Helpers

The four helpers that desugared templates call:

* `-named-block-invocation name` makes a marker for a block name;
* `-is-named-block-invocation value name` tests for the marker of a block name;
* `-has-block info name fallback` and `-has-block-params info name fallback` answer queries from
  the invocation's metadata, or with the fallback where there is none.

Markers are numbered as they are made, so that no two of them are the same.
-/

namespace TemplateBlocks

/-- Why a helper call fails. -/
inductive CallError where
  | arity (helper expected : String)
  | namedArguments (helper : String)
  | argumentType (helper : String) (index : Nat) (expected actual : String)
  | unknownHelper (name : String)
  deriving DecidableEq

namespace CallError

/-- The name of an error's kind. -/
def kindName : CallError → String
  | .arity .. => "Arity"
  | .namedArguments _ => "NamedArguments"
  | .argumentType .. => "ArgumentType"
  | .unknownHelper _ => "UnknownHelper"

/-- The wording of an error. -/
def message : CallError → String
  | .arity helper expected => s!"{helper} takes {expected}"
  | .namedArguments helper => s!"{helper} does not take named arguments"
  | .argumentType helper index expected actual =>
    s!"{helper}: expected {expected} for argument {index}, got {actual}"
  | .unknownHelper name => s!"unknown helper `{name}`"

end CallError

/-- How many markers have been made. -/
structure Marks where
  made : Nat := 0
  deriving DecidableEq

/-- A call that may make markers and may fail. -/
abbrev CallM := ExceptT CallError (StateM Marks)

/-- A fresh marker for a block name. -/
def mark (block : String) : StateM Marks Value := do
  let marks ← get
  set { made := marks.made + 1 : Marks }
  return .marker ⟨marks.made, block⟩

namespace Helper

/-- Helpers take no named arguments. -/
def refuseNamed (helper : String) (hash : List (String × Value)) : Except CallError Unit :=
  if hash.isEmpty then .ok () else .error (.namedArguments helper)

/-- An argument that has to be a string. -/
def expectString (helper : String) (index : Nat) : Value → Except CallError String
  | .string s => .ok s
  | other => .error (.argumentType helper index "string" other.typeName)

/-- An argument that has to be a boolean. -/
def expectBool (helper : String) (index : Nat) : Value → Except CallError Bool
  | .bool b => .ok b
  | other => .error (.argumentType helper index "boolean" other.typeName)

/-- An argument that has to be invocation metadata; undefined stands for none. -/
def expectMetadata (helper : String) (index : Nat) (info : Value) :
    Except CallError (Option (List (String × Value))) :=
  match info, info.isMetadata with
  | .undefined, _ => .ok none
  | .hash entries, true => .ok (some entries)
  | other, _ => .error (.argumentType helper index "a blocks info hash" other.typeName)

/-- Makes a marker. -/
def callMark (params : List Value) (hash : List (String × Value)) : CallM Value := do
  match params with
  | [name] =>
    refuseNamed Names.markHelper hash
    let block ← expectString Names.markHelper 0 name
    mark block
  | _ => throw (.arity Names.markHelper "a single string argument")

/-- Tests a marker. -/
def callTest (params : List Value) (hash : List (String × Value)) : Except CallError Value := do
  match params with
  | [value, name] =>
    refuseNamed Names.testHelper hash
    let block ← expectString Names.testHelper 1 name
    return .bool (value.isInvocationOf block)
  | _ =>
    throw (.arity Names.testHelper
      "exactly two arguments: the invocation value to check and the name of the block")

/-- The answer of the metadata: whether the block was passed or, with `bindsParams`, was passed
and binds params. -/
def answer (entries : List (String × Value)) (block : String) (bindsParams : Bool) : Bool :=
  match Entries.get? entries block, bindsParams with
  | none, _ => false
  | some (.number arity), true => arity.isPositive
  | some _, bindsParams => !bindsParams

/-- Answers a query. -/
def callQuery (helper : String) (bindsParams : Bool) (params : List Value)
    (hash : List (String × Value)) : Except CallError Value := do
  match params with
  | [info, name, fallback] =>
    refuseNamed helper hash
    let entries ← expectMetadata helper 0 info
    let block ← expectString helper 1 name
    let fallback ← expectBool helper 2 fallback
    return .bool ((entries.map fun es => answer es block bindsParams).getD fallback)
  | _ =>
    throw (.arity helper ("exactly three arguments: the blocks info hash, the name of the block " ++
      "and the fallback value"))

/-- Calls a helper with positional and named arguments. -/
def call (name : String) (params : List Value) (hash : List (String × Value)) : CallM Value :=
  if name = Names.markHelper then callMark params hash
  else if name = Names.testHelper then liftM (callTest params hash)
  else if name = Names.hasBlockHelper then
    liftM (callQuery Names.hasBlockHelper false params hash)
  else if name = Names.hasBlockParamsHelper then
    liftM (callQuery Names.hasBlockParamsHelper true params hash)
  else throw (.unknownHelper name)

end Helper

end TemplateBlocks
