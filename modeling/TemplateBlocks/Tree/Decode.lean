import TemplateBlocks.Json.Fields
import TemplateBlocks.Tree.Statement

/-!
# Templates from documents

Reading nodes from documents. Fields may stand in any order, unknown fields are ignored, and a
field that is left out has its default; a field that is missing without having one, has the wrong
type or stands twice is refused.

A node with a `type` is read as a whole before its kind is known, so nothing in it may be illegible
or nested too deep, unknown fields included. Of a node whose kind is fixed by where it stands only
the known fields count.

Every decoder of a node that holds expressions or statements takes the decoder of those as an
argument, and the place where the node stands, so that only `Expr.decodeWithin?` and
`Statement.decodeWithin?` recurse, by a bound on how deep nodes stand in each other.
-/

namespace TemplateBlocks

open Json

/-! ### Spans and leaves -/

def Position.decode? (j : Json) : Option Position := do
  let fs ← fields? j
  return { line := ← required? fs "line" word?, column := ← required? fs "column" word? }

def Span.decode? (j : Json) : Option Span := do
  let fs ← fields? j
  return {
    source := ← nullable? fs "source" string?
    start := ← defaulted? fs "start" {} Position.decode?
    stop := ← defaulted? fs "end" {} Position.decode? }

/-- The origin of this name. -/
def Origin.ofName? : String → Option Origin
  | "source" => some .source
  | "synthetic" => some .synthetic
  | _ => none

/-- An origin is given by its name, or by an object with one field of that name and nothing in it:
null or, in a node that is read as a whole, an empty object. -/
def Origin.decode? : Place → Json → Option Origin
  | _, .str name => ofName? name
  | _, .obj [(name, .null)] => ofName? name
  | .enclosed, .obj [(name, .obj [])] => ofName? name
  | _, _ => none

/-- The `loc` of a node. -/
def locField? (fs : List (String × Json)) : Option Span := defaulted? fs "loc" {} Span.decode?

/-- The `origin` of a node. -/
def originField? (p : Place) (fs : List (String × Json)) : Option Origin :=
  defaulted? fs "origin" .source (Origin.decode? p)

/-- A flag that is off by default. -/
def flagField? (fs : List (String × Json)) (key : String) : Option Bool :=
  defaulted? fs key false bool?

/-- A list that is empty by default. -/
def listField? {α : Type} (fs : List (String × Json)) (key : String) (decode : Json → Option α) :
    Option (List α) :=
  defaulted? fs key [] (items? decode)

def TextNode.ofFields? (fs : List (String × Json)) : Option TextNode := do
  return { chars := ← required? fs "chars" string?, loc := ← locField? fs }

def Comment.ofFields? (fs : List (String × Json)) : Option Comment := do
  return { value := ← required? fs "value" string?, loc := ← locField? fs }

def Path.ofFields? (fs : List (String × Json)) : Option Path := do
  return {
    text := ← required? fs "original" string?
    isThis := ← flagField? fs "this"
    isData := ← flagField? fs "data"
    parts := ← listField? fs "parts" string?
    loc := ← locField? fs }

/-- A literal, its value read by `value`. -/
def Literal.ofFields? {α : Type} (value : Json → Option α) (fs : List (String × Json)) :
    Option (Literal α) := do
  return { value := ← required? fs "value" value, loc := ← locField? fs }

/-! ### Kinds of nodes -/

/-- A node whose kind is fixed by where it stands. -/
def untagged? {α : Type} (ofFields : List (String × Json) → Option α) (j : Json) : Option α := do
  ofFields (← fields? j)

/-- The name of a node's kind. Inside another node that is read as a whole, the kind may also be
given by its number among `kinds`. -/
def kindName? (kinds : List String) : Place → Json → Option String
  | _, .str name => some name
  | .enclosed, .int (.ofNat n) => kinds[n]?
  | _, _ => none

/-- The kind and the fields of a node with a `type`. -/
def tagged? (kinds : List String) (p : Place) (j : Json) :
    Option (String × List (String × Json)) := do
  if p.admits j then
    let fs ← fields? j
    return (← required? fs "type" (kindName? kinds p), fs)
  else none

/-! ### Expressions -/

section

variable (expr : Place → Json → Option Expr) (p : Place)

def HashPair.decodeWith? (j : Json) : Option HashPair := do
  let fs ← fields? j
  return {
    key := ← required? fs "key" string?
    value := ← required? fs "value" (expr (p.within 1))
    loc := ← locField? fs }

def Hash.decodeWith? (j : Json) : Option Hash := do
  let fs ← fields? j
  return {
    pairs := ← listField? fs "pairs" (HashPair.decodeWith? expr (p.within 2))
    loc := ← locField? fs }

/-- The positional arguments of a call, none by default. -/
def paramsField? (fs : List (String × Json)) : Option (List Expr) :=
  listField? fs "params" (expr (p.within 2))

/-- The named arguments of a call, none by default. -/
def hashField? (fs : List (String × Json)) : Option Hash :=
  defaulted? fs "hash" {} (Hash.decodeWith? expr (p.within 1))

def SubExpr.ofFieldsWith? (fs : List (String × Json)) : Option SubExpr := do
  return {
    path := ← required? fs "path" (untagged? Path.ofFields?)
    params := ← paramsField? expr p fs
    hash := ← hashField? expr p fs
    loc := ← locField? fs
    origin := ← originField? p fs }

end

/-- The kinds of expressions. -/
def Expr.kinds : List String :=
  ["PathExpression", "SubExpression", "StringLiteral", "NumberLiteral", "BooleanLiteral"]

/-- An expression, where nodes stand in each other less than `levels` deep. -/
def Expr.decodeWithin? : (levels : Nat) → Place → Json → Option Expr
  | 0, _, _ => none
  | levels + 1, p, j => do
    let (kind, fs) ← tagged? Expr.kinds p j
    match kind with
    | "PathExpression" => return .path (← Path.ofFields? fs)
    | "SubExpression" =>
      return .sub (← SubExpr.ofFieldsWith? (Expr.decodeWithin? levels) .enclosed fs)
    | "StringLiteral" => return .string (← Literal.ofFields? Json.string? fs)
    | "NumberLiteral" => return .number (← Literal.ofFields? Json.number? fs)
    | "BooleanLiteral" => return .boolean (← Literal.ofFields? Json.bool? fs)
    | _ => none

/-! ### Mustaches, attributes and modifiers -/

section

variable (expr : Place → Json → Option Expr) (p : Place)

def Mustache.ofFieldsWith? (fs : List (String × Json)) : Option Mustache := do
  return {
    path := ← required? fs "path" (expr (p.within 1))
    params := ← paramsField? expr p fs
    hash := ← hashField? expr p fs
    trusting := ← flagField? fs "trusting"
    loc := ← locField? fs
    origin := ← originField? p fs }

/-- The kinds of pieces of an attribute value. -/
def ConcatPart.kinds : List String := ["TextNode", "MustacheStatement"]

def ConcatPart.decodeWith? (j : Json) : Option ConcatPart := do
  let (kind, fs) ← tagged? ConcatPart.kinds p j
  match kind with
  | "TextNode" => return .text (← TextNode.ofFields? fs)
  | "MustacheStatement" => return .mustache (← Mustache.ofFieldsWith? expr .enclosed fs)
  | _ => none

def Concat.ofFieldsWith? (fs : List (String × Json)) : Option Concat := do
  return {
    parts := ← required? fs "parts" (items? (ConcatPart.decodeWith? expr (p.within 2)))
    loc := ← locField? fs }

/-- The kinds of attribute values. -/
def AttrValue.kinds : List String := ["TextNode", "MustacheStatement", "ConcatStatement"]

def AttrValue.decodeWith? (j : Json) : Option AttrValue := do
  let (kind, fs) ← tagged? AttrValue.kinds p j
  match kind with
  | "TextNode" => return .text (← TextNode.ofFields? fs)
  | "MustacheStatement" => return .mustache (← Mustache.ofFieldsWith? expr .enclosed fs)
  | "ConcatStatement" => return .concat (← Concat.ofFieldsWith? expr .enclosed fs)
  | _ => none

def Attribute.decodeWith? (j : Json) : Option Attribute := do
  let fs ← fields? j
  return {
    name := ← required? fs "name" string?
    value := ← required? fs "value" (AttrValue.decodeWith? expr (p.within 1))
    loc := ← locField? fs }

def Modifier.decodeWith? (j : Json) : Option Modifier := do
  let fs ← fields? j
  return {
    path := ← required? fs "path" (untagged? Path.ofFields?)
    params := ← paramsField? expr p fs
    hash := ← hashField? expr p fs
    loc := ← locField? fs }

end

/-! ### Statements -/

section

variable (expr : Place → Json → Option Expr) (statement : Place → Json → Option Statement)
  (p : Place)

def Block.decodeWith? (j : Json) : Option Block := do
  let fs ← fields? j
  return {
    body := ← required? fs "body" (items? (statement (p.within 2)))
    blockParams := ← listField? fs "blockParams" string?
    chained := ← flagField? fs "chained"
    loc := ← locField? fs
    origin := ← originField? p fs }

def BlockStatement.ofFieldsWith? (fs : List (String × Json)) : Option BlockStatement := do
  return {
    path := ← required? fs "path" (expr (p.within 1))
    params := ← paramsField? expr p fs
    hash := ← hashField? expr p fs
    program := ← required? fs "program" (Block.decodeWith? statement (p.within 1))
    inverse := ← nullable? fs "inverse" (Block.decodeWith? statement (p.within 1))
    loc := ← locField? fs
    origin := ← originField? p fs }

def Element.ofFieldsWith? (fs : List (String × Json)) : Option Element := do
  return {
    tag := ← required? fs "tag" string?
    selfClosing := ← flagField? fs "selfClosing"
    attributes := ← listField? fs "attributes" (Attribute.decodeWith? expr (p.within 2))
    modifiers := ← listField? fs "modifiers" (Modifier.decodeWith? expr (p.within 2))
    children := ← listField? fs "children" (statement (p.within 2))
    comments := ← listField? fs "comments" (untagged? Comment.ofFields?)
    blockParams := ← listField? fs "blockParams" string?
    loc := ← locField? fs
    origin := ← originField? p fs }

def Template.decodeWith? (j : Json) : Option Template := do
  let fs ← fields? j
  return {
    body := ← required? fs "body" (items? (statement (p.within 2)))
    blockParams := ← listField? fs "blockParams" string?
    loc := ← locField? fs }

end

/-- The kinds of statements. -/
def Statement.kinds : List String :=
  ["MustacheStatement", "BlockStatement", "ElementNode", "TextNode", "MustacheCommentStatement",
    "CommentStatement"]

/-- A statement, where nodes stand in each other less than `levels` deep. -/
def Statement.decodeWithin? : (levels : Nat) → Place → Json → Option Statement
  | 0, _, _ => none
  | levels + 1, p, j => do
    let expr := Expr.decodeWithin? (levels + 1)
    let statement := Statement.decodeWithin? levels
    let (kind, fs) ← tagged? Statement.kinds p j
    match kind with
    | "MustacheStatement" => return .mustache (← Mustache.ofFieldsWith? expr .enclosed fs)
    | "BlockStatement" =>
      return .block (← BlockStatement.ofFieldsWith? expr statement .enclosed fs)
    | "ElementNode" => return .element (← Element.ofFieldsWith? expr statement .enclosed fs)
    | "TextNode" => return .text (← TextNode.ofFields? fs)
    | "MustacheCommentStatement" => return .mustacheComment (← Comment.ofFields? fs)
    | "CommentStatement" => return .comment (← Comment.ofFields? fs)
    | _ => none

/-! ### Documents -/

/-- The decoder of expressions in a document: a node stands in another only inside one more object,
so the nesting limit also bounds the recursion. -/
def expr? : Place → Json → Option Expr := Expr.decodeWithin? nestingLimit

/-- The decoder of statements in a document. -/
def statement? : Place → Json → Option Statement := Statement.decodeWithin? nestingLimit

def TextNode.decode? : Json → Option TextNode := untagged? TextNode.ofFields?

def Comment.decode? : Json → Option Comment := untagged? Comment.ofFields?

def Path.decode? : Json → Option Path := untagged? Path.ofFields?

/-- A literal, its value read by `value`. -/
def Literal.decode? {α : Type} (value : Json → Option α) : Json → Option (Literal α) :=
  untagged? (Literal.ofFields? value)

def Expr.decode? : Json → Option Expr := expr? .root

def SubExpr.decode? : Json → Option SubExpr := untagged? (SubExpr.ofFieldsWith? expr? .root)

def Hash.decode? : Json → Option Hash := Hash.decodeWith? expr? .root

def HashPair.decode? : Json → Option HashPair := HashPair.decodeWith? expr? .root

def Mustache.decode? : Json → Option Mustache := untagged? (Mustache.ofFieldsWith? expr? .root)

def ConcatPart.decode? : Json → Option ConcatPart := ConcatPart.decodeWith? expr? .root

def Concat.decode? : Json → Option Concat := untagged? (Concat.ofFieldsWith? expr? .root)

def AttrValue.decode? : Json → Option AttrValue := AttrValue.decodeWith? expr? .root

def Attribute.decode? : Json → Option Attribute := Attribute.decodeWith? expr? .root

def Modifier.decode? : Json → Option Modifier := Modifier.decodeWith? expr? .root

def Statement.decode? : Json → Option Statement := statement? .root

def Block.decode? : Json → Option Block := Block.decodeWith? statement? .root

def BlockStatement.decode? : Json → Option BlockStatement :=
  untagged? (BlockStatement.ofFieldsWith? expr? statement? .root)

def Element.decode? : Json → Option Element :=
  untagged? (Element.ofFieldsWith? expr? statement? .root)

/-- A template from its document. -/
def Template.decode? : Json → Option Template := Template.decodeWith? statement? .root

end TemplateBlocks
