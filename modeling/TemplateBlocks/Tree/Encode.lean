import TemplateBlocks.Json.Basic
import TemplateBlocks.Tree.Statement

/-!
# Templates as documents

The document of every node. Each node is an object with its fields in a fixed order. Statements,
expressions, attribute values and their pieces carry a leading `type`; where only one kind of node
can stand, none is written. A node's `origin` is written when it is synthetic and a span's `source`
when it is known; everything else is always written.

Each node has its `fields`, and `toJson` wraps them, with or without the `type`.
-/

namespace TemplateBlocks

open Json

/-- The fields of a node behind its `type`. -/
def tagged (type : String) (fields : List (String × Json)) : Json :=
  .obj (("type", .str type) :: fields)

/-- A list of texts. -/
def stringsToJson (ss : List String) : Json := .arr (ss.map Json.str)

/-! ### Spans and leaves -/

def Position.toJson (p : Position) : Json :=
  .obj [("line", .int p.line.toNat), ("column", .int p.column.toNat)]

def Span.toJson (s : Span) : Json :=
  .obj ((s.source.toList.map fun f => ("source", Json.str f)) ++
    [("start", s.start.toJson), ("end", s.stop.toJson)])

/-- The `origin` field, which is left out for nodes of the source. -/
def Origin.field : Origin → List (String × Json)
  | .source => []
  | .synthetic => [("origin", .str "synthetic")]

def TextNode.fields (t : TextNode) : List (String × Json) :=
  [("chars", .str t.chars), ("loc", t.loc.toJson)]

def Comment.fields (c : Comment) : List (String × Json) :=
  [("value", .str c.value), ("loc", c.loc.toJson)]

def Path.fields (p : Path) : List (String × Json) :=
  [("original", .str p.text), ("this", .bool p.isThis), ("data", .bool p.isData),
    ("parts", stringsToJson p.parts), ("loc", p.loc.toJson)]

/-- A literal, its value written by `value`. -/
def Literal.fields {α : Type} (value : α → Json) (l : Literal α) : List (String × Json) :=
  [("value", value l.value), ("loc", l.loc.toJson)]

/-! ### Expressions -/

mutual
def Expr.toJson : Expr → Json
  | .path p => tagged "PathExpression" p.fields
  | .sub s => tagged "SubExpression" s.fields
  | .string l => tagged "StringLiteral" (l.fields .str)
  | .number l => tagged "NumberLiteral" (l.fields .real)
  | .boolean l => tagged "BooleanLiteral" (l.fields .bool)
def SubExpr.fields : SubExpr → List (String × Json)
  | ⟨path, params, hash, loc, origin⟩ =>
    [("path", .obj path.fields), ("params", .arr (Expr.toJsons params)), ("hash", hash.toJson),
      ("loc", loc.toJson)] ++ origin.field
def Hash.toJson : Hash → Json
  | ⟨pairs, loc⟩ => .obj [("pairs", .arr (HashPair.toJsons pairs)), ("loc", loc.toJson)]
def HashPair.toJson : HashPair → Json
  | ⟨key, value, loc⟩ => .obj [("key", .str key), ("value", value.toJson), ("loc", loc.toJson)]
def Expr.toJsons : List Expr → List Json
  | [] => []
  | e :: es => e.toJson :: Expr.toJsons es
def HashPair.toJsons : List HashPair → List Json
  | [] => []
  | p :: ps => p.toJson :: HashPair.toJsons ps
end

/-! ### Mustaches, attributes and modifiers -/

def Mustache.fields (m : Mustache) : List (String × Json) :=
  [("path", m.path.toJson), ("params", .arr (Expr.toJsons m.params)), ("hash", m.hash.toJson),
    ("trusting", .bool m.trusting), ("loc", m.loc.toJson)] ++ m.origin.field

def ConcatPart.toJson : ConcatPart → Json
  | .text t => tagged "TextNode" t.fields
  | .mustache m => tagged "MustacheStatement" m.fields

def Concat.fields (c : Concat) : List (String × Json) :=
  [("parts", .arr (c.parts.map ConcatPart.toJson)), ("loc", c.loc.toJson)]

def AttrValue.toJson : AttrValue → Json
  | .text t => tagged "TextNode" t.fields
  | .mustache m => tagged "MustacheStatement" m.fields
  | .concat c => tagged "ConcatStatement" c.fields

def Attribute.toJson (a : Attribute) : Json :=
  .obj [("name", .str a.name), ("value", a.value.toJson), ("loc", a.loc.toJson)]

def Modifier.toJson (m : Modifier) : Json :=
  .obj [("path", .obj m.path.fields), ("params", .arr (Expr.toJsons m.params)),
    ("hash", m.hash.toJson), ("loc", m.loc.toJson)]

/-! ### Statements -/

mutual
def Statement.toJson : Statement → Json
  | .mustache m => tagged "MustacheStatement" m.fields
  | .block b => tagged "BlockStatement" b.fields
  | .element e => tagged "ElementNode" e.fields
  | .text t => tagged "TextNode" t.fields
  | .mustacheComment c => tagged "MustacheCommentStatement" c.fields
  | .comment c => tagged "CommentStatement" c.fields
def BlockStatement.fields : BlockStatement → List (String × Json)
  | ⟨path, params, hash, program, inverse, loc, origin⟩ =>
    [("path", path.toJson), ("params", .arr (Expr.toJsons params)), ("hash", hash.toJson),
      ("program", program.toJson), ("inverse", Block.toJsonOption inverse),
      ("loc", loc.toJson)] ++ origin.field
def Block.toJson : Block → Json
  | ⟨body, blockParams, chained, loc, origin⟩ =>
    .obj ([("body", .arr (Statement.toJsons body)), ("blockParams", stringsToJson blockParams),
      ("chained", .bool chained), ("loc", loc.toJson)] ++ origin.field)
def Element.fields : Element → List (String × Json)
  | ⟨tag, selfClosing, attributes, modifiers, children, comments, blockParams, loc, origin⟩ =>
    [("tag", .str tag), ("selfClosing", .bool selfClosing),
      ("attributes", .arr (attributes.map Attribute.toJson)),
      ("modifiers", .arr (modifiers.map Modifier.toJson)),
      ("children", .arr (Statement.toJsons children)),
      ("comments", .arr (comments.map fun c => .obj c.fields)),
      ("blockParams", stringsToJson blockParams), ("loc", loc.toJson)] ++ origin.field
/-- An inverse that is not there is written as null. -/
def Block.toJsonOption : Option Block → Json
  | none => .null
  | some b => b.toJson
def Statement.toJsons : List Statement → List Json
  | [] => []
  | s :: ss => s.toJson :: Statement.toJsons ss
end

/-- The document of a template. -/
def Template.toJson (t : Template) : Json :=
  .obj [("body", .arr (Statement.toJsons t.body)), ("blockParams", stringsToJson t.blockParams),
    ("loc", t.loc.toJson)]

end TemplateBlocks
