import TemplateBlocks.Text
import TemplateBlocks.Tree.Expr

/-!
# Statements and templates

What a template's body is made of: mustaches, block statements, elements with their attributes and
modifiers, texts and comments.
-/

namespace TemplateBlocks

/-! ### Leaves -/

/-- Text between tags, or in an attribute. -/
structure TextNode where
  chars : String
  loc : Span := {}
  deriving DecidableEq

/-- A text of blank characters only. -/
def TextNode.isBlank (t : TextNode) : Bool := Text.allBlank t.chars

/-- A comment, either of the template or of the document that it renders. -/
structure Comment where
  value : String
  loc : Span := {}
  deriving DecidableEq

/-- A call between curly braces. -/
structure Mustache where
  path : Expr
  params : List Expr := []
  hash : Hash := {}
  /-- Whether its result is inserted without escaping. -/
  trusting : Bool := false
  loc : Span := {}
  origin : Origin := .source
  deriving DecidableEq

/-! ### Attributes and modifiers -/

/-- A piece of a composed attribute value. -/
inductive ConcatPart where
  | text (t : TextNode)
  | mustache (m : Mustache)
  deriving DecidableEq

/-- An attribute value composed of several pieces. -/
structure Concat where
  parts : List ConcatPart
  loc : Span := {}
  deriving DecidableEq

/-- The value of an attribute. -/
inductive AttrValue where
  | text (t : TextNode)
  | mustache (m : Mustache)
  | concat (c : Concat)
  deriving DecidableEq

/-- An attribute or, where the name starts with `@`, an argument. -/
structure Attribute where
  name : String
  value : AttrValue
  loc : Span := {}
  deriving DecidableEq

/-- A modifier on an element. -/
structure Modifier where
  path : Path
  params : List Expr := []
  hash : Hash := {}
  loc : Span := {}
  deriving DecidableEq

/-! ### Statements -/

mutual
/-- A statement. -/
inductive Statement where
  | mustache (m : Mustache)
  | block (b : BlockStatement)
  | element (e : Element)
  | text (t : TextNode)
  /-- A comment of the template, which renders nothing. -/
  | mustacheComment (c : Comment)
  /-- A comment of the rendered document, which counts as content. -/
  | comment (c : Comment)
/-- A block call with its program and, after `else`, its inverse. -/
structure BlockStatement where
  path : Expr
  params : List Expr := []
  hash : Hash := {}
  program : Block
  inverse : Option Block := none
  loc : Span := {}
  origin : Origin := .source
/-- A body that binds block params. -/
structure Block where
  body : List Statement
  blockParams : List String := []
  /-- Whether it is an `else if` of the block it belongs to. -/
  chained : Bool := false
  loc : Span := {}
  origin : Origin := .source
/-- An element or a component invocation. -/
structure Element where
  tag : String
  selfClosing : Bool := false
  attributes : List Attribute := []
  modifiers : List Modifier := []
  children : List Statement := []
  comments : List Comment := []
  blockParams : List String := []
  loc : Span := {}
  origin : Origin := .source
end

/-- The root of a template. -/
structure Template where
  body : List Statement
  blockParams : List String := []
  loc : Span := {}

/-! ### Equality -/

mutual
/-- Statements can be compared. -/
def Statement.decEq : (a b : Statement) → Decidable (a = b)
  | .mustache m, .mustache n => decidable_of_iff (m = n) (by simp)
  | .block b, .block c =>
    haveI := BlockStatement.decEq b c
    decidable_of_iff (b = c) (by simp)
  | .element e, .element f =>
    haveI := Element.decEq e f
    decidable_of_iff (e = f) (by simp)
  | .text t, .text u => decidable_of_iff (t = u) (by simp)
  | .mustacheComment c, .mustacheComment d => decidable_of_iff (c = d) (by simp)
  | .comment c, .comment d => decidable_of_iff (c = d) (by simp)
  | .mustache _, .block _ | .mustache _, .element _ | .mustache _, .text _
  | .mustache _, .mustacheComment _ | .mustache _, .comment _
  | .block _, .mustache _ | .block _, .element _ | .block _, .text _
  | .block _, .mustacheComment _ | .block _, .comment _
  | .element _, .mustache _ | .element _, .block _ | .element _, .text _
  | .element _, .mustacheComment _ | .element _, .comment _
  | .text _, .mustache _ | .text _, .block _ | .text _, .element _
  | .text _, .mustacheComment _ | .text _, .comment _
  | .mustacheComment _, .mustache _ | .mustacheComment _, .block _ | .mustacheComment _, .element _
  | .mustacheComment _, .text _ | .mustacheComment _, .comment _
  | .comment _, .mustache _ | .comment _, .block _ | .comment _, .element _
  | .comment _, .text _ | .comment _, .mustacheComment _ => isFalse (by simp)
/-- Block statements can be compared. -/
def BlockStatement.decEq : (a b : BlockStatement) → Decidable (a = b)
  | ⟨p, ps, h, g, i, l, o⟩, ⟨p', ps', h', g', i', l', o'⟩ =>
    haveI := Block.decEq g g'
    haveI := Block.decEqOption i i'
    decidable_of_iff (p = p' ∧ ps = ps' ∧ h = h' ∧ g = g' ∧ i = i' ∧ l = l' ∧ o = o') (by simp)
/-- Blocks can be compared. -/
def Block.decEq : (a b : Block) → Decidable (a = b)
  | ⟨b, ps, c, l, o⟩, ⟨b', ps', c', l', o'⟩ =>
    haveI := Statement.decEqList b b'
    decidable_of_iff (b = b' ∧ ps = ps' ∧ c = c' ∧ l = l' ∧ o = o') (by simp)
/-- Elements can be compared. -/
def Element.decEq : (a b : Element) → Decidable (a = b)
  | ⟨t, s, a, m, c, k, ps, l, o⟩, ⟨t', s', a', m', c', k', ps', l', o'⟩ =>
    haveI := Statement.decEqList c c'
    decidable_of_iff (t = t' ∧ s = s' ∧ a = a' ∧ m = m' ∧ c = c' ∧ k = k' ∧ ps = ps' ∧ l = l' ∧
      o = o') (by simp)
/-- Inverses can be compared. -/
def Block.decEqOption : (a b : Option Block) → Decidable (a = b)
  | none, none => isTrue rfl
  | none, some _ | some _, none => isFalse (by simp)
  | some b, some c =>
    haveI := Block.decEq b c
    decidable_of_iff (b = c) (by simp)
/-- Bodies can be compared. -/
def Statement.decEqList : (a b : List Statement) → Decidable (a = b)
  | [], [] => isTrue rfl
  | [], _ :: _ | _ :: _, [] => isFalse (by simp)
  | x :: xs, y :: ys =>
    haveI := Statement.decEq x y
    haveI := Statement.decEqList xs ys
    decidable_of_iff (x = y ∧ xs = ys) (by simp)
end

instance : DecidableEq Statement := Statement.decEq

instance : DecidableEq BlockStatement := BlockStatement.decEq

instance : DecidableEq Block := Block.decEq

instance : DecidableEq Element := Element.decEq

deriving instance DecidableEq for Template

/-! ### Views -/

namespace Statement

/-- The element, if the statement is one. -/
def element? : Statement → Option Element
  | .element e => some e
  | _ => none

/-- Where the statement stands. -/
def loc : Statement → Span
  | .mustache m => m.loc
  | .block b => b.loc
  | .element e => e.loc
  | .text t => t.loc
  | .mustacheComment c => c.loc
  | .comment c => c.loc

end Statement

end TemplateBlocks
