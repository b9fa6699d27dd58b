import TemplateBlocks.Diagnostic.Basic
import TemplateBlocks.Tree.Statement

/-!
# Node builders

How desugaring makes nodes. A caller may bring builders of its own, to stamp its own spans or keep
its own books: each builder is an action on a state that the caller chooses. `Builders.standard`
keeps no state and makes the nodes as they are asked for.
-/

namespace TemplateBlocks

/-- The parts of an element beside its tag. -/
structure ElementParts where
  attributes : List Attribute := []
  modifiers : List Modifier := []
  children : List Statement := []
  comments : List Comment := []
  blockParams : List String := []
  selfClosing : Bool := false
  loc : Span := {}

/-- A maker for each kind of node, over a state `σ`. -/
structure Builders (σ : Type) where
  path (text : String) (loc : Span) : StateM σ Path := pure (Path.ofText text loc)
  string (value : String) : StateM σ Expr := pure (.string { value })
  number (value : Binary64) : StateM σ Expr := pure (.number { value })
  boolean (value : Bool) : StateM σ Expr := pure (.boolean { value })
  pair (key : String) (value : Expr) : StateM σ HashPair := pure { key, value }
  hash (pairs : List HashPair) (loc : Span) : StateM σ Hash := pure { pairs, loc }
  sub (path : Path) (params : List Expr) (hash : Option Hash) (loc : Span) : StateM σ SubExpr :=
    pure { path, params, hash := hash.getD {}, loc }
  mustache (path : Expr) (params : List Expr) (hash : Option Hash) (trusting : Bool)
    (loc : Span) : StateM σ Mustache :=
    pure { path, params, hash := hash.getD {}, trusting, loc }
  blockStatement (path : Expr) (params : List Expr) (hash : Option Hash) (program : Block)
    (inverse : Option Block) (loc : Span) : StateM σ BlockStatement :=
    pure { path, params, hash := hash.getD {}, program, inverse, loc }
  block (body : List Statement) (blockParams : List String) (chained : Bool) (loc : Span) :
    StateM σ Block := pure { body, blockParams, chained, loc }
  attr (name : String) (value : AttrValue) (loc : Span) : StateM σ Attribute :=
    pure { name, value, loc }
  element (tag : String) (parts : ElementParts) : StateM σ Element :=
    pure {
      tag
      selfClosing := parts.selfClosing
      attributes := parts.attributes
      modifiers := parts.modifiers
      children := parts.children
      comments := parts.comments
      blockParams := parts.blockParams
      loc := parts.loc }

/-- Builders that make the nodes as they are asked for. -/
def Builders.standard : Builders Unit := {}

/-- Making nodes, or giving up with a diagnostic. The builders' state outlives a failure. -/
abbrev BuildM (σ : Type) := ExceptT Diagnostic (StateM σ)

end TemplateBlocks
