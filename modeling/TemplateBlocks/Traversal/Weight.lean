import TemplateBlocks.Traversal.Basic

/-!
# Weights

How many levels suffice to go through a node. Each visit takes one level, so the weight of a node is
one more than that of the heaviest part. Statements of one body are added up, since desugaring may
hang the blocks of an invocation into each other; and nodes of the source carry a reserve for what
desugaring puts into them.
-/

namespace TemplateBlocks

/-- Levels for the arguments that a query is given. -/
def Origin.reserve : Origin → Nat
  | .source => 4
  | .synthetic => 0

/-! ### Expressions -/

mutual
def Expr.weight : Expr → Nat
  | .sub s => s.weight + 1
  | .path _ => 1
  | .string _ => 1
  | .number _ => 1
  | .boolean _ => 1
def SubExpr.weight : SubExpr → Nat
  | ⟨_, params, hash, _, origin⟩ =>
    max origin.reserve (max (Expr.weights params) hash.weight) + 1
def Hash.weight : Hash → Nat
  | ⟨pairs, _⟩ => HashPair.weights pairs + 1
def HashPair.weight : HashPair → Nat
  | ⟨_, value, _⟩ => value.weight
/-- The heaviest expression of a list. -/
def Expr.weights : List Expr → Nat
  | [] => 0
  | e :: es => max e.weight (Expr.weights es)
/-- The heaviest argument of a list. -/
def HashPair.weights : List HashPair → Nat
  | [] => 0
  | p :: ps => max p.weight (HashPair.weights ps)
end

/-! ### Mustaches, attributes and modifiers -/

/-- The greatest of a list of numbers. -/
def heaviest (ns : List Nat) : Nat := ns.foldr max 0

def Mustache.weight (m : Mustache) : Nat :=
  max 8 (max m.path.weight (max (Expr.weights m.params) m.hash.weight)) + 1

def ConcatPart.weight : ConcatPart → Nat
  | .text _ => 0
  | .mustache m => m.weight

def AttrValue.weight : AttrValue → Nat
  | .text _ => 0
  | .mustache m => m.weight
  | .concat c => heaviest (c.parts.map ConcatPart.weight)

def Attribute.weight (a : Attribute) : Nat := a.value.weight + 1

def Modifier.weight (m : Modifier) : Nat := max (Expr.weights m.params) m.hash.weight + 1

/-! ### Statements -/

mutual
def Statement.weight : Statement → Nat
  | .mustache m => m.weight + 1
  | .block b => b.weight + 1
  | .element e => e.weight + 1
  | .text _ => 1
  | .mustacheComment _ => 1
  | .comment _ => 1
def BlockStatement.weight : BlockStatement → Nat
  | ⟨path, params, hash, program, inverse, _, _⟩ =>
    max path.weight (max (Expr.weights params) (max hash.weight
      (max program.weight (Block.weightOption inverse)))) + 1
def Block.weight : Block → Nat
  | ⟨body, _, _, _, _⟩ => Statement.weights body + 2
def Element.weight : Element → Nat
  | ⟨_, _, attributes, modifiers, children, _, _, _, _⟩ =>
    max (heaviest (attributes.map Attribute.weight))
      (max (heaviest (modifiers.map Modifier.weight)) (Statement.weights children)) + 16
def Block.weightOption : Option Block → Nat
  | none => 0
  | some b => b.weight
/-- The statements of a body together. -/
def Statement.weights : List Statement → Nat
  | [] => 0
  | s :: ss => s.weight + Statement.weights ss
end

def Template.weight (t : Template) : Nat := Statement.weights t.body + 2

/-- Goes through a template with hooks. -/
def Hooks.run {σ : Type} (hooks : Hooks σ) (t : Template) : VisitM σ Template :=
  hooks.visit t.weight .template t

end TemplateBlocks
