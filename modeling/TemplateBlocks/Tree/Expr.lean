import TemplateBlocks.Decimal.Binary64
import TemplateBlocks.Text

/-!
# Expressions

Paths, literals and calls, with their named arguments. Every node says where it stands in the
template's source (`Span`), and those that desugaring looks at whether they were written there at
all (`Origin`).

* `Path.ofText`: the path that a text spells;
* `Expr.markSynthetic`: the same expression with every call in it shielded from further change.
-/

namespace TemplateBlocks

/-! ### Spans and origins -/

/-- A line and a column. -/
structure Position where
  line : UInt32 := 0
  column : UInt32 := 0
  deriving DecidableEq

/-- A stretch of a source file. -/
structure Span where
  /-- The file, where it is known. -/
  source : Option String := none
  start : Position := {}
  stop : Position := {}
  deriving DecidableEq

namespace Span

/-- The span of nodes that stand nowhere in a source. -/
def synthetic : Span := {}

/-- Whether a span points nowhere. -/
def isSynthetic (s : Span) : Bool := s = synthetic

end Span

/-- Whether a node was written by an author, or put in place and not to be changed again. -/
inductive Origin where
  | source
  | synthetic
  deriving DecidableEq

/-! ### Paths -/

/-- A dotted path such as `item.name`, `this.name` or `@name`. -/
structure Path where
  /-- The path as it was written. -/
  text : String
  /-- Whether it starts at `this`. -/
  isThis : Bool := false
  /-- Whether it names an argument, that is, starts with `@`. -/
  isData : Bool := false
  /-- The segments after `this` or `@`. -/
  parts : List String := []
  loc : Span := {}
  deriving DecidableEq

namespace Path

/-- The segments of what follows `this` or `@`; nothing has no segments. -/
def partsOf (rest : String) : List String := if rest = "" then [] else Text.segments rest

/-- The path that a text spells. -/
def ofText (text : String) (loc : Span) : Path :=
  match Text.afterLead? ['@'] text with
  | some rest => { text, isData := true, parts := partsOf rest, loc }
  | none =>
    if text = "this" then { text, isThis := true, loc }
    else
      match Text.afterLead? ['t', 'h', 'i', 's', '.'] text with
      | some rest => { text, isThis := true, parts := partsOf rest, loc }
      | none => { text, parts := partsOf text, loc }

/-- The first segment. -/
def head? (p : Path) : Option String := p.parts.head?

end Path

/-! ### Expressions -/

/-- A literal value and where it stands. -/
structure Literal (α : Type) where
  value : α
  loc : Span := {}
  deriving DecidableEq

mutual
/-- An expression. -/
inductive Expr where
  | path (p : Path)
  | sub (s : SubExpr)
  | string (l : Literal String)
  | number (l : Literal Binary64)
  | boolean (l : Literal Bool)
/-- A call in parentheses. -/
structure SubExpr where
  path : Path
  params : List Expr := []
  hash : Hash
  loc : Span := {}
  origin : Origin := .source
/-- The named arguments of a call. -/
structure Hash where
  pairs : List HashPair := []
  loc : Span := {}
/-- One named argument. -/
structure HashPair where
  key : String
  value : Expr
  loc : Span := {}
end

/-! ### Equality -/

mutual
/-- Expressions can be compared. -/
def Expr.decEq : (a b : Expr) → Decidable (a = b)
  | .path p, .path q => decidable_of_iff (p = q) (by simp)
  | .sub s, .sub t =>
    haveI := SubExpr.decEq s t
    decidable_of_iff (s = t) (by simp)
  | .string l, .string m => decidable_of_iff (l = m) (by simp)
  | .number l, .number m => decidable_of_iff (l = m) (by simp)
  | .boolean l, .boolean m => decidable_of_iff (l = m) (by simp)
  | .path _, .sub _ | .path _, .string _ | .path _, .number _ | .path _, .boolean _
  | .sub _, .path _ | .sub _, .string _ | .sub _, .number _ | .sub _, .boolean _
  | .string _, .path _ | .string _, .sub _ | .string _, .number _ | .string _, .boolean _
  | .number _, .path _ | .number _, .sub _ | .number _, .string _ | .number _, .boolean _
  | .boolean _, .path _ | .boolean _, .sub _ | .boolean _, .string _ | .boolean _, .number _ =>
    isFalse (by simp)
/-- Calls can be compared. -/
def SubExpr.decEq : (a b : SubExpr) → Decidable (a = b)
  | ⟨p, ps, h, l, o⟩, ⟨p', ps', h', l', o'⟩ =>
    haveI := Expr.decEqList ps ps'
    haveI := Hash.decEq h h'
    decidable_of_iff (p = p' ∧ ps = ps' ∧ h = h' ∧ l = l' ∧ o = o') (by simp)
/-- Named arguments can be compared. -/
def Hash.decEq : (a b : Hash) → Decidable (a = b)
  | ⟨ps, l⟩, ⟨ps', l'⟩ =>
    haveI := HashPair.decEqList ps ps'
    decidable_of_iff (ps = ps' ∧ l = l') (by simp)
/-- A named argument can be compared. -/
def HashPair.decEq : (a b : HashPair) → Decidable (a = b)
  | ⟨k, v, l⟩, ⟨k', v', l'⟩ =>
    haveI := Expr.decEq v v'
    decidable_of_iff (k = k' ∧ v = v' ∧ l = l') (by simp)
/-- Lists of expressions can be compared. -/
def Expr.decEqList : (a b : List Expr) → Decidable (a = b)
  | [], [] => isTrue rfl
  | [], _ :: _ | _ :: _, [] => isFalse (by simp)
  | x :: xs, y :: ys =>
    haveI := Expr.decEq x y
    haveI := Expr.decEqList xs ys
    decidable_of_iff (x = y ∧ xs = ys) (by simp)
/-- Lists of named arguments can be compared. -/
def HashPair.decEqList : (a b : List HashPair) → Decidable (a = b)
  | [], [] => isTrue rfl
  | [], _ :: _ | _ :: _, [] => isFalse (by simp)
  | x :: xs, y :: ys =>
    haveI := HashPair.decEq x y
    haveI := HashPair.decEqList xs ys
    decidable_of_iff (x = y ∧ xs = ys) (by simp)
end

instance : DecidableEq Expr := Expr.decEq

instance : DecidableEq SubExpr := SubExpr.decEq

instance : DecidableEq Hash := Hash.decEq

instance : DecidableEq HashPair := HashPair.decEq

/-! ### Views -/

namespace Hash

/-- No named arguments. -/
def empty : Hash := {}

/-- The value of the first argument named `key`. -/
def get? (h : Hash) (key : String) : Option Expr :=
  (h.pairs.find? fun p => p.key == key).map HashPair.value

end Hash

namespace Expr

/-- The name of an expression's kind. -/
def kindName : Expr → String
  | .path _ => "PathExpression"
  | .sub _ => "SubExpression"
  | .string _ => "StringLiteral"
  | .number _ => "NumberLiteral"
  | .boolean _ => "BooleanLiteral"

/-- The path, if the expression is one. -/
def path? : Expr → Option Path
  | .path p => some p
  | _ => none

/-- The string literal, if the expression is one. -/
def string? : Expr → Option (Literal String)
  | .string l => some l
  | _ => none

/-- Where the expression stands. -/
def loc : Expr → Span
  | .path p => p.loc
  | .sub s => s.loc
  | .string l => l.loc
  | .number l => l.loc
  | .boolean l => l.loc

end Expr

/-! ### Shielding -/

mutual
/-- The expression with every call in it marked synthetic. -/
def Expr.markSynthetic : Expr → Expr
  | .sub s => .sub s.markSynthetic
  | .path p => .path p
  | .string l => .string l
  | .number l => .number l
  | .boolean l => .boolean l
/-- The call and every call below it marked synthetic. -/
def SubExpr.markSynthetic : SubExpr → SubExpr
  | ⟨path, params, hash, loc, _⟩ =>
    ⟨path, Expr.markSynthetics params, hash.markSynthetic, loc, .synthetic⟩
/-- The arguments with every call in them marked synthetic. -/
def Hash.markSynthetic : Hash → Hash
  | ⟨pairs, loc⟩ => ⟨HashPair.markSynthetics pairs, loc⟩
/-- The argument with every call in it marked synthetic. -/
def HashPair.markSynthetic : HashPair → HashPair
  | ⟨key, value, loc⟩ => ⟨key, value.markSynthetic, loc⟩
/-- Each expression of a list with its calls marked synthetic. -/
def Expr.markSynthetics : List Expr → List Expr
  | [] => []
  | e :: es => e.markSynthetic :: Expr.markSynthetics es
/-- Each argument of a list with its calls marked synthetic. -/
def HashPair.markSynthetics : List HashPair → List HashPair
  | [] => []
  | p :: ps => p.markSynthetic :: HashPair.markSynthetics ps
end

end TemplateBlocks
