import TemplateBlocks.Builders
import TemplateBlocks.Proofs.Checks

/-!
# Standard builders

The standard builders keep no state, so an action with them is known by what it makes. `made` and
`outcome` take the state away; both pass through the steps of an action.
-/

namespace TemplateBlocks

variable {α β : Type}

/-- What an action of builders without state makes. -/
def made (act : StateM Unit α) : α := (act.run ()).1

@[simp] theorem made_pure (a : α) : made (pure a) = a := rfl

@[simp] theorem made_bind (x : StateM Unit α) (f : α → StateM Unit β) :
    made (x >>= f) = made (f (made x)) := rfl

@[simp] theorem made_map (x : StateM Unit α) (f : α → β) : made (f <$> x) = f (made x) := rfl

@[simp] theorem made_mapM (f : α → StateM Unit β) (xs : List α) :
    made (xs.mapM f) = xs.map fun x => made (f x) := by
  induction xs with
  | nil => rfl
  | cons x xs ih => simp [List.mapM_cons, ih]

/-- What an action of builders without state ends in: a result or a diagnostic. -/
def outcome (act : BuildM Unit α) : Except Diagnostic α := (act.run.run ()).1

@[simp] theorem outcome_pure (a : α) : outcome (pure a) = .ok a := rfl

@[simp] theorem outcome_throw (d : Diagnostic) : outcome (throw d : BuildM Unit α) = .error d := rfl

@[simp] theorem outcome_made (act : StateM Unit α) : outcome (liftM act) = .ok (made act) := rfl

@[simp] theorem outcome_check (r : Except Diagnostic α) : outcome (liftM r) = r := rfl

@[simp] theorem outcome_bind (x : BuildM Unit α) (f : α → BuildM Unit β) :
    outcome (x >>= f) = outcome x >>= fun a => outcome (f a) := by
  change (match x.run.run () with | (r, _) => (ExceptT.bindCont f r).run ()).1 = _
  unfold outcome
  obtain ⟨r, u⟩ := x.run.run ()
  cases r <;> rfl

@[simp] theorem outcome_map (x : BuildM Unit α) (f : α → β) :
    outcome (f <$> x) = f <$> outcome x := by
  rw [map_eq_pure_bind, map_eq_pure_bind, outcome_bind]
  rfl

@[simp] theorem outcome_mapM (f : α → BuildM Unit β) (xs : List α) :
    outcome (xs.mapM f) = xs.mapM fun x => outcome (f x) := by
  induction xs with
  | nil => rfl
  | cons x xs ih => simp only [List.mapM_cons, outcome_bind, ih, outcome_pure, pure_eq_ok]

@[simp] theorem outcome_forM (f : α → BuildM Unit PUnit) (xs : List α) :
    outcome (forM xs f) = forM xs fun x => outcome (f x) := by
  induction xs with
  | nil => rfl
  | cons x xs ih => simp [ih]

/-! ### What the standard builders make -/

namespace Builders

@[simp] theorem made_path (text : String) (loc : Span) :
    made (standard.path text loc) = .ofText text loc := rfl

@[simp] theorem made_string (value : String) :
    made (standard.string value) = .string { value } := rfl

@[simp] theorem made_number (value : Binary64) :
    made (standard.number value) = .number { value } := rfl

@[simp] theorem made_boolean (value : Bool) :
    made (standard.boolean value) = .boolean { value } := rfl

@[simp] theorem made_pair (key : String) (value : Expr) :
    made (standard.pair key value) = { key, value } := rfl

@[simp] theorem made_hash (pairs : List HashPair) (loc : Span) :
    made (standard.hash pairs loc) = { pairs, loc } := rfl

@[simp] theorem made_sub (path : Path) (params : List Expr) (hash : Option Hash) (loc : Span) :
    made (standard.sub path params hash loc) = { path, params, hash := hash.getD {}, loc } := rfl

@[simp] theorem made_mustache (path : Expr) (params : List Expr) (hash : Option Hash)
    (trusting : Bool) (loc : Span) : made (standard.mustache path params hash trusting loc) =
      { path, params, hash := hash.getD {}, trusting, loc } := rfl

@[simp] theorem made_blockStatement (path : Expr) (params : List Expr) (hash : Option Hash)
    (program : Block) (inverse : Option Block) (loc : Span) :
    made (standard.blockStatement path params hash program inverse loc) =
      { path, params, hash := hash.getD {}, program, inverse, loc } := rfl

@[simp] theorem made_block (body : List Statement) (blockParams : List String) (chained : Bool)
    (loc : Span) : made (standard.block body blockParams chained loc) =
      { body, blockParams, chained, loc } := rfl

@[simp] theorem made_attr (name : String) (value : AttrValue) (loc : Span) :
    made (standard.attr name value loc) = { name, value, loc } := rfl

@[simp] theorem made_element (tag : String) (parts : ElementParts) :
    made (standard.element tag parts) = {
      tag
      selfClosing := parts.selfClosing
      attributes := parts.attributes
      modifiers := parts.modifiers
      children := parts.children
      comments := parts.comments
      blockParams := parts.blockParams
      loc := parts.loc } := rfl

end Builders

end TemplateBlocks
