import TemplateBlocks.Proofs.Json.Fields
import TemplateBlocks.Tree.Encode

/-!
# Documents of templates are legible

Whatever the texts and numbers of a template are, its document can be held: nothing in it is
illegible, down to every span. One lemma for each kind of node, by recursion on the tree.
-/

namespace TemplateBlocks

open Json

/-! ### Spans and leaves -/

theorem isLegible_tagged {type : String} {fields : List (String × Json)} :
    (tagged type fields).isLegible ↔ ∀ f ∈ fields, f.2.isLegible := by
  rw [tagged, isLegible_obj, List.forall_mem_cons]
  exact and_iff_right rfl

theorem isLegible_strings (ss : List String) : (stringsToJson ss).isLegible :=
  isLegible_arr_map fun s _ => isLegible_str s

theorem Span.isLegible_toJson (s : Span) : s.toJson.isLegible := by
  obtain ⟨source, start, stop⟩ := s
  cases source <;> rfl

theorem Origin.legible_field (o : Origin) : ∀ f ∈ o.field, f.2.isLegible := by
  cases o <;> simp [field]

theorem Path.legible_fields (p : Path) : ∀ f ∈ p.fields, f.2.isLegible := by
  simp [fields, isLegible_strings, p.loc.isLegible_toJson]

theorem TextNode.legible_fields (t : TextNode) : ∀ f ∈ t.fields, f.2.isLegible := by
  simp [fields, t.loc.isLegible_toJson]

theorem Comment.legible_fields (c : Comment) : ∀ f ∈ c.fields, f.2.isLegible := by
  simp [fields, c.loc.isLegible_toJson]

theorem Literal.legible_fields {α : Type} {encode : α → Json} (l : Literal α)
    (hvalue : (encode l.value).isLegible) : ∀ f ∈ l.fields encode, f.2.isLegible := by
  simp [fields, hvalue, l.loc.isLegible_toJson]

/-! ### Expressions -/

@[simp] theorem Expr.toJsons_eq_map (es : List Expr) : Expr.toJsons es = es.map Expr.toJson := by
  induction es with
  | nil => rfl
  | cons e es ih => rw [Expr.toJsons, ih, List.map_cons]

@[simp] theorem HashPair.toJsons_eq_map (ps : List HashPair) :
    HashPair.toJsons ps = ps.map HashPair.toJson := by
  induction ps with
  | nil => rfl
  | cons p ps ih => rw [HashPair.toJsons, ih, List.map_cons]

mutual
theorem Expr.isLegible_toJson : (e : Expr) → e.toJson.isLegible
  | .path p => isLegible_tagged.2 p.legible_fields
  | .sub c => isLegible_tagged.2 c.legible_fields
  | .string l => isLegible_tagged.2 (l.legible_fields rfl)
  | .number l => isLegible_tagged.2 (l.legible_fields rfl)
  | .boolean l => isLegible_tagged.2 (l.legible_fields rfl)
theorem SubExpr.legible_fields : (c : SubExpr) → ∀ f ∈ c.fields, f.2.isLegible
  | ⟨path, params, hash, loc, origin⟩ => by
    have hpath := isLegible_obj.2 path.legible_fields
    have hparams := isLegible_arr_map (Expr.legible_toJsons params)
    have hhash := hash.isLegible_toJson
    refine List.forall_mem_append.2 ⟨?_, origin.legible_field⟩
    simp [hpath, hparams, hhash, loc.isLegible_toJson]
theorem Hash.isLegible_toJson : (h : Hash) → h.toJson.isLegible
  | ⟨pairs, loc⟩ => by
    have hpairs := isLegible_arr_map (HashPair.legible_toJsons pairs)
    refine isLegible_obj.2 ?_
    simp [hpairs, loc.isLegible_toJson]
theorem HashPair.isLegible_toJson : (p : HashPair) → p.toJson.isLegible
  | ⟨key, value, loc⟩ => by
    have hvalue := value.isLegible_toJson
    refine isLegible_obj.2 ?_
    simp [hvalue, loc.isLegible_toJson]
theorem Expr.legible_toJsons : (es : List Expr) → ∀ e ∈ es, e.toJson.isLegible
  | [] => by simp
  | e :: es => List.forall_mem_cons.2 ⟨e.isLegible_toJson, Expr.legible_toJsons es⟩
theorem HashPair.legible_toJsons : (ps : List HashPair) → ∀ p ∈ ps, p.toJson.isLegible
  | [] => by simp
  | p :: ps => List.forall_mem_cons.2 ⟨p.isLegible_toJson, HashPair.legible_toJsons ps⟩
end

/-! ### Mustaches, attributes and modifiers -/

theorem Mustache.legible_fields (m : Mustache) : ∀ f ∈ m.fields, f.2.isLegible := by
  have hparams := isLegible_arr_map (Expr.legible_toJsons m.params)
  refine List.forall_mem_append.2 ⟨?_, m.origin.legible_field⟩
  simp [hparams, m.path.isLegible_toJson, m.hash.isLegible_toJson, m.loc.isLegible_toJson]

theorem ConcatPart.isLegible_toJson (c : ConcatPart) : c.toJson.isLegible := by
  cases c with
  | text t => exact isLegible_tagged.2 t.legible_fields
  | mustache m => exact isLegible_tagged.2 m.legible_fields

theorem AttrValue.isLegible_toJson (a : AttrValue) : a.toJson.isLegible := by
  cases a with
  | text t => exact isLegible_tagged.2 t.legible_fields
  | mustache m => exact isLegible_tagged.2 m.legible_fields
  | concat c =>
    have hparts := isLegible_arr_map fun q (_ : q ∈ c.parts) => q.isLegible_toJson
    refine isLegible_tagged.2 ?_
    simp [Concat.fields, hparts, c.loc.isLegible_toJson]

theorem Attribute.isLegible_toJson (a : Attribute) : a.toJson.isLegible := by
  refine isLegible_obj.2 ?_
  simp [a.value.isLegible_toJson, a.loc.isLegible_toJson]

theorem Modifier.isLegible_toJson (m : Modifier) : m.toJson.isLegible := by
  have hpath := isLegible_obj.2 m.path.legible_fields
  have hparams := isLegible_arr_map (Expr.legible_toJsons m.params)
  refine isLegible_obj.2 ?_
  simp [hpath, hparams, m.hash.isLegible_toJson, m.loc.isLegible_toJson]

/-! ### Statements -/

@[simp] theorem Statement.toJsons_eq_map (ss : List Statement) :
    Statement.toJsons ss = ss.map Statement.toJson := by
  induction ss with
  | nil => rfl
  | cons s ss ih => rw [Statement.toJsons, ih, List.map_cons]

mutual
theorem Statement.isLegible_toJson : (s : Statement) → s.toJson.isLegible
  | .mustache m => isLegible_tagged.2 m.legible_fields
  | .block b => isLegible_tagged.2 b.legible_fields
  | .element e => isLegible_tagged.2 e.legible_fields
  | .text t => isLegible_tagged.2 t.legible_fields
  | .mustacheComment c => isLegible_tagged.2 c.legible_fields
  | .comment c => isLegible_tagged.2 c.legible_fields
theorem BlockStatement.legible_fields : (b : BlockStatement) → ∀ f ∈ b.fields, f.2.isLegible
  | ⟨path, params, hash, program, inverse, loc, origin⟩ => by
    have hparams := isLegible_arr_map (Expr.legible_toJsons params)
    have hprogram := program.isLegible_toJson
    have hinverse := Block.isLegible_toJsonOption inverse
    refine List.forall_mem_append.2 ⟨?_, origin.legible_field⟩
    simp [hparams, hprogram, hinverse, path.isLegible_toJson, hash.isLegible_toJson,
      loc.isLegible_toJson]
theorem Block.isLegible_toJson : (b : Block) → b.toJson.isLegible
  | ⟨body, blockParams, chained, loc, origin⟩ => by
    have hbody := isLegible_arr_map (Statement.legible_toJsons body)
    refine isLegible_obj.2 (List.forall_mem_append.2 ⟨?_, origin.legible_field⟩)
    simp [hbody, isLegible_strings, loc.isLegible_toJson]
theorem Element.legible_fields : (e : Element) → ∀ f ∈ e.fields, f.2.isLegible
  | ⟨tag, selfClosing, attributes, modifiers, children, comments, blockParams, loc, origin⟩ => by
    have hattributes := isLegible_arr_map fun a (_ : a ∈ attributes) => a.isLegible_toJson
    have hmodifiers := isLegible_arr_map fun m (_ : m ∈ modifiers) => m.isLegible_toJson
    have hchildren := isLegible_arr_map (Statement.legible_toJsons children)
    have hcomments := isLegible_arr_map fun c (_ : c ∈ comments) =>
      isLegible_obj.2 c.legible_fields
    refine List.forall_mem_append.2 ⟨?_, origin.legible_field⟩
    simp [hattributes, hmodifiers, hchildren, hcomments, isLegible_strings, loc.isLegible_toJson]
theorem Block.isLegible_toJsonOption : (o : Option Block) → (Block.toJsonOption o).isLegible
  | none => rfl
  | some b => b.isLegible_toJson
theorem Statement.legible_toJsons : (ss : List Statement) → ∀ s ∈ ss, s.toJson.isLegible
  | [] => by simp
  | s :: ss => List.forall_mem_cons.2 ⟨s.isLegible_toJson, Statement.legible_toJsons ss⟩
end

end TemplateBlocks
