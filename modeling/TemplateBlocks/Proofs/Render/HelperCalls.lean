import TemplateBlocks.Proofs.Desugar.Carried
import TemplateBlocks.Proofs.Desugar.Idempotence
import TemplateBlocks.Proofs.Render.Queries
import TemplateBlocks.Proofs.Traversal.Everywhere

/-!
# Calls of the reserved helpers

A desugared template calls the helpers that are reserved for it in three ways only (`IsHelperCall`):
a yield makes a marker, a branch tests one, and a query asks the metadata. Such calls stay as they
are when they are walked into: literals and paths have no parts to desugar, and the plain query that
a query falls back to is synthetic. So if a template calls no reserved helper itself, its plain form
calls them in these ways only (`proper_of_plainForm`), and none of these calls fails when it is
rendered (`IsHelperCall.succeeds`).
-/

namespace TemplateBlocks

open Desugar Host

/-- The helpers that desugared templates rely on. -/
def reservedHelpers : List String :=
  [Names.markHelper, Names.testHelper, Names.hasBlockHelper, Names.hasBlockParamsHelper]

/-- The calls of reserved helpers in desugared templates, by name and arguments. A marker is made
for a block that is passed by name; slot 0 is tested for a marker; a query passes the metadata, the
block's name and the answer for an invocation without metadata. -/
inductive IsHelperCall : (helper : String) → (params : List Expr) → Prop
  | mark {block : Literal String} :
      block.value ∉ [Names.defaultBlock, Names.elseBlock, Names.inverseBlock] →
      IsHelperCall Names.markHelper [.string block]
  | test (block : Literal String) :
      IsHelperCall Names.testHelper
        [.path (.ofText (Names.slot 0) .synthetic), .string block]
  | query {query : BlockQuery} {path : Path} (loc : Span) {block : Literal String} :
      BlockQuery.ofPath? path.text = some query → block.value ≠ Names.elseBlock →
      IsHelperCall query.helper [.path (.ofText Names.metadataArgument .synthetic), .string block,
        queryFallback path loc block.value]

/-- A call of a reserved helper is one of those in desugared templates, and has no named
arguments. -/
def IsProper (p : Path) (params : List Expr) (hash : Hash) : Prop :=
  p.text ∈ reservedHelpers → hash.pairs = [] ∧ IsHelperCall p.text params

variable {p : Path} {params params' : List Expr} {hash hash' : Hash} {scope : Scope}

theorem isProper_of_notMem (h : p.text ∉ reservedHelpers) : IsProper p params hash :=
  fun hp => absurd hp h

theorem isProper_ofText {name : String} (loc : Span) (h : IsHelperCall name params) :
    IsProper (.ofText name loc) params {} := by
  intro _
  rw [Path.ofText_text]
  exact ⟨rfl, h⟩

/-! ### What desugaring makes -/

theorem query_notMem {text : String} {query : BlockQuery}
    (h : BlockQuery.ofPath? text = some query) : text ∉ reservedHelpers := by
  intro hmem
  have hnone : BlockQuery.ofPath? text = none := by
    simp only [reservedHelpers, List.mem_cons, List.not_mem_nil, or_false] at hmem
    rcases hmem with rfl | rfl | rfl | rfl <;> decide
  rw [hnone] at h
  cases h

/-- **Everything that desugaring makes calls reserved helpers properly.** -/
theorem carried_proper : Carried (OfCalls IsProper) where
  neutral {k} x hk := by
    cases k <;> trivial
  keyword {b name} hname hpath p hp := by
    have hkeyword : ∀ name ∈ [Names.ifKeyword, Names.letKeyword], name ∉ reservedHelpers := by
      decide
    rw [hpath] at hp
    cases hp
    apply isProper_of_notMem
    rw [Path.ofText_text]
    exact hkeyword name hname
  element _ _ := trivial
  metadata m := by
    rintro p ⟨⟩
    apply isProper_of_notMem
    rw [Path.ofText_text]
    decide
  test block := isProper_ofText _ (.test _)
  mark {target} hdefault hinverse := by
    refine isProper_ofText _ (.mark ?_)
    simpa [IsInverseName] using ⟨hdefault, not_or.1 hinverse⟩
  yields {m p} target hp hyield hm q hq := by
    obtain rfl : p = q := by simpa using hp.symm.trans hq
    apply isProper_of_notMem
    rw [hyield]
    decide
  mustache {m p query block} hp hquery hblock _ := by
    refine ⟨?_, fun params => isProper_of_notMem (query_notMem hquery)⟩
    rintro q ⟨⟩
    exact isProper_ofText _ (.query _ hquery hblock)
  subExpression {c query block} hquery hblock _ :=
    ⟨isProper_ofText _ (.query _ hquery hblock), fun _ => isProper_of_notMem (query_notMem hquery)⟩

/-! ### Walking into calls -/

/-- A plain query of literals has no part to desugar, and is not taken for a query again. -/
theorem plainForm_plainQuery {path : Path} {loc : Span}
    (h : params.mapM (plainForm scope .expression) = .ok params) :
    plainForm scope .subExpression (plainQuery path params loc) =
      .ok (plainQuery path params loc) := by
  have hsettled : settled scope .subExpression (plainQuery path params loc) =
      .ok (plainQuery path params loc) := rfl
  rw [plainForm_eq, hsettled, ok_bind]
  exact walk_subExpression_eq_ok.2 ⟨_, _, h, plainForm_hash_nil _, rfl⟩

theorem plainForm_queryFallback (path : Path) (loc : Span) (block : String) :
    plainForm scope .expression (queryFallback path loc block) =
      .ok (queryFallback path loc block) := by
  unfold queryFallback
  split
  · rw [plainForm_sub]
    exact congrArg (Except.map Expr.sub) (plainForm_plainQuery rfl)
  split
  · rw [plainForm_sub]
    refine congrArg (Except.map Expr.sub) (plainForm_plainQuery ?_)
    simp
  · exact plainForm_boolean _

theorem IsHelperCall.plainForm_params {helper : String} (h : IsHelperCall helper params) :
    params.mapM (plainForm scope .expression) = .ok params := by
  apply mapM_eq_self
  intro e he
  cases h with
  | mark =>
    rw [List.mem_singleton.1 he]
    exact plainForm_string _
  | test block =>
    simp only [List.mem_cons, List.not_mem_nil, or_false] at he
    rcases he with rfl | rfl
    · exact plainForm_path _
    · exact plainForm_string _
  | query loc _ _ =>
    simp only [List.mem_cons, List.not_mem_nil, or_false] at he
    rcases he with rfl | rfl | rfl
    · exact plainForm_path _
    · exact plainForm_string _
    · exact plainForm_queryFallback _ loc _

/-- **Proper calls stay proper when their arguments are visited**: those of reserved helpers do not
change. -/
theorem IsProper.walked (h : IsProper p params hash)
    (hparams : params.mapM (plainForm scope .expression) = .ok params')
    (hhash : plainForm scope .hash hash = .ok hash') : IsProper p params' hash' := by
  intro hp
  obtain ⟨hpairs, hcall⟩ := h hp
  constructor
  · rw [plainForm_hash, hpairs] at hhash
    obtain ⟨pairs, hnil, hhash⟩ := bind_eq_ok.1 hhash
    cases hhash
    cases hnil
    rfl
  · rw [hcall.plainForm_params] at hparams
    cases hparams
    exact hcall

theorem proper_walked {k : Kind} {y z : k.Node} (hw : walk (plainForm scope) k y = .ok z)
    (hy : OfCalls IsProper k y) : OfCalls IsProper k z := by
  match k, y, z, hw, hy with
  | .mustache, m, m', hw, hy =>
    obtain ⟨path, params, hash, hpath, hparams, hhash, rfl⟩ := walk_mustache_eq_ok.1 hw
    rintro p rfl
    exact (hy p ((plainForm_eq_path scope).1 hpath)).walked hparams hhash
  | .subExpression, c, c', hw, hy =>
    obtain ⟨params, hash, hparams, hhash, rfl⟩ := walk_subExpression_eq_ok.1 hw
    exact hy.walked hparams hhash
  | .blockStatement, b, b', hw, hy =>
    obtain ⟨path, hpath, hw⟩ := bind_eq_ok.1 hw
    obtain ⟨params, hparams, hw⟩ := bind_eq_ok.1 hw
    obtain ⟨hash, hhash, hw⟩ := bind_eq_ok.1 hw
    obtain ⟨program, -, hw⟩ := bind_eq_ok.1 hw
    obtain ⟨inverse, -, hw⟩ := bind_eq_ok.1 hw
    cases hw
    rintro p rfl
    exact (hy p ((plainForm_eq_path scope).1 hpath)).walked hparams hhash
  | .template, _, _, _, _ | .block, _, _, _, _ | .statements, _, _, _, _ | .statement, _, _, _, _
  | .element, _, _, _, _ | .attribute, _, _, _, _ | .modifier, _, _, _, _
  | .expression, _, _, _, _ | .hash, _, _, _, _ => trivial

/-- **Plain forms call reserved helpers properly** if the nodes did. -/
theorem proper_of_plainForm {k : Kind} {x z : k.Node} (h : plainForm scope k x = .ok z)
    (hx : Everywhere (OfCalls IsProper) k x) : Everywhere (OfCalls IsProper) k z :=
  everywhere_plainForm carried_proper.settled proper_walked h hx

/-! ### Rendering -/

/-- The component was invoked with metadata or without. -/
def Host.HasMetadata (host : Host) (ρ : Env) : Prop :=
  host.metadata ρ = .undefined ∨ (host.metadata ρ).isMetadata = true

/-- Queries that are asked properly are answered. -/
theorem exists_answer {host : Host} {ρ : Env} (hinfo : host.HasMetadata ρ) (query : BlockQuery)
    (block : String) (fallback : Bool) : ∃ b : Bool,
      Helper.call query.helper [host.metadata ρ, .string block, .bool fallback] [] =
        pure (.bool b) := by
  rcases hinfo with hnone | hsome
  · rw [hnone]
    exact ⟨fallback, call_query_undefined query block fallback⟩
  · cases hvalue : host.metadata ρ with
    | hash entries =>
      rw [hvalue] at hsome
      exact ⟨_, call_query_hash query hsome block fallback⟩
    | _ => simp [hvalue, Value.isMetadata] at hsome

/-- **No proper call of a reserved helper fails**: with its arguments evaluated, the helper has a
result, provided that the plain query among them, if there is one, comes to a boolean. -/
theorem IsHelperCall.succeeds {helper : String} (h : IsHelperCall helper params) {host : Host}
    {ρ : Env} (hinfo : host.HasMetadata ρ) {marks : Marks}
    (hplain : ∀ c, .sub c ∈ params → ∃ b marks', ComesTo (host.evalCall ρ c) marks b marks') :
    ∃ values marks₁ v marks₂, (host.evalAll ρ params).run marks = (.ok values, marks₁) ∧
      (Helper.call helper values []).run marks₁ = (.ok v, marks₂) := by
  cases h with
  | @mark block _ => exact ⟨[.string block.value], marks, _, _, rfl, rfl⟩
  | test block => exact ⟨[_, .string block.value], marks, _, _, rfl, rfl⟩
  | @query query path loc block _ _ =>
    have hfallback : ∃ b marks',
        ComesTo (host.eval ρ (queryFallback path loc block.value)) marks b marks' := by
      revert hplain
      unfold queryFallback
      split
      · intro hplain
        exact hplain _ (by simp)
      split
      · intro hplain
        exact hplain _ (by simp)
      · intro _
        exact ⟨false, marks, rfl⟩
    obtain ⟨b, marks', hb⟩ := hfallback
    obtain ⟨answer, hanswer⟩ := exists_answer hinfo query block.value b
    have hvalues : host.evalAll ρ [.path (.ofText Names.metadataArgument .synthetic), .string block,
        queryFallback path loc block.value] = (do
          let fallback ← host.eval ρ (queryFallback path loc block.value)
          return [host.metadata ρ, .string block.value, fallback]) := by
      simp [evalAll, eval, Host.metadata]
    refine ⟨[host.metadata ρ, .string block.value, .bool b], marks', .bool answer, marks', ?_, ?_⟩
    · rw [hvalues, run_bind_ok hb]
      rfl
    · rw [hanswer]
      rfl

/-! ### Desugared templates -/

/-- **Every call of a reserved helper in a desugared template is well-formed and succeeds.** If a
template calls none itself, then a call of one in its plain form has no named arguments and is one
of the three that desugaring makes. Whoever renders it gets a result: the arguments evaluate and the
helper accepts them, whenever there is metadata or none and the plain query among the arguments
comes to a boolean. -/
theorem desugar_helperCalls {t t' : Template}
    (ht : Everywhere (OfCalls fun p _ _ => p.text ∉ reservedHelpers) .template t)
    (h : t.desugar = .ok t') :
    Everywhere (OfCalls fun p params hash => p.text ∈ reservedHelpers →
      hash.pairs = [] ∧ IsHelperCall p.text params) .template t' ∧
    Everywhere (OfCalls fun p params _ => p.text ∈ reservedHelpers →
      ∀ (host : Host) ρ marks, host.HasMetadata ρ →
        (∀ c, .sub c ∈ params → ∃ b marks', ComesTo (host.evalCall ρ c) marks b marks') →
        ∃ values marks₁ v marks₂, (host.evalAll ρ params).run marks = (.ok values, marks₁) ∧
          (Helper.call p.text values []).run marks₁ = (.ok v, marks₂)) .template t' := by
  have hbefore : Everywhere (OfCalls IsProper) .template t :=
    ht.imp fun k x hx => hx.imp fun p params hash hp => isProper_of_notMem hp
  have hproper : Everywhere (OfCalls IsProper) .template t' := by
    rw [desugar_eq_plainForm] at h
    exact proper_of_plainForm h hbefore
  refine ⟨hproper, hproper.imp fun k x hx => hx.imp ?_⟩
  intro p params hash hcall hp host ρ marks hinfo hplain
  exact (hcall hp).2.succeeds hinfo hplain

/-- A yield to a named block that passes the answer to a query, inside a named block: all three
kinds of calls in one template. -/
theorem desugar_helperCalls_footer :
    let target : Literal String := { value := "footer" }
    let query : SubExpr := {
      path := .ofText "has-block" {}
      params := [.string { value := "else" }]
      hash := {} }
    let yield (c : SubExpr) : Mustache := {
      path := .path (.ofText "yield" {})
      params := [.sub c]
      hash := { pairs := [{ key := "to", value := .string target }] } }
    let main (m : Mustache) : Element := { tag := ":main", children := [.mustache m] }
    let card (m : Mustache) : Element := { tag := "Card", children := [.element (main m)] }
    let t : Template := { body := [.element (card (yield query))] }
    let answered := (yield (query.answered .hasBlock "inverse")).yieldTo target
    let t' : Template := { body := [.element ((card answered).fanned (main answered) [])] }
    t.desugar = .ok t' ∧ Everywhere (OfCalls fun p params hash => p.text ∈ reservedHelpers →
      hash.pairs = [] ∧ IsHelperCall p.text params) .template t' := by
  intro target query yield main card t answered t'
  have ht : Everywhere (OfCalls fun p _ _ => p.text ∉ reservedHelpers) .template t := by
    decide +kernel
  have h : t.desugar = .ok t' := by decide +kernel
  exact ⟨h, (desugar_helperCalls ht h).1⟩

end TemplateBlocks
