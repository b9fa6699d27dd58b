import TemplateBlocks.Proofs.Desugar.PlainForm
import TemplateBlocks.Proofs.Reports
import TemplateBlocks.Proofs.Traversal.Spans

/-!
# Where plain forms and diagnostics point to

What desugaring makes stands where something of the template stood, or nowhere: a branch stands
where its block was declared, a marker where the target of the yield did, the `else` around a
branch where the next block was declared. So the spans of a node that takes the place of another
are spans of the latter, or synthetic (`located_settled`), through all rounds and levels of the
traversal. Checks report where a node stands that they look at, even if they look at a replacement,
so that diagnostics point into the template as well (`desugar_locations`).
-/

namespace TemplateBlocks

open Desugar

section Replacements

-- a set of spans, with that of nodes that stand nowhere
variable {S : Span → Prop} (hS : S .synthetic)

include hS

/-! ### Calls -/

theorem located_hash_empty : Located S .hash {} := located_hash.2 ⟨hS, by simp⟩

theorem located_queryParams {path : Path} {loc : Span} (hpath : S path.loc) (hloc : S loc)
    (block : String) : ∀ e ∈ queryParams path loc block, Located S .expression e := by
  have hfallback : Located S .expression (queryFallback path loc block) := by
    unfold queryFallback
    split
    · exact located_sub.2 (located_subExpression.2 ⟨⟨hloc, hpath⟩, by simp, located_hash_empty hS⟩)
    split
    · refine located_sub.2 (located_subExpression.2 ⟨⟨hloc, hpath⟩, ?_, located_hash_empty hS⟩)
      exact List.forall_mem_singleton.2 (located_string.2 hS)
    · exact located_boolean.2 hS
  simpa [queryParams] using ⟨hS, hS, hfallback⟩

theorem SubExpr.located_of_becomes {scope : Scope} {c c' : SubExpr}
    (h : Becomes (fun c : SubExpr => c.enter scope .standard) c c')
    (hc : Located S .subExpression c) : Located S .subExpression c' := by
  obtain ⟨⟨hloc, hpath⟩, -⟩ := located_subExpression.1 hc
  obtain ⟨query, block, -, -, rfl⟩ := becomes_iff.1 h
  refine located_subExpression.2 ⟨⟨hloc, ?_⟩, ?_, located_hash_empty hS⟩
  · rwa [answered, Path.ofText_loc]
  · exact located_queryParams hS hpath hloc block

theorem Mustache.located_yieldTo {m : Mustache} {target : Literal String}
    (hm : Located S .mustache m) (htarget : S target.loc) :
    Located S .mustache (m.yieldTo target) := by
  obtain ⟨hloc, hpath, hparams, hhash⟩ := located_mustache.1 hm
  refine located_mustache.2 ⟨hloc, hpath, ?_, ?_⟩
  · intro e he
    simp only [yieldTo, yieldParams] at he
    split at he
    · exact hparams e he
    split at he
    · simp at he
    · rcases List.mem_cons.1 he with rfl | he
      · refine located_sub.2 (located_subExpression.2 ⟨⟨htarget, ?_⟩, ?_, located_hash_empty hS⟩)
        · simpa [markerCall] using htarget
        · simpa [markerCall] using htarget
      · exact hparams e he
  · simp only [yieldTo, yieldHash]
    split
    · refine located_hash.2 ⟨(located_hash.1 hhash).1, ?_⟩
      exact List.forall_mem_singleton.2 ⟨hS, located_string.2 hS⟩
    · exact located_hash_empty hS

theorem Mustache.located_of_becomes {scope : Scope} {m m' : Mustache}
    (h : Becomes (fun m : Mustache => m.enter scope .standard) m m')
    (hm : Located S .mustache m) : Located S .mustache m' := by
  obtain ⟨hloc, hpath, -, hhash⟩ := located_mustache.1 hm
  obtain ⟨p, hp, ⟨-, -, target, loc, hpairs, -, rfl⟩ | ⟨-, query, block, -, -, rfl⟩⟩ :=
    becomes_iff.1 h
  · refine located_yieldTo hS hm ?_
    obtain ⟨-, htarget⟩ := (located_hash.1 hhash).2 _ (hpairs ▸ List.mem_singleton_self _)
    exact located_string.1 htarget
  · rw [hp, located_path] at hpath
    refine located_mustache.2 ⟨hloc, ?_, located_queryParams hS hpath hloc block,
      located_hash_empty hS⟩
    simpa [answered] using hpath

/-! ### Invocations -/

theorem Element.located_branchBody {block : Element} (hloc : S block.loc)
    (hbody : Located S .statements block.children) : Located S .block block.branchBody := by
  have hown : Located S .block block.ownBody := located_block.2 ⟨hloc, hbody⟩
  have hslots : ∀ e ∈ block.slots, Located S .expression e := by
    intro e he
    obtain ⟨i, -, rfl⟩ := List.mem_map.1 he
    simpa using hS
  have hlet : Located S .blockStatement block.letSlots := by
    refine located_blockStatement.2 ⟨hloc, ?_, ⟨hslots, located_hash_empty hS⟩, hown, ?_⟩
    · simpa [letSlots] using hS
    · simp [letSlots]
  unfold branchBody
  split
  · exact hown
  · exact located_block.2 ⟨hloc, located_singleton.2 hlet⟩

/-- A branch, whatever stands in its inverse. -/
theorem Element.located_branch {block : Element} (hloc : S block.loc)
    (hbody : Located S .statements block.children) {inverse : Option Block}
    (hinverse : ∀ i ∈ inverse, Located S .block i) :
    Located S .blockStatement { block.branch with inverse } := by
  have htest : Located S .expression (.sub block.markerTest) := by
    refine located_sub.2 (located_subExpression.2 ⟨⟨hS, ?_⟩, ?_, located_hash_empty hS⟩)
    · simpa [markerTest] using hS
    · simpa [markerTest] using ⟨hS, hS⟩
  refine located_blockStatement.2 ⟨hloc, ?_, ⟨?_, located_hash_empty hS⟩,
    located_branchBody hS hloc hbody, hinverse⟩
  · simpa [branch] using hS
  · simpa [branch] using htest

theorem located_dispatchChain {first : Element} {rest : List Element}
    (h : ∀ block ∈ first :: rest, S block.loc ∧ Located S .statements block.children) :
    Located S .blockStatement (dispatchChain first rest) := by
  induction rest generalizing first with
  | nil =>
    obtain ⟨hloc, hbody⟩ := h first (by simp)
    have hnone : ∀ i ∈ (none : Option Block), Located S .block i := by simp
    exact Element.located_branch hS hloc hbody hnone
  | cons next rest ih =>
    obtain ⟨hloc, hbody⟩ := h first (by simp)
    have hchain := ih fun block hb => h block (List.mem_cons_of_mem _ hb)
    refine Element.located_branch hS hloc hbody ?_
    rintro i ⟨⟩
    exact located_block.2 ⟨(h next (by simp)).1, located_singleton.2 hchain⟩

theorem Metadata.located_attribute (m : Metadata) : Located S .attribute m.attribute := by
  have hcall : Located S .mustache m.hashCall := by
    refine located_mustache.2 ⟨hS, ?_, by simp [hashCall], located_hash.2 ⟨hS, ?_⟩⟩
    · simpa [hashCall] using hS
    · intro p hp
      obtain ⟨a, -, rfl⟩ := List.mem_map.1 hp
      exact ⟨hS, located_number.2 hS⟩
  refine located_iff.2 ⟨?_, ?_⟩
  · exact List.forall_mem_singleton.2 hS
  · exact List.forall_mem_singleton.2 hcall

theorem Element.located_of_becomes {scope : Scope} {e e' : Element}
    (h : Becomes (fun e : Element => e.enter scope .standard) e e')
    (he : Located S .element e) : Located S .element e' := by
  obtain ⟨hown, hattrs, hmods, hchildren⟩ := located_element.1 he
  obtain ⟨-, -, -, blocks, hblocks, -, hfan⟩ := becomes_iff.1 h
  have hdeclared : ∀ block ∈ blocks, S block.loc ∧ Located S .statements block.children := by
    intro block hb
    have hmem := (sublist_of_namedBlocks hblocks).subset (List.mem_map_of_mem hb)
    have hblock : Located S .element block := Everywhere.of_mem hchildren hmem
    exact ⟨(located_element.1 hblock).1.1, (located_element.1 hblock).2.2.2⟩
  rcases eq_of_fanOut hfan with ⟨only, rfl, -, rfl⟩ | ⟨-, first, rest, rfl, rfl⟩
  · exact located_element.2 ⟨hown, hattrs, hmods, (hdeclared only (by simp)).2⟩
  · refine located_element.2 ⟨hown, ?_, hmods, ?_⟩
    · intro a ha
      rcases List.mem_append.1 ha with ha | ha
      · exact hattrs a ha
      · rw [List.mem_singleton.1 ha]
        exact Metadata.located_attribute hS _
    · exact located_singleton.2 (located_dispatchChain hS hdeclared)

/-- **Settling keeps to the spans of a node**, and the synthetic one. -/
theorem located_settled {scope : Scope} {k : Kind} {x y : k.Node}
    (h : settled scope k x = .ok y) (hx : Located S k x) : Located S k y := by
  match k, x, y, h, hx with
  | .template, t, t', h, hx =>
    obtain ⟨-, -, h⟩ := bind_eq_ok.1 h
    cases h
    exact hx
  | .element, e, e', h, hx =>
    exact settleSource_induction hx (fun a b ha hab => Element.located_of_becomes hS hab ha) h
  | .mustache, m, m', h, hx =>
    exact settleSource_induction hx (fun a b ha hab => Mustache.located_of_becomes hS hab ha) h
  | .subExpression, c, c', h, hx =>
    exact settleSource_induction hx (fun a b ha hab => SubExpr.located_of_becomes hS hab ha) h
  | .block, _, _, h, hx | .statements, _, _, h, hx | .statement, _, _, h, hx
  | .blockStatement, _, _, h, hx | .attribute, _, _, h, hx | .modifier, _, _, h, hx
  | .expression, _, _, h, hx | .hash, _, _, h, hx =>
    cases h
    exact hx

theorem located_plainForm {scope : Scope} {k : Kind} {x z : k.Node}
    (h : plainForm scope k x = .ok z) (hx : Located S k x) : Located S k z := by
  refine everywhere_plainForm (located_settled hS) ?_ h hx
  intro scope k y z hw hy
  rwa [ownSpans_walked hw]

/-! ### Diagnostics -/

omit hS in
/-- A place in the template, if any, is where a span of `S` starts. -/
def Diagnostic.PointsInto (S : Span → Prop) (d : Diagnostic) : Prop :=
  ∀ l, d.location? = some l → ∃ span, S span ∧ span.location? = some l

omit hS in
theorem pointsInto_report (m : Misuse) (span : Span) (hspan : S span) :
    (m.report span).PointsInto S :=
  fun _ hl => ⟨span, hspan, hl⟩

omit hS in
theorem pointsInto_defect (d : Defect) : d.report.PointsInto S := by
  rintro l ⟨⟩

omit hS in
theorem Element.checkedSpans_of_located {e : Element} (h : Located S .element e) :
    ∀ span ∈ e.checkedSpans, S span := by
  obtain ⟨⟨hloc, -⟩, -, -, hchildren⟩ := located_element.1 h
  refine List.forall_mem_cons.2 ⟨hloc, List.forall_mem_map.2 fun s hs => ?_⟩
  exact (located_statements.1 hchildren s hs).statement_loc

omit hS in
theorem SubExpr.checkedSpans_of_located {c : SubExpr} (h : Located S .subExpression c) :
    ∀ span ∈ c.checkedSpans, S span := by
  obtain ⟨⟨hloc, hpath⟩, hparams, -⟩ := located_subExpression.1 h
  refine List.forall_mem_cons.2 ⟨hloc, List.forall_mem_cons.2 ⟨hpath, ?_⟩⟩
  exact List.forall_mem_map.2 fun e he => (hparams e he).expr_loc

omit hS in
theorem Mustache.checkedSpans_of_located {m : Mustache} (h : Located S .mustache m) :
    ∀ span ∈ m.checkedSpans, S span := by
  obtain ⟨hloc, hpath, hparams, hhash⟩ := located_mustache.1 h
  refine List.forall_mem_cons.2 ⟨hloc, List.forall_mem_cons.2 ⟨hpath.expr_loc, ?_⟩⟩
  refine List.forall_mem_append.2 ⟨List.forall_mem_map.2 fun e he => (hparams e he).expr_loc, ?_⟩
  exact List.forall_mem_map.2 fun p hp => ((located_hash.1 hhash).2 p hp).2.expr_loc

/-- **A node that is refused is refused where something of it stands**, if anywhere. -/
theorem pointsInto_of_settled {scope : Scope} {k : Kind} {x : k.Node} {d : Diagnostic}
    (h : settled scope k x = .error (.refused d)) (hx : Located S k x) : d.PointsInto S := by
  match k, x, h, hx with
  | .template, t, h, hx =>
    have hloc : S t.loc := (located_iff.1 hx).1 _ (by simp [ownSpans])
    have hcheck : FailsWith (Diagnostic.PointsInto S) (t.checkRoot scope) :=
      (failsWith_maintain (pointsInto_defect _)).bind fun _ => failsWith_obey pointsInto_report hloc
    rw [settled_template] at h
    cases hroot : t.checkRoot scope with
    | ok u =>
      rw [hroot] at h
      cases h
    | error e =>
      rw [hroot] at h
      cases h
      exact hcheck d hroot
  | .element, e, h, hx =>
    refine settleSource_refused (P := Located S .element) hx
      (fun a b ha hab => Element.located_of_becomes hS hab ha) ?_ (pointsInto_defect _) h
    intro a d ha hd
    exact Element.reports_enter pointsInto_report (Element.checkedSpans_of_located ha)
      (fun _ => a.reports_dispatchTo_standard) scope () d hd
  | .mustache, m, h, hx =>
    refine settleSource_refused (P := Located S .mustache) hx
      (fun a b ha hab => Mustache.located_of_becomes hS hab ha) ?_ (pointsInto_defect _) h
    intro a d ha hd
    exact Mustache.reports_enter pointsInto_report (Mustache.checkedSpans_of_located ha) scope
      .standard () d hd
  | .subExpression, c, h, hx =>
    refine settleSource_refused (P := Located S .subExpression) hx
      (fun a b ha hab => SubExpr.located_of_becomes hS hab ha) ?_ (pointsInto_defect _) h
    intro a d ha hd
    exact SubExpr.reports_enter pointsInto_report (SubExpr.checkedSpans_of_located ha) scope
      .standard () d hd
  | .block, _, h, _ | .statements, _, h, _ | .statement, _, h, _ | .blockStatement, _, h, _
  | .attribute, _, h, _ | .modifier, _, h, _ | .expression, _, h, _ | .hash, _, h, _ => cases h

omit hS in
/-- An action that is refused, if at all, with one of `P`. -/
def refusedWith (P : Diagnostic → Prop) : ActionRel (Except Halt) (Except Halt) where
  rel x _ := ∀ d, x = .error (.refused d) → P d
  pure _ _ h := by cases h
  bind {α β x y f g} h hf := by
    cases x with
    | error e =>
      rintro d ⟨⟩
      exact h d rfl
    | ok a => exact hf a

theorem pointsInto_of_plainForm {scope : Scope} {k : Kind} {x : k.Node} {d : Diagnostic}
    (h : plainForm scope k x = .error (.refused d)) (hx : Located S k x) : d.PointsInto S := by
  induction hn : weight k x using Nat.strong_induction_on generalizing scope k x d with
  | _ n ih =>
    rw [plainForm_eq] at h
    cases hs : settled scope k x with
    | error e =>
      rw [hs] at h
      cases h
      exact pointsInto_of_settled hS hs hx
    | ok y =>
      rw [hs] at h
      obtain ⟨-, hparts⟩ := located_iff.1 (located_settled hS hs hx)
      refine walk_rel (refusedWith (Diagnostic.PointsInto S)) (w := plainForm scope) k y ?_ d h
      intro p hp d hd
      refine ih _ ?_ hd (hparts p hp) rfl
      have := weight_lt_of_settled hs hp
      omega

end Replacements

/-! ### Templates -/

/-- The span of a node of the template, or none at all. -/
def Template.HasSpan (t : Template) (span : Span) : Prop := span = .synthetic ∨ span ∈ t.spans

theorem Template.located (t : Template) : Located t.HasSpan .template t :=
  located_iff_spans.2 fun _ hspan => .inr hspan

/-- **Locations come from the template.** Every span in the plain form of a template is the span of
a node of the template, or synthetic. If the template is refused, the diagnostic has no location, or
it is where the span of a node of the template starts. -/
theorem desugar_locations (t : Template) :
    (∀ t', t.desugar = .ok t' → ∀ span ∈ t'.spans, span ∈ t.spans ∨ span = .synthetic) ∧
    ∀ d, t.desugar = .error (.refused d) → d.location? = none ∨
      ∃ span ∈ t.spans, d.location? =
        some { file := span.source, line := span.start.line, column := span.start.column } := by
  have hsynthetic : t.HasSpan .synthetic := .inl rfl
  refine ⟨?_, ?_⟩
  · intro t' h span hspan
    rw [desugar_eq_plainForm] at h
    exact (located_iff_spans.1 (located_plainForm hsynthetic h t.located) span hspan).symm
  · intro d h
    rw [desugar_eq_plainForm] at h
    cases hl : d.location? with
    | none => exact .inl rfl
    | some l =>
      right
      obtain ⟨span, hspan, hstart⟩ := pointsInto_of_plainForm hsynthetic h t.located l hl
      have hreal : ¬ span.isSynthetic := by
        intro hsyn
        rw [Span.location?, if_pos hsyn] at hstart
        cases hstart
      rw [Span.location?, if_neg hreal] at hstart
      cases hstart
      refine ⟨span, hspan.resolve_left ?_, rfl⟩
      rintro rfl
      exact hreal rfl

/-- A yield whose marker stands where the target did, and an invocation that is refused after its
`<:default>` was unwrapped. -/
theorem desugar_locations_card :
    let place (line column : UInt32) : Span :=
      { source := some "card.hbs", start := { line, column }, stop := { line, column } }
    let target : Literal String := { value := "footer", loc := place 1 12 }
    let pair : HashPair := { key := "to", value := .string target, loc := place 1 9 }
    let yields : Mustache := {
      path := .path (.ofText "yield" (place 1 2))
      hash := { pairs := [pair], loc := place 1 8 }
      loc := place 1 0 }
    let t : Template := { body := [.mustache yields], loc := place 0 0 }
    let t' : Template := { body := [.mustache (yields.yieldTo target)], loc := place 0 0 }
    let block : Element := {
      tag := ":default"
      children := [.text { chars := "Hello", loc := place 2 4 }, .element { tag := ":main" }]
      loc := place 1 6 }
    let u : Template := { body := [.element { tag := "Card", children := [.element block] }] }
    let d := (Misuse.mixedContent "Card").report (place 2 4)
    t.desugar = .ok t' ∧ (∀ span ∈ t'.spans, span ∈ t.spans ∨ span = .synthetic) ∧
      u.desugar = .error (.refused d) ∧ d.location? = some ⟨some "card.hbs", 2, 4⟩ ∧
      (d.location? = none ∨ ∃ span ∈ u.spans, d.location? =
        some { file := span.source, line := span.start.line, column := span.start.column }) := by
  intro place target pair yields t t' block u d
  have ht : t.desugar = .ok t' := by decide +kernel
  have hu : u.desugar = .error (.refused d) := by decide +kernel
  exact ⟨ht, (desugar_locations t).1 t' ht, hu, rfl, (desugar_locations u).2 d hu⟩

end TemplateBlocks
