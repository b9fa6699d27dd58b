import TemplateBlocks.Proofs.Desugar.Freshness
import TemplateBlocks.Proofs.Traversal.Preorder

/-!
# What is asked of a scope

Attributes, modifiers and expressions hold no elements, so desugaring asks about one thing in them
only: whether the first segment of a yield or a query is bound by a block param. Synthetic nodes do
not ask. `asked k x` lists the names that are asked about in a node.

* `plainForm_eq_of_asked`: the answers to these questions decide on the plain form, or on the error;
* `not_isLocal_of_plainForm`: there is a plain form only if the answer is always no;
* `plainForm_unlessShadowed`: scopes that answer differently make no other difference than that a
  call is refused as shadowed in one of them.
-/

namespace TemplateBlocks

open Desugar

variable {s t : Scope}

/-! ### Questions -/

/-- The name that a mustache asks about, if it is a yield or a query of the source. -/
def Mustache.question (m : Mustache) : List String :=
  if m.origin = .source then
    m.path.path?.toList.flatMap fun p =>
      if p.text = Names.yieldKeyword ∨ BlockQuery.ofPath? p.text ≠ none then p.head?.toList else []
  else []

/-- The name that a call asks about, if it is a query of the source. -/
def SubExpr.question (c : SubExpr) : List String :=
  if c.origin = .source ∧ BlockQuery.ofPath? c.path.text ≠ none then c.path.head?.toList else []

/-- The name that a node asks about. -/
def question : (k : Kind) → k.Node → List String
  | .mustache, m => m.question
  | .subExpression, c => c.question
  | _, _ => []

/-- The names that are asked about in a node. -/
def asked (k : Kind) (x : k.Node) : List String := gathered question k x

/-- The names that are asked about in the parts of a node. -/
def askedInside (k : Kind) (x : k.Node) : List String :=
  (parts k x).flatMap fun p => asked p.1 p.2

/-- The names that are asked about in the arguments of a call. -/
def askedArguments (params : List Expr) (hash : Hash) : List String :=
  params.flatMap (fun e => asked .expression e) ++
    hash.pairs.flatMap fun p => asked .expression p.value

theorem Mustache.mem_question {m : Mustache} {n : String} : n ∈ m.question ↔
    m.origin = .source ∧ ∃ p, m.path = .path p ∧ p.IsLookedUp ∧ p.head? = some n := by
  unfold Mustache.question Path.IsLookedUp
  cases m.path <;> simp [Expr.path?]

theorem SubExpr.mem_question {c : SubExpr} {n : String} : n ∈ c.question ↔
    c.origin = .source ∧ BlockQuery.ofPath? c.path.text ≠ none ∧ c.path.head? = some n := by
  simp [SubExpr.question, and_assoc]

theorem asked_eq (k : Kind) (x : k.Node) : asked k x = question k x ++ askedInside k x :=
  gathered_eq question k x

@[simp] theorem asked_path (p : Path) : asked .expression (.path p) = [] := by
  rw [asked_eq]
  rfl

@[simp] theorem asked_string (l : Literal String) : asked .expression (.string l) = [] := by
  rw [asked_eq]
  rfl

@[simp] theorem asked_boolean (l : Literal Bool) : asked .expression (.boolean l) = [] := by
  rw [asked_eq]
  rfl

@[simp] theorem asked_sub (c : SubExpr) : asked .expression (.sub c) = asked .subExpression c := by
  rw [asked_eq]
  simp [question, askedInside, parts, Expr.parts]

theorem asked_hash (h : Hash) :
    asked .hash h = h.pairs.flatMap fun p => asked .expression p.value := by
  rw [asked_eq]
  simp [question, askedInside, parts, List.flatMap_map]

theorem askedInside_mustache (m : Mustache) : askedInside .mustache m =
    asked .expression m.path ++ askedArguments m.params m.hash := by
  simp [askedInside, parts, argumentParts, askedArguments, List.flatMap_map, asked_hash]

theorem askedInside_subExpression (c : SubExpr) :
    askedInside .subExpression c = askedArguments c.params c.hash := by
  simp [askedInside, parts, argumentParts, askedArguments, List.flatMap_map, asked_hash]

theorem asked_subExpression (c : SubExpr) :
    asked .subExpression c = c.question ++ askedArguments c.params c.hash := by
  rw [asked_eq, askedInside_subExpression]
  rfl

/-! ### Replacements ask nothing new -/

theorem askedArguments_queryParams (p : Path) (loc : Span) (block : String) :
    askedArguments (queryParams p loc block) {} = [] := by
  have hfallback : asked .expression (queryFallback p loc block) = [] := by
    unfold queryFallback
    split
    · simp [asked_subExpression, SubExpr.question, askedArguments]
    split
    · simp [asked_subExpression, SubExpr.question, askedArguments]
    · simp
  simp [askedArguments, queryParams, hfallback]

theorem asked_markerCall (target : Literal String) :
    asked .subExpression (markerCall target) = [] := by
  have hmark : BlockQuery.ofPath? Names.markHelper = none := by decide
  simp [asked_subExpression, SubExpr.question, askedArguments, markerCall, hmark]

/-- The arguments of a query do not ask. -/
theorem IsQuery.askedArguments_eq {p : Path} {params : List Expr} {hash : Hash} {block : String}
    (h : IsQuery p params hash s block) : askedArguments params hash = [] := by
  rcases h.argument with ⟨rfl, -⟩ | ⟨l, rfl, -⟩ <;> simp [askedArguments, h.unnamed]

theorem Mustache.askedArguments_yieldTo {m : Mustache} {target : Literal String} {loc : Span}
    (hpairs : m.hash.pairs = [⟨Names.targetKey, .string target, loc⟩])
    (hinverse : IsInverseName target.value → m.params = []) :
    askedArguments (m.yieldParams target) (m.yieldHash target) =
      askedArguments m.params m.hash := by
  have hhash : ((m.yieldHash target).pairs.flatMap fun p => asked .expression p.value) = [] := by
    unfold Mustache.yieldHash
    split <;> simp
  have hparams : ((m.yieldParams target).flatMap fun e => asked .expression e) =
      m.params.flatMap fun e => asked .expression e := by
    unfold Mustache.yieldParams
    split
    · rfl
    split
    next hi => rw [hinverse hi]
    next => simp [asked_markerCall]
  rw [askedArguments, hhash, hparams]
  simp [askedArguments, hpairs]

/-- What takes the place of a mustache asks about no other name, and its parts ask the same. -/
theorem Mustache.question_of_becomes {m m' : Mustache} (hm : m.origin = .source)
    (h : Becomes (fun m : Mustache => m.enter s .standard) m m') :
    m'.origin = .source ∧ m'.question ⊆ m.question ∧
      askedInside .mustache m' = askedInside .mustache m := by
  obtain ⟨p, hp, ⟨-, -, target, loc, hpairs, hinverse, rfl⟩ | ⟨-, query, block, -, hasks, rfl⟩⟩ :=
    Mustache.becomes_iff.1 h
  · refine ⟨rfl, ?_, ?_⟩
    · intro n hn
      obtain ⟨-, hn⟩ := mem_question.1 hn
      exact mem_question.2 ⟨hm, hn⟩
    · rw [askedInside_mustache, askedInside_mustache, ← askedArguments_yieldTo hpairs hinverse]
      rfl
  · refine ⟨rfl, ?_, ?_⟩
    · intro n hn
      obtain ⟨-, q, ⟨⟩, hlook, -⟩ := mem_question.1 hn
      exact absurd hlook (not_isLookedUp_helper query p.loc)
    · rw [askedInside_mustache, askedInside_mustache, hp, hasks.askedArguments_eq, answered,
        askedArguments_queryParams, asked_path, asked_path]

theorem SubExpr.question_of_becomes {c c' : SubExpr}
    (h : Becomes (fun c : SubExpr => c.enter s .standard) c c') :
    c'.question ⊆ c.question ∧ askedInside .subExpression c' = askedInside .subExpression c := by
  obtain ⟨query, block, -, hasks, rfl⟩ := SubExpr.becomes_iff.1 h
  refine ⟨?_, ?_⟩
  · intro n hn
    obtain ⟨-, hquery, -⟩ := mem_question.1 hn
    rw [answered, Path.ofText_text] at hquery
    exact absurd (ofPath?_helper query) hquery
  · rw [askedInside_subExpression, askedInside_subExpression, hasks.askedArguments_eq, answered,
      askedArguments_queryParams]

/-- **Settling asks nothing new**, and keeps all that the parts of a node ask. -/
theorem question_settled {k : Kind} {x y : k.Node} (hk : k.isInline)
    (h : settled s k x = .ok y) :
    question k y ⊆ question k x ∧ askedInside k y = askedInside k x := by
  match k, x, y, hk, h with
  | .mustache, m, m', _, h =>
    cases ho : m.origin with
    | synthetic =>
      rw [settled_mustache, ho] at h
      cases h
      exact ⟨List.Subset.refl _, rfl⟩
    | source =>
      refine (settleSource_induction (P := fun a : Mustache => a.origin = .source ∧
        a.question ⊆ m.question ∧ askedInside .mustache a = askedInside .mustache m)
        ⟨ho, List.Subset.refl _, rfl⟩ ?_ h).2
      rintro a b ⟨ha, hquestion, hinside⟩ hab
      obtain ⟨hb, hquestion', hinside'⟩ := Mustache.question_of_becomes ha hab
      exact ⟨hb, List.Subset.trans hquestion' hquestion, hinside'.trans hinside⟩
  | .subExpression, c, c', _, h =>
    refine settleSource_induction (P := fun a : SubExpr =>
      a.question ⊆ c.question ∧ askedInside .subExpression a = askedInside .subExpression c)
      ⟨List.Subset.refl _, rfl⟩ ?_ h
    rintro a b ⟨hquestion, hinside⟩ hab
    obtain ⟨hquestion', hinside'⟩ := SubExpr.question_of_becomes hab
    exact ⟨List.Subset.trans hquestion' hquestion, hinside'.trans hinside⟩
  | .attribute, _, _, _, h | .modifier, _, _, _, h | .expression, _, _, _, h | .hash, _, _, _, h =>
    cases h
    exact ⟨List.Subset.refl _, rfl⟩

theorem innerScope_inline {k : Kind} (hk : k.isInline) (y : k.Node) : innerScope s k y = s := by
  match k, hk with
  | .mustache, _ | .attribute, _ | .modifier, _ | .expression, _ | .subExpression, _ | .hash, _ =>
    rfl

/-! ### The same answers -/

theorem settled_eq_of_question {k : Kind} {x : k.Node} (hk : k.isInline)
    (h : ∀ n ∈ question k x, s.isLocal n false = t.isLocal n false) :
    settled s k x = settled t k x := by
  match k, x, hk, h with
  | .mustache, m, _, h =>
    rw [settled_mustache, settled_mustache]
    cases ho : m.origin with
    | synthetic => rfl
    | source =>
      refine settleSource_congr
        (P := fun a : Mustache => a.origin = .source ∧ a.question ⊆ m.question) ?_ ?_
        ⟨ho, List.Subset.refl _⟩ .source
      · rintro a ⟨ha, hsub⟩
        refine Mustache.enter_congr fun p hp hlook => Path.isSimple_congr fun n hn => ?_
        exact h n (hsub (Mustache.mem_question.2 ⟨ha, p, hp, hlook, hn⟩))
      · rintro a b ⟨ha, hsub⟩ hab
        obtain ⟨hb, hsub', -⟩ := Mustache.question_of_becomes ha hab
        exact ⟨hb, List.Subset.trans hsub' hsub⟩
  | .subExpression, c, _, h =>
    rw [settled_subExpression, settled_subExpression]
    cases ho : c.origin with
    | synthetic => rfl
    | source =>
      refine settleSource_congr
        (P := fun a : SubExpr => a.origin = .source ∧ a.question ⊆ c.question) ?_ ?_
        ⟨ho, List.Subset.refl _⟩ .source
      · rintro a ⟨ha, hsub⟩
        refine SubExpr.enter_congr fun hquery => Path.isSimple_congr fun n hn => ?_
        exact h n (hsub (SubExpr.mem_question.2 ⟨ha, hquery, hn⟩))
      · rintro a b ⟨-, hsub⟩ hab
        obtain ⟨hsub', -⟩ := SubExpr.question_of_becomes hab
        exact ⟨SubExpr.origin_of_becomes hab, List.Subset.trans hsub' hsub⟩
  | .attribute, _, _, _ | .modifier, _, _, _ | .expression, _, _, _ | .hash, _, _, _ => rfl

/-- **The answers decide on the plain form.** -/
theorem plainForm_eq_of_asked {k : Kind} {x : k.Node} (hk : k.isInline)
    (h : ∀ n ∈ asked k x, s.isLocal n false = t.isLocal n false) :
    plainForm s k x = plainForm t k x := by
  induction hn : weight k x using Nat.strong_induction_on generalizing k x with
  | _ n ih =>
    rw [asked_eq, List.forall_mem_append] at h
    rw [plainForm_eq, plainForm_eq, settled_eq_of_question hk h.1]
    cases hs : settled t k x with
    | error e => rfl
    | ok y =>
      rw [ok_bind, ok_bind, innerScope_inline hk, innerScope_inline hk]
      apply walk_congr
      intro p hp
      have hlt := weight_lt_of_settled hs hp
      refine ih _ (by omega) (isInline_of_mem_parts hk hp) ?_ rfl
      intro n hn
      apply h.2
      rw [← (question_settled hk hs).2]
      exact List.mem_flatMap.2 ⟨p, hp, hn⟩

/-! ### Answers that are no -/

theorem Path.isSimple_of_isLocal {p : Path} {n : String} (hn : p.head? = some n)
    (h : s.isLocal n false = true) : p.isSimple s = .ok false := by
  simp [Path.isSimple, hn, h]

theorem Path.not_isLocal_of_isSimple {p : Path} {n : String} (h : p.isSimple s = .ok true)
    (hn : p.head? = some n) : s.isLocal n false = false := by
  cases hlocal : s.isLocal n false with
  | false => rfl
  | true => simp [Path.isSimple_of_isLocal hn hlocal] at h

theorem exists_enter_of_settleSource {α : Type} [DecidableEq α] {kind : String}
    {enter : α → BuildM Unit (Option α)} {x y : α}
    (h : settleSource kind enter x .source = .ok y) : ∃ r, outcome (enter x) = .ok r := by
  obtain ⟨hsettled, hpath⟩ := settle_eq_ok (refusing_eq_ok.1 h)
  rcases hpath.cases_head with rfl | ⟨z, hz, -⟩
  · rcases hsettled with hnone | hsame
    · exact ⟨none, hnone⟩
    · exact ⟨some x, hsame⟩
  · exact ⟨some z, hz⟩

theorem Mustache.isSimple_of_enter {m : Mustache} {p : Path} {r : Option Mustache}
    (hp : m.path = .path p) (hlook : p.IsLookedUp)
    (h : outcome (m.enter s .standard) = .ok r) : p.isSimple s = .ok true := by
  rw [Mustache.outcome_enter, hp] at h
  by_cases hy : p.text = Names.yieldKeyword
  · simp only [hy, if_true] at h
    obtain ⟨⟨q, hq, hsimple⟩, -⟩ := Mustache.desugarYield_eq_ok.1 h
    obtain rfl : p = q := by simpa [hp] using hq
    exact hsimple
  · obtain ⟨query, hquery⟩ := Option.ne_none_iff_exists'.1 (hlook.resolve_left hy)
    simp only [hy, if_false, hquery] at h
    obtain ⟨m', hm', -⟩ := map_eq_ok.1 h
    obtain ⟨q, block, hq, hasks, -⟩ := Mustache.desugarQuery_eq_ok.1 hm'
    obtain rfl : p = q := by simpa [hp] using hq
    exact hasks.simple

theorem SubExpr.isSimple_of_enter {c : SubExpr} {r : Option SubExpr}
    (hquery : BlockQuery.ofPath? c.path.text ≠ none)
    (h : outcome (c.enter s .standard) = .ok r) : c.path.isSimple s = .ok true := by
  obtain ⟨query, hquery⟩ := Option.ne_none_iff_exists'.1 hquery
  simp only [SubExpr.outcome_enter, hquery] at h
  obtain ⟨c', hc', -⟩ := map_eq_ok.1 h
  obtain ⟨block, hasks, -⟩ := SubExpr.desugarQuery_eq_ok.1 hc'
  exact hasks.simple

theorem not_isLocal_of_settled {k : Kind} {x y : k.Node} (hk : k.isInline)
    (h : settled s k x = .ok y) {n : String} (hn : n ∈ question k x) :
    s.isLocal n false = false := by
  match k, x, hk, hn with
  | .mustache, m, _, hn =>
    obtain ⟨ho, p, hp, hlook, hhead⟩ := Mustache.mem_question.1 hn
    rw [settled_mustache, ho] at h
    obtain ⟨r, hr⟩ := exists_enter_of_settleSource h
    exact Path.not_isLocal_of_isSimple (Mustache.isSimple_of_enter hp hlook hr) hhead
  | .subExpression, c, _, hn =>
    obtain ⟨ho, hquery, hhead⟩ := SubExpr.mem_question.1 hn
    rw [settled_subExpression, ho] at h
    obtain ⟨r, hr⟩ := exists_enter_of_settleSource h
    exact Path.not_isLocal_of_isSimple (SubExpr.isSimple_of_enter hquery hr) hhead
  | .attribute, _, _, hn | .modifier, _, _, hn | .expression, _, _, hn | .hash, _, _, hn =>
    exact absurd hn List.not_mem_nil

/-- **Nothing that is asked about is bound** where there is a plain form. -/
theorem not_isLocal_of_plainForm {k : Kind} {x z : k.Node} (hk : k.isInline)
    (h : plainForm s k x = .ok z) {n : String} (hn : n ∈ asked k x) :
    s.isLocal n false = false := by
  induction hw : weight k x using Nat.strong_induction_on generalizing k x z with
  | _ w ih =>
    rw [plainForm_eq] at h
    obtain ⟨y, hs, hwalk⟩ := bind_eq_ok.1 h
    rw [innerScope_inline hk] at hwalk
    rw [asked_eq, ← (question_settled hk hs).2] at hn
    rcases List.mem_append.1 hn with hn | hn
    · exact not_isLocal_of_settled hk hs hn
    · obtain ⟨⟨k', p⟩, hp, hn⟩ := List.mem_flatMap.1 hn
      have hlt : weight k' p < weight k x := weight_lt_of_settled hs hp
      obtain ⟨z', -, hz'⟩ := exists_of_mem_parts hwalk hp
      exact ih (weight k' p) (by omega) (isInline_of_mem_parts hk hp) hz' hn rfl

/-! ### Other answers -/

/-- Actions that agree unless one of them fails in a certain way. -/
def agreeUnless {ε : Type} (Q : ε → Prop) : ActionRel (Except ε) (Except ε) where
  rel x y := x = y ∨ (∃ e, Q e ∧ x = .error e) ∨ ∃ e, Q e ∧ y = .error e
  pure _ := .inl rfl
  bind {α β x y f g} h hf := by
    rcases h with rfl | ⟨e, he, rfl⟩ | ⟨e, he, rfl⟩
    · cases x with
      | error e => exact .inl rfl
      | ok a => exact hf a
    · exact .inr (.inl ⟨e, he, rfl⟩)
    · exact .inr (.inr ⟨e, he, rfl⟩)

/-- A report that a yield or a query is shadowed, or is called by a longer path. -/
def IsShadowing (d : Diagnostic) : Prop := ∃ call loc, d = (Misuse.notSimplePath call).report loc

/-- The template is refused for a shadowed yield or query. -/
def IsShadowed (halt : Halt) : Prop := ∃ d, IsShadowing d ∧ halt = .refused d

theorem Path.isSimple_or (p : Path) (s t : Scope) :
    p.isSimple s = p.isSimple t ∨ p.isSimple s = .ok false ∨ p.isSimple t = .ok false := by
  by_cases h : ∀ n, p.head? = some n → s.isLocal n false = t.isLocal n false
  · exact .inl (Path.isSimple_congr h)
  · push Not at h
    obtain ⟨n, hn, hne⟩ := h
    cases hs : s.isLocal n false with
    | true => exact .inr (.inl (Path.isSimple_of_isLocal hn hs))
    | false =>
      have ht : t.isLocal n false = true := by simpa [hs] using hne
      exact .inr (.inr (Path.isSimple_of_isLocal hn ht))

/-- The check that yields and queries begin with, in two scopes. -/
theorem simple_unlessShadowed {α : Type} (p : Path) (call : String) (span : Span)
    (rest : Except Diagnostic α) (s t : Scope) :
    (agreeUnless IsShadowing).rel
      (do
        let simple ← p.isSimple s
        obey simple (.notSimplePath call) span
        rest)
      (do
        let simple ← p.isSimple t
        obey simple (.notSimplePath call) span
        rest) := by
  rcases p.isSimple_or s t with h | h | h
  · exact .inl (by rw [h])
  · exact .inr (.inl ⟨_, ⟨call, span, rfl⟩, by rw [h]; rfl⟩)
  · exact .inr (.inr ⟨_, ⟨call, span, rfl⟩, by rw [h]; rfl⟩)

theorem QueryCall.resolve_unlessShadowed (call : QueryCall) (s t : Scope) :
    (agreeUnless IsShadowing).rel (outcome (call.resolve s .standard))
      (outcome (call.resolve t .standard)) := by
  simp only [QueryCall.resolve, outcome_bind, outcome_check]
  exact simple_unlessShadowed ..

theorem Mustache.enter_unlessShadowed (m : Mustache) (s t : Scope) :
    (agreeUnless IsShadowing).rel (outcome (m.enter s .standard))
      (outcome (m.enter t .standard)) := by
  unfold Mustache.enter
  cases hpath : m.path with
  | path p =>
    by_cases hy : p.text = Names.yieldKeyword
    · simp only [hy, if_true, Mustache.desugarYield, hpath, outcome_bind, outcome_check]
      exact simple_unlessShadowed ..
    · simp only [hy, if_false]
      cases BlockQuery.ofPath? p.text with
      | none => exact .inl rfl
      | some query =>
        simp only [Mustache.desugarQuery, hpath, outcome_bind]
        refine ActionRel.bind _ (ActionRel.bind _ ?_ fun _ => .inl rfl) fun _ => .inl rfl
        exact QueryCall.resolve_unlessShadowed ..
  | _ => exact .inl rfl

theorem SubExpr.enter_unlessShadowed (c : SubExpr) (s t : Scope) :
    (agreeUnless IsShadowing).rel (outcome (c.enter s .standard))
      (outcome (c.enter t .standard)) := by
  unfold SubExpr.enter
  cases BlockQuery.ofPath? c.path.text with
  | none => exact .inl rfl
  | some query =>
    simp only [SubExpr.desugarQuery, outcome_bind]
    refine ActionRel.bind _ (ActionRel.bind _ ?_ fun _ => .inl rfl) fun _ => .inl rfl
    exact QueryCall.resolve_unlessShadowed ..

theorem settle_unlessShadowed {α : Type} [DecidableEq α] {kind : String}
    {enter enter' : α → BuildM Unit (Option α)}
    (h : ∀ a, (agreeUnless IsShadowing).rel (outcome (enter a)) (outcome (enter' a)))
    (rounds : Nat) (x : α) :
    (agreeUnless IsShadowing).rel (outcome (settle kind enter rounds x))
      (outcome (settle kind enter' rounds x)) := by
  induction rounds generalizing x with
  | zero => exact .inl rfl
  | succ rounds ih =>
    rw [settle, settle, outcome_bind, outcome_bind]
    refine ActionRel.bind _ (h x) fun next => ?_
    cases next with
    | none => exact .inl rfl
    | some y =>
      by_cases hy : y = x
      · simp only [hy, if_true]
        exact .inl rfl
      · simp only [hy, if_false]
        exact ih y

theorem settleSource_unlessShadowed {α : Type} [DecidableEq α] {kind : String}
    {enter enter' : α → BuildM Unit (Option α)}
    (h : ∀ a, (agreeUnless IsShadowing).rel (outcome (enter a)) (outcome (enter' a)))
    (x : α) (origin : Origin) :
    (agreeUnless IsShadowed).rel (settleSource kind enter x origin)
      (settleSource kind enter' x origin) := by
  cases origin with
  | synthetic => exact .inl rfl
  | source =>
    rcases settle_unlessShadowed h roundLimit x with heq | ⟨d, hd, heq⟩ | ⟨d, hd, heq⟩
    · exact .inl (congrArg refusing heq)
    · exact .inr (.inl ⟨_, ⟨d, hd, rfl⟩, congrArg refusing heq⟩)
    · exact .inr (.inr ⟨_, ⟨d, hd, rfl⟩, congrArg refusing heq⟩)

theorem settled_unlessShadowed {k : Kind} (hk : k.isInline) (x : k.Node) (s t : Scope) :
    (agreeUnless IsShadowed).rel (settled s k x) (settled t k x) := by
  match k, x, hk with
  | .mustache, m, _ =>
    exact settleSource_unlessShadowed (fun a => a.enter_unlessShadowed s t) m m.origin
  | .subExpression, c, _ =>
    exact settleSource_unlessShadowed (fun a => a.enter_unlessShadowed s t) c c.origin
  | .attribute, _, _ | .modifier, _, _ | .expression, _, _ | .hash, _, _ => exact .inl rfl

/-- **Other answers refuse a shadowed call, and do no more**: the plain forms agree unless one of
them is refused so. -/
theorem plainForm_unlessShadowed {k : Kind} (hk : k.isInline) (x : k.Node) (s t : Scope) :
    (agreeUnless IsShadowed).rel (plainForm s k x) (plainForm t k x) := by
  induction hw : weight k x using Nat.strong_induction_on generalizing k x with
  | _ w ih =>
    rw [plainForm_eq, plainForm_eq]
    rcases settled_unlessShadowed hk x s t with heq | ⟨e, he, heq⟩ | ⟨e, he, heq⟩
    · rw [heq]
      cases hs : settled t k x with
      | error e => exact .inl rfl
      | ok y =>
        rw [ok_bind, ok_bind, innerScope_inline hk, innerScope_inline hk]
        refine walk_rel _ k y fun p hp => ?_
        have hlt := weight_lt_of_settled hs hp
        exact ih _ (by omega) (isInline_of_mem_parts hk hp) p.2 rfl
    · exact .inr (.inl ⟨e, he, by rw [heq]; rfl⟩)
    · exact .inr (.inr ⟨e, he, by rw [heq]; rfl⟩)

end TemplateBlocks
