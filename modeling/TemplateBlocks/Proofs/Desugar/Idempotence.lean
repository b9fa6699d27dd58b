import TemplateBlocks.Proofs.Desugar.PlainForm

/-!
# Idempotence

Desugaring leaves a desugared template as it is. The plain form of a node is a settled node with
plain parts (`plainForm_eq`). Plain parts stay by induction; what is left is that a settled node is
still settled once its parts have been replaced by their plain forms (`settled_walked`), and that
its parts then stand in the same scope.
-/

namespace TemplateBlocks

open Desugar

/-! ### Tags -/

/-- Desugaring keeps tags. -/
theorem tag_plainForm {scope : Scope} {e e' : Element} (h : plainForm scope .element e = .ok e') :
    e'.tag = e.tag := by
  rw [plainForm_eq] at h
  obtain ⟨y, hy, h⟩ := bind_eq_ok.1 h
  obtain ⟨as, ms, cs, -, -, -, rfl⟩ := walk_element_eq_ok.1 h
  exact settleSource_induction (P := fun a => a.tag = e.tag) rfl
    (fun a b ha hab => (Element.tag_of_becomes hab).trans ha) hy

theorem plainForm_eq_element {scope : Scope} {s : Statement} {e' : Element} :
    plainForm scope .statement s = .ok (.element e') ↔
      ∃ e, s = .element e ∧ plainForm scope .element e = .ok e' := by
  rw [plainForm_eq]
  change walkStatement (plainForm scope) s = _ ↔ _
  cases s <;> simp [walkStatement, bind_eq_ok]

/-- The elements of a desugared body have the tags of elements of the body. -/
theorem exists_tag_of_mem_plainForm {scope : Scope} {ss ss' : List Statement} {c' : Element}
    (h : plainForm scope .statements ss = .ok ss') (hc : .element c' ∈ ss') :
    ∃ c, .element c ∈ ss ∧ c'.tag = c.tag := by
  have hmem : (⟨.statement, .element c'⟩ : Node) ∈ parts .statements ss' :=
    List.mem_map.2 ⟨_, hc, rfl⟩
  rw [plainForm_statements] at h
  obtain ⟨s, hs, hplain⟩ := visited_of_mem_parts (k := .statements) h hmem
  obtain ⟨c, rfl, hc'⟩ := plainForm_eq_element.1 hplain
  exact ⟨c, by simpa [parts] using hs, tag_plainForm hc'⟩

/-! ### Elements -/

theorem Element.blockName?_congr {e e' : Element} (h : e'.tag = e.tag) :
    e'.blockName? = e.blockName? := by
  unfold Element.blockName?
  rw [h]

/-- No element is replaced by itself: a fanned-out invocation declares nothing any more, and an
unwrapped one has lost the declaration around its children. -/
theorem Element.isPlain_of_settled {scope : Scope} {e : Element}
    (h : Settled (fun e : Element => e.enter scope .standard) e) : e.IsPlain scope := by
  rcases h with hstays | hself
  · exact Element.enter_eq_none.1 hstays
  exfalso
  obtain ⟨-, -, -, blocks, hblocks, hne, hfan⟩ := Element.becomes_iff.1 hself
  have hsub := Element.sublist_of_namedBlocks hblocks
  rcases Element.eq_of_fanOut hfan with ⟨only, rfl, -, heq⟩ | ⟨-, first, rest, rfl, heq⟩
  · -- the children would hold the only block, which holds the children
    have hchildren : e.children = only.children := (congrArg Element.children heq :)
    have hsum := Statement.weights_le_of_sublist hsub
    have honly := only.weights_children_le
    simp only [hchildren, List.map_cons, List.map_nil, Statement.weights, Statement.weight] at hsum
    omega
  · -- the only child would be a block call and a declaration at once
    have hchildren : e.children = [.block (dispatchChain first rest)] :=
      (congrArg Element.children heq :)
    rw [hchildren] at hsub
    have hfirst := hsub.subset (List.mem_cons_self ..)
    simp at hfirst

/-- A declaration of the source does not settle. -/
theorem Element.blockName?_of_settled {scope : Scope} {e y : Element} (hsource : e.origin = .source)
    (hopen : e.selfClosing = false) (h : settled scope .element e = .ok y) :
    e.blockName? = none := by
  rw [settled_element, hsource] at h
  obtain ⟨hsettled, hpath⟩ := settle_eq_ok (refusing_eq_ok.1 h)
  rcases hpath.cases_head with rfl | ⟨z, hz, -⟩
  · rcases isPlain_of_settled hsettled with ⟨hclosed, -⟩ | ⟨-, hnone, -⟩
    · rw [hopen] at hclosed
      cases hclosed
    · exact hnone
  · exact (becomes_iff.1 hz).2.1

/-- An element with nothing to desugar has nothing to desugar in its plain form. -/
theorem Element.isPlain_walked {scope scope' : Scope} {e e' : Element} (h : e.IsPlain scope)
    (hw : walk (plainForm scope') .element e = .ok e') : e'.IsPlain scope := by
  obtain ⟨as, ms, cs, -, -, hcs, rfl⟩ := walk_element_eq_ok.1 hw
  rcases h with ⟨hclosing, hparams, hchildren⟩ | ⟨hclosing, hname, hchildren, hcomp⟩
  · left
    refine ⟨hclosing, hparams, ?_⟩
    rw [hchildren, plainForm_statements] at hcs
    simpa [eq_comm] using hcs
  · right
    refine ⟨hclosing, hname, ?_, hcomp⟩
    intro c hc
    obtain ⟨c', hc', htag⟩ := exists_tag_of_mem_plainForm hcs hc
    rw [Element.blockName?_congr htag]
    exact hchildren c' hc'

/-! ### Mustaches -/

theorem plainForm_eq_path (scope : Scope) {e : Expr} {p : Path} :
    plainForm scope .expression e = .ok (.path p) ↔ e = .path p := by
  cases e <;> simp [map_eq_ok]

/-- A hash of string literals has nothing to desugar. -/
theorem plainForm_hash_string {scope : Scope} (key : String) (l : Literal String)
    (loc loc' : Span) :
    plainForm scope .hash { pairs := [⟨key, .string l, loc⟩], loc := loc' } =
      .ok { pairs := [⟨key, .string l, loc⟩], loc := loc' } := by
  simp [plainForm_hash, walkPair]

/-- A yield that is replaced by itself is a yield to the inverse block, which has no part to
desugar. -/
theorem Mustache.walked_of_becomes_self {scope scope' : Scope} {m : Mustache} {p : Path}
    (hp : m.path = .path p) (hy : p.text = Names.yieldKeyword)
    (h : Becomes (fun m : Mustache => m.enter scope .standard) m m) :
    walk (plainForm scope') .mustache m = .ok m := by
  obtain ⟨p', hp', h⟩ := Mustache.becomes_iff.1 h
  obtain rfl : p' = p := by simpa using hp'.symm.trans hp
  obtain ⟨-, -, target, loc, hpairs, hparams, heq⟩ | ⟨hny, -⟩ := h
  · have hinverse : IsInverseName target.value := by
      -- any other target would be gone
      by_contra hi
      have hhash : m.hash = {} := by
        rw [heq]
        simp [Mustache.yieldTo, Mustache.yieldHash, hi]
      simp [hhash] at hpairs
    have hhash : m.hash = m.yieldHash target := (congrArg Mustache.hash heq :)
    have hkept : plainForm scope' .hash m.hash = .ok m.hash := by
      rw [hhash, Mustache.yieldHash, if_pos hinverse]
      exact plainForm_hash_string ..
    refine walk_mustache_eq_ok.2 ⟨m.path, m.params, m.hash, ?_, ?_, hkept, rfl⟩
    · rw [hp, plainForm_path]
    · rw [hparams hinverse]
      rfl
  · exact absurd hy hny

/-- A mustache that stays is not a query. -/
theorem Mustache.ofPath?_of_settled {scope : Scope} {m : Mustache} {p : Path}
    (hp : m.path = .path p) (hy : p.text ≠ Names.yieldKeyword)
    (h : Settled (fun m : Mustache => m.enter scope .standard) m) :
    BlockQuery.ofPath? p.text = none := by
  rcases h with h | h
  · rw [Mustache.outcome_enter, hp] at h
    cases hq : BlockQuery.ofPath? p.text with
    | none => rfl
    | some query => simp [hy, hq, map_eq_ok] at h
  · obtain ⟨p', hp', h⟩ := Mustache.becomes_iff.1 h
    obtain rfl : p' = p := by simpa using hp'.symm.trans hp
    obtain ⟨hyield, -⟩ | ⟨-, query, block, -, -, heq⟩ := h
    · exact absurd hyield hy
    · -- the helper of a query is no query
      have hpath : m.path = .path (.ofText query.helper p'.loc) := (congrArg Mustache.path heq :)
      have hself : p' = .ofText query.helper p'.loc := by simpa using hp.symm.trans hpath
      rw [hself, Path.ofText_text]
      exact ofPath?_helper query

/-- A mustache that stays, stays in its plain form. -/
theorem Mustache.settled_walked {scope scope' : Scope} {m m' : Mustache}
    (h : Settled (fun m : Mustache => m.enter scope .standard) m)
    (hw : walk (plainForm scope') .mustache m = .ok m') :
    Settled (fun m : Mustache => m.enter scope .standard) m' := by
  obtain ⟨path, params, hash, hpath, hparams, hhash, hm'⟩ := walk_mustache_eq_ok.1 hw
  have hkeep (p : Path) : m.path = .path p ↔ path = .path p := by
    rw [← plainForm_eq_path scope', hpath]
    simp
  have hpath' : m'.path = path := by rw [← hm']
  by_cases hp : ∃ p, m.path = .path p
  · obtain ⟨p, hp⟩ := hp
    have hp' : m'.path = .path p := hpath'.trans ((hkeep p).1 hp)
    by_cases hy : p.text = Names.yieldKeyword
    · rcases h with h | h
      · -- a yield without a target still has none
        left
        rw [Mustache.outcome_enter, hp] at h
        rw [Mustache.outcome_enter, hp']
        simp only [hy, if_true, Mustache.desugarYield_eq_ok, reduceCtorEq, and_false, exists_false,
          or_false, and_true] at h ⊢
        obtain ⟨⟨q, hq, hsimple⟩, hpairs⟩ := h
        refine ⟨⟨q, hp'.trans (hp.symm.trans hq), hsimple⟩, ?_⟩
        rw [← hm']
        rw [plainForm_hash, hpairs] at hhash
        cases hhash
        rfl
      · rw [Mustache.walked_of_becomes_self hp hy h] at hw
        cases hw
        exact .inr h
    · left
      rw [Mustache.outcome_enter, hp']
      simp [hy, Mustache.ofPath?_of_settled hp hy h]
  · -- only paths are keywords, and no other expression becomes a path
    left
    rw [Mustache.outcome_enter, hpath']
    cases path with
    | path q => exact absurd ⟨q, (hkeep q).2 rfl⟩ hp
    | _ => rfl

/-! ### All nodes -/

/-- **A settled node is settled in its plain form**, and its parts stand in the same scope. -/
theorem settled_walked {scope scope' : Scope} {k : Kind} {x y z : k.Node}
    (hs : settled scope k x = .ok y) (hw : walk (plainForm scope') k y = .ok z) :
    settled scope k z = .ok z ∧ innerScope scope k z = innerScope scope k y := by
  match k, x, y, z, hs, hw with
  | .template, t, t', t'', hs, hw =>
    obtain ⟨u, hroot, hs⟩ := bind_eq_ok.1 hs
    cases hs
    obtain ⟨body, -, hw⟩ := bind_eq_ok.1 hw
    cases hw
    refine ⟨?_, rfl⟩
    rw [settled_template]
    exact bind_eq_ok.2 ⟨u, hroot, rfl⟩
  | .element, e, e', e'', hs, hw =>
    have hinner : innerScope scope .element e'' = innerScope scope .element e' := by
      obtain ⟨as, ms, cs, -, -, -, rfl⟩ := walk_element_eq_ok.1 hw
      rfl
    refine ⟨?_, hinner⟩
    rw [settled_element] at hs ⊢
    cases ho : e.origin with
    | synthetic =>
      rw [ho] at hs
      cases hs
      obtain ⟨as, ms, cs, -, -, -, rfl⟩ := walk_element_eq_ok.1 hw
      simp [ho, settleSource]
    | source =>
      rw [ho] at hs
      have hplain := Element.isPlain_of_settled (settled_of_settleSource hs)
      have hstays := Element.enter_eq_none.2 (Element.isPlain_walked hplain hw)
      exact settleSource_of_settled (.inl hstays) _
  | .mustache, m, m', m'', hs, hw =>
    refine ⟨?_, rfl⟩
    rw [settled_mustache] at hs ⊢
    cases ho : m.origin with
    | synthetic =>
      rw [ho] at hs
      cases hs
      obtain ⟨path, params, hash, -, -, -, rfl⟩ := walk_mustache_eq_ok.1 hw
      simp [ho, settleSource]
    | source =>
      rw [ho] at hs
      exact settleSource_of_settled (Mustache.settled_walked (settled_of_settleSource hs) hw) _
  | .subExpression, c, c', c'', hs, hw =>
    refine ⟨?_, rfl⟩
    rw [settled_subExpression] at hs ⊢
    obtain ⟨params, hash, -, -, rfl⟩ := walk_subExpression_eq_ok.1 hw
    cases ho : c.origin with
    | synthetic =>
      rw [ho] at hs
      cases hs
      simp [ho, settleSource]
    | source =>
      rw [ho] at hs
      have hquery := SubExpr.settled_iff.1 (settled_of_settleSource hs)
      have hsettled : Settled (fun c : SubExpr => c.enter scope .standard)
          { c' with params := params, hash := hash } := SubExpr.settled_iff.2 hquery
      exact settleSource_of_settled hsettled _
  | .block, _, b, b', hs, hw =>
    obtain ⟨body, -, hw⟩ := bind_eq_ok.1 hw
    cases hw
    exact ⟨rfl, rfl⟩
  | .statements, _, _, _, _, _ | .statement, _, _, _, _, _ | .blockStatement, _, _, _, _, _
  | .attribute, _, _, _, _, _ | .modifier, _, _, _, _, _ | .expression, _, _, _, _, _
  | .hash, _, _, _, _, _ => exact ⟨rfl, rfl⟩

/-- **Plain forms stay as they are**, in the scope that they were made in. -/
theorem plainForm_plainForm {scope : Scope} {k : Kind} {x z : k.Node}
    (h : plainForm scope k x = .ok z) : plainForm scope k z = .ok z := by
  -- induction on the weight, since a settled node is no part of what it was settled from
  induction hn : weight k x using Nat.strong_induction_on generalizing scope k x z with
  | _ n ih =>
    rw [plainForm_eq] at h
    obtain ⟨y, hs, hw⟩ := bind_eq_ok.1 h
    obtain ⟨hsettled, hinner⟩ := settled_walked hs hw
    have hparts : ∀ q ∈ parts k z, plainForm (innerScope scope k y) q.1 q.2 = .ok q.2 := by
      intro q hq
      obtain ⟨x', hx', hplain⟩ := visited_of_mem_parts hw hq
      refine ih _ ?_ hplain rfl
      have := weight_lt_of_settled hs hx'
      simp only at *
      omega
    rw [plainForm_eq, hsettled, ok_bind, hinner]
    exact walk_eq_self k z hparts

/-- **Desugaring a desugared template changes nothing.** -/
theorem desugar_idempotent {t t' : Template} (h : t.desugar = .ok t') : t'.desugar = .ok t' := by
  rw [desugar_eq_plainForm] at h ⊢
  exact plainForm_plainForm h

/-- An invocation whose header yields on, beside a yield that is not to be changed. -/
theorem desugar_idempotent_card :
    let path := Expr.path (.ofText "yield" {})
    let target : Literal String := { value := "footer" }
    let sugared : Mustache :=
      { path, hash := { pairs := [{ key := "to", value := .string target }] } }
    let kept : Mustache := { sugared with origin := .synthetic }
    let header (m : Mustache) : Element :=
      { tag := ":header", blockParams := ["title"], children := [.mustache m] }
    let t : Template := {
      body :=
        [.element { tag := "Card", children := [.element (header sugared)] }, .mustache kept] }
    let t' : Template := {
      body := [.element (Element.fanned { tag := "Card" } (header (sugared.yieldTo target)) []),
        .mustache kept] }
    t.desugar = .ok t' ∧ t'.desugar = .ok t' := by
  intro path target sugared kept header t t'
  have h : t.desugar = .ok t' := by decide +kernel
  exact ⟨h, desugar_idempotent h⟩

end TemplateBlocks
