import TemplateBlocks.Proofs.Desugar.Settled
import TemplateBlocks.Proofs.Traversal.Everywhere

/-!
# What replacements carry on

A property of nodes that looks at elements and calls only, and that holds of everything that
desugaring makes (`Carried`), passes from a node and all that stands in it to what takes its place
(`Carried.settled`). So there is one induction over the branches of a fanned-out invocation, and
each property has to be checked on the few calls that are made.
-/

namespace TemplateBlocks

open Desugar

/-- The kinds of nodes that only hold others together. -/
def Kind.isNeutral : Kind → Bool
  | .block | .statements | .statement | .attribute | .expression | .hash => true
  | .template | .element | .mustache | .blockStatement | .modifier | .subExpression => false

/-- A query as the host answers it. -/
def plainQuery (path : Path) (params : List Expr) (loc : Span) : SubExpr where
  path := path
  params := params
  hash := {}
  loc := loc
  origin := .synthetic

/-- The property holds of what desugaring makes, given that it holds of what it is made from. -/
structure Carried (P : (k : Kind) → k.Node → Prop) : Prop where
  neutral {k : Kind} (x : k.Node) : k.isNeutral → P k x
  keyword {b : BlockStatement} {name : String} : name ∈ [Names.ifKeyword, Names.letKeyword] →
    b.path = .path (.ofText name .synthetic) → P .blockStatement b
  element {e e' : Element} : e'.tag = e.tag → P .element e → P .element e'
  metadata (m : Metadata) : P .mustache m.hashCall
  test (block : Element) : P .subExpression block.markerTest
  mark {target : Literal String} : target.value ≠ Names.defaultBlock →
    ¬ IsInverseName target.value → P .subExpression (markerCall target)
  yields {m : Mustache} {p : Path} (target : Literal String) : m.path = .path p →
    p.text = Names.yieldKeyword → P .mustache m → P .mustache (m.yieldTo target)
  mustache {m : Mustache} {p : Path} {query : BlockQuery} {block : String} : m.path = .path p →
    BlockQuery.ofPath? p.text = some query → block ≠ Names.elseBlock → P .mustache m →
    P .mustache (m.answered p query block) ∧
      ∀ params, P .subExpression (plainQuery p params m.loc)
  subExpression {c : SubExpr} {query : BlockQuery} {block : String} :
    BlockQuery.ofPath? c.path.text = some query → block ≠ Names.elseBlock → P .subExpression c →
    P .subExpression (c.answered query block) ∧
      ∀ params, P .subExpression (plainQuery c.path params c.loc)

/-- A query never asks about a block by the name `else`. -/
theorem IsQuery.block_ne_else {path : Path} {params : List Expr} {hash : Hash} {scope : Scope}
    {block : String} (h : IsQuery path params hash scope block) : block ≠ Names.elseBlock := by
  rcases h.argument with ⟨-, rfl⟩ | ⟨l, -, rfl⟩
  · decide
  · unfold queriedBlock
    split
    · decide
    · assumption

namespace Carried

variable {P : (k : Kind) → k.Node → Prop} (hP : Carried P)

include hP

/-! ### Neutral nodes -/

theorem parts_iff {k : Kind} {x : k.Node} (hk : k.isNeutral) :
    Everywhere P k x ↔ ∀ p ∈ parts k x, Everywhere P p.1 p.2 := by
  rw [everywhere_iff, and_iff_right (hP.neutral x hk)]

theorem leaf {k : Kind} {x : k.Node} (hk : k.isNeutral) (hparts : parts k x = []) :
    Everywhere P k x :=
  (hP.parts_iff hk).2 (by simp [hparts])

theorem path (p : Path) : Everywhere P .expression (.path p) := hP.leaf rfl rfl

theorem string (l : Literal String) : Everywhere P .expression (.string l) := hP.leaf rfl rfl

theorem hash {h : Hash} : Everywhere P .hash h ↔
    ∀ p ∈ h.pairs, Everywhere P .expression p.value := by
  rw [hP.parts_iff rfl]
  simp [parts]

theorem hash_nil (loc : Span) : Everywhere P .hash { pairs := [], loc } := hP.hash.2 (by simp)

theorem sub {c : SubExpr} : Everywhere P .expression (.sub c) ↔ Everywhere P .subExpression c := by
  rw [hP.parts_iff rfl]
  simp [parts, Expr.parts]

theorem block {b : Block} : Everywhere P .block b ↔ Everywhere P .statements b.body := by
  rw [hP.parts_iff rfl]
  simp [parts]

theorem statements {ss : List Statement} : Everywhere P .statements ss ↔
    ∀ s ∈ ss, Everywhere P .statement s := by
  rw [hP.parts_iff rfl]
  simp [parts]

theorem statement {s : Statement} : Everywhere P .statement s ↔
    ∀ p ∈ s.parts, Everywhere P p.1 p.2 :=
  hP.parts_iff (k := .statement) rfl

/-- A body of one block call. -/
theorem singleton {b : BlockStatement} : Everywhere P .statements [.block b] ↔
    Everywhere P .blockStatement b := by
  simp [hP.statements, hP.statement, Statement.parts]

/-! ### Calls -/

theorem plainQuery {path : Path} {params : List Expr} {loc : Span}
    (hquery : P .subExpression (plainQuery path params loc))
    (hparams : ∀ e ∈ params, Everywhere P .expression e) :
    Everywhere P .expression (.sub (TemplateBlocks.plainQuery path params loc)) :=
  hP.sub.2 (everywhere_subExpression.2 ⟨hquery, hparams, hP.hash_nil _⟩)

theorem queryParams {path : Path} {loc : Span} (block : String)
    (hquery : ∀ params, P .subExpression (TemplateBlocks.plainQuery path params loc)) :
    ∀ e ∈ queryParams path loc block, Everywhere P .expression e := by
  have hfallback : Everywhere P .expression (queryFallback path loc block) := by
    unfold queryFallback
    split
    · exact hP.plainQuery (hquery []) (by simp)
    split
    · exact hP.plainQuery (hquery _) (by simpa using hP.string _)
    · exact hP.leaf rfl rfl
  simp only [TemplateBlocks.queryParams, List.mem_cons, List.not_mem_nil, or_false,
    forall_eq_or_imp, forall_eq]
  exact ⟨hP.path _, hP.string _, hfallback⟩

theorem subExpression_of_becomes {scope : Scope} {c c' : SubExpr}
    (h : Becomes (fun c : SubExpr => c.enter scope .standard) c c')
    (hc : Everywhere P .subExpression c) : Everywhere P .subExpression c' := by
  obtain ⟨query, block, hquery, hasks, rfl⟩ := SubExpr.becomes_iff.1 h
  obtain ⟨hself, hplain⟩ := hP.subExpression hquery hasks.block_ne_else (everywhere_iff.1 hc).1
  exact everywhere_subExpression.2 ⟨hself, hP.queryParams block hplain, hP.hash_nil _⟩

theorem yieldParams {m : Mustache} (target : Literal String)
    (hparams : ∀ e ∈ m.params, Everywhere P .expression e) :
    ∀ e ∈ m.yieldParams target, Everywhere P .expression e := by
  intro e he
  unfold Mustache.yieldParams at he
  split at he
  · exact hparams e he
  split at he
  · simp at he
  · rcases List.mem_cons.1 he with rfl | he
    · refine hP.sub.2 (everywhere_subExpression.2 ⟨hP.mark ‹_› ‹_›, ?_, hP.hash_nil _⟩)
      simpa [markerCall] using hP.string target
    · exact hparams e he

theorem yieldHash (m : Mustache) (target : Literal String) :
    Everywhere P .hash (m.yieldHash target) := by
  unfold Mustache.yieldHash
  split
  · exact hP.hash.2 (by simpa using hP.string _)
  · exact hP.hash_nil _

theorem mustache_of_becomes {scope : Scope} {m m' : Mustache}
    (h : Becomes (fun m : Mustache => m.enter scope .standard) m m')
    (hm : Everywhere P .mustache m) : Everywhere P .mustache m' := by
  obtain ⟨hself, hpath, hparams, -⟩ := everywhere_mustache.1 hm
  obtain ⟨p, hp, hyield | hquery⟩ := Mustache.becomes_iff.1 h
  · obtain ⟨hkeyword, -, target, -, -, -, rfl⟩ := hyield
    exact everywhere_mustache.2 ⟨hP.yields target hp hkeyword hself, hpath,
      hP.yieldParams target hparams, hP.yieldHash m target⟩
  · obtain ⟨-, query, block, hquery, hasks, rfl⟩ := hquery
    obtain ⟨hanswer, hplain⟩ := hP.mustache hp hquery hasks.block_ne_else hself
    exact everywhere_mustache.2 ⟨hanswer, hP.path _, hP.queryParams block hplain, hP.hash_nil _⟩

/-! ### Invocations -/

theorem branchBody {block : Element} (h : Everywhere P .statements block.children) :
    Everywhere P .block block.branchBody := by
  have hown : Everywhere P .block block.ownBody := hP.block.2 h
  unfold Element.branchBody
  split
  · exact hown
  · refine hP.block.2 (hP.singleton.2 (everywhere_blockStatement.2 ⟨?_, hP.path _, ⟨?_,
      hP.hash_nil _⟩, hown, by simp [Element.letSlots]⟩))
    · exact hP.keyword (b := block.letSlots) (by simp) rfl
    · intro e he
      obtain ⟨i, -, rfl⟩ := List.mem_map.1 he
      exact hP.path _

/-- A branch, whatever stands in its inverse. -/
theorem branch {block : Element} (h : Everywhere P .statements block.children)
    {inverse : Option Block} (hinverse : ∀ i ∈ inverse, Everywhere P .block i) :
    Everywhere P .blockStatement { block.branch with inverse } := by
  have htest : Everywhere P .expression (.sub block.markerTest) := by
    refine hP.sub.2 (everywhere_subExpression.2 ⟨hP.test block, ?_, hP.hash_nil _⟩)
    simpa [Element.markerTest] using ⟨hP.path _, hP.string _⟩
  refine everywhere_blockStatement.2 ⟨?_, hP.path _, ⟨?_, hP.hash_nil _⟩, hP.branchBody h, hinverse⟩
  · exact hP.keyword (b := { block.branch with inverse }) (by simp) rfl
  · simpa [Element.branch] using htest

theorem dispatchChain {first : Element} {rest : List Element}
    (h : ∀ block ∈ first :: rest, Everywhere P .statements block.children) :
    Everywhere P .blockStatement (dispatchChain first rest) := by
  induction rest generalizing first with
  | nil =>
    have hnone : ∀ i ∈ (none : Option Block), Everywhere P .block i := by simp
    exact hP.branch (h first (by simp)) hnone
  | cons next rest ih =>
    have hnext := ih fun block hb => h block (List.mem_cons_of_mem _ hb)
    refine hP.branch (h first (by simp)) ?_
    rintro i ⟨⟩
    exact hP.block.2 (hP.singleton.2 hnext)

theorem metadataAttribute (m : Metadata) : Everywhere P .attribute m.attribute := by
  refine (hP.parts_iff (k := .attribute) rfl).2 ?_
  intro p hp
  rw [List.mem_singleton.1 hp]
  refine everywhere_mustache.2 ⟨hP.metadata m, hP.path _, by simp [Metadata.hashCall],
    hP.hash.2 ?_⟩
  intro q hq
  obtain ⟨a, -, rfl⟩ := List.mem_map.1 hq
  exact hP.leaf rfl rfl

/-- The blocks that an invocation declares are among its children. -/
theorem namedBlocks {e : Element} {blocks : List Element} (hblocks : e.namedBlocks = .ok blocks)
    (h : Everywhere P .statements e.children) :
    ∀ block ∈ blocks, Everywhere P .statements block.children := by
  intro block hb
  have hmem := (Element.sublist_of_namedBlocks hblocks).subset (List.mem_map_of_mem hb)
  have hblock := hP.statement.1 (hP.statements.1 h _ hmem)
  exact (everywhere_element.1 (hblock ⟨.element, block⟩ (by simp [Statement.parts]))).2.2.2

theorem element_of_becomes {scope : Scope} {e e' : Element}
    (h : Becomes (fun e : Element => e.enter scope .standard) e e')
    (he : Everywhere P .element e) : Everywhere P .element e' := by
  have hself := hP.element (Element.tag_of_becomes h) (everywhere_iff.1 he).1
  obtain ⟨-, hattrs, hmods, hchildren⟩ := everywhere_element.1 he
  obtain ⟨-, -, -, blocks, hblocks, -, hfan⟩ := Element.becomes_iff.1 h
  have hbodies := hP.namedBlocks hblocks hchildren
  rcases Element.eq_of_fanOut hfan with ⟨only, rfl, -, rfl⟩ | ⟨-, first, rest, rfl, rfl⟩
  · exact everywhere_element.2 ⟨hself, hattrs, hmods, hbodies only (by simp)⟩
  · refine everywhere_element.2 ⟨hself, ?_, hmods, hP.singleton.2 (hP.dispatchChain hbodies)⟩
    intro a ha
    rcases List.mem_append.1 ha with ha | ha
    · exact hattrs a ha
    · rw [List.mem_singleton.1 ha]
      exact hP.metadataAttribute _

/-- **What replacements carry on, settling carries on.** -/
theorem settled {scope : Scope} {k : Kind} {x y : k.Node} (h : settled scope k x = .ok y)
    (hx : Everywhere P k x) : Everywhere P k y := by
  match k, x, y, h, hx with
  | .template, t, t', h, hx =>
    obtain ⟨-, -, h⟩ := bind_eq_ok.1 h
    cases h
    exact hx
  | .element, e, e', h, hx =>
    exact settleSource_induction hx (fun a b ha hab => hP.element_of_becomes hab ha) h
  | .mustache, m, m', h, hx =>
    exact settleSource_induction hx (fun a b ha hab => hP.mustache_of_becomes hab ha) h
  | .subExpression, c, c', h, hx =>
    exact settleSource_induction hx (fun a b ha hab => hP.subExpression_of_becomes hab ha) h
  | .block, _, _, h, hx | .statements, _, _, h, hx | .statement, _, _, h, hx
  | .blockStatement, _, _, h, hx | .attribute, _, _, h, hx | .modifier, _, _, h, hx
  | .expression, _, _, h, hx | .hash, _, _, h, hx =>
    cases h
    exact hx

end Carried

end TemplateBlocks
