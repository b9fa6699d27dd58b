import TemplateBlocks.Proofs.Invocation.Metadata
import TemplateBlocks.Proofs.Render.Evaluation

/-!
# Rendering block queries

What a desugared query answers. The metadata that an invocation carries renders as a hash from the
names of its blocks to the number of their params; the helper of a query looks the block up there.
Without metadata the answer is the query's fallback: the plain query for the blocks that an
invocation can pass without naming them, and `false` for any other.

* `answer_iff`: the answer from the metadata is the truth about the blocks;
* `CallForm.desugarQuery_eq_ok`: what a query becomes, in either form of a call;
* `query_with_metadata`, `query_without_metadata`: what desugared queries answer.
-/

namespace TemplateBlocks

open Host

/-! ### Looking up entries -/

namespace Entries

variable {α : Type}

theorem get?_map {β : Type} {f : β → String} {g : β → α} (bs : List β) (key : String) :
    get? (bs.map fun b => (f b, g b)) key = (bs.find? fun b => key == f b).map g := by
  induction bs with
  | nil => rfl
  | cons b bs ih =>
    rw [get?] at ih ⊢
    rw [List.map_cons, List.lookup_cons, List.find?_cons, ih]
    cases key == f b <;> rfl

end Entries

/-! ### The metadata of an invocation -/

/-- The hash that the metadata of blocks renders as. -/
def arityEntries (blocks : List Element) : List (String × Value) :=
  blocks.map fun b => (b.blockName, .number (.ofNat b.blockParams.length))

theorem evalPairs_arities {h : Host} {ρ : Env} (arities : List (String × Nat)) :
    h.evalPairs ρ (arities.map fun a => arityPair a.1 a.2) =
      pure (arities.map fun a => (a.1, .number (.ofNat a.2))) := by
  induction arities with
  | nil => rfl
  | cons a as ih =>
    have ha : h.evalPair ρ (arityPair a.1 a.2) = pure (a.1, .number (.ofNat a.2)) := by
      simp [arityPair, evalPair, eval]
    simp [evalPairs, ha, ih]

/-- **The metadata argument renders as a hash of the blocks' numbers of params.** -/
theorem evalMustache_hashCall {h : Host} {ρ : Env} {blocks : List Element}
    (hd : (blocks.map Element.blockName).Nodup) :
    h.evalMustache ρ (Metadata.ofBlocks blocks).hashCall = pure (.hash (arityEntries blocks)) := by
  have harities := Metadata.arities_ofBlocks hd
  have hentries : Entries.ofList (arityEntries blocks) = arityEntries blocks :=
    Entries.ofList_of_nodup (by simpa [arityEntries, Function.comp_def] using hd)
  have hreserved : isReserved Names.hashHelper = false := by decide
  have hvalues : (blocks.map fun b => (b.blockName, b.blockParams.length)).map
      (fun a => (a.1, Value.number (.ofNat a.2))) = arityEntries blocks := by
    simp [arityEntries]
  simp only [evalMustache, Metadata.hashCall, harities, evalCall, evalAll, evalNamed]
  rw [evalPairs_arities, hvalues]
  simp only [pure_bind, hentries, Host.apply, Path.ofText_text, hreserved, Bool.false_eq_true,
    if_false, if_true]

theorem isMetadata_arityEntries (blocks : List Element) :
    (Value.hash (arityEntries blocks)).isMetadata = true := by
  simp [Value.isMetadata, arityEntries]

/-! ### Answers -/

namespace BlockQuery

/-- Whether a query is about the params of a block. -/
def bindsParams : BlockQuery → Bool
  | .hasBlock => false
  | .hasBlockParams => true

/-- What a query asks of the blocks of an invocation. -/
def Holds (query : BlockQuery) (blocks : List Element) (name : String) : Prop :=
  ∃ b ∈ blocks, b.blockName = name ∧ (query = .hasBlockParams → b.blockParams ≠ [])

instance (query : BlockQuery) (blocks : List Element) (name : String) :
    Decidable (query.Holds blocks name) :=
  inferInstanceAs (Decidable (∃ b ∈ blocks, _))

end BlockQuery

/-- **The answer from the metadata is the truth about the blocks.** -/
theorem answer_iff {blocks : List Element} (hd : (blocks.map Element.blockName).Nodup)
    (query : BlockQuery) (name : String) :
    Helper.answer (arityEntries blocks) name query.bindsParams = true ↔
      query.Holds blocks name := by
  have hget := Entries.get?_map (f := Element.blockName)
    (g := fun b => Value.number (.ofNat b.blockParams.length)) blocks name
  unfold Helper.answer arityEntries
  rw [hget]
  cases hfind : blocks.find? fun b => name == b.blockName with
  | none =>
    have hnone : ∀ b ∈ blocks, ¬ name = b.blockName := by simpa using hfind
    simp only [Option.map_none, Bool.false_eq_true, false_iff]
    rintro ⟨b, hb, rfl, -⟩
    exact hnone b hb rfl
  | some b =>
    have hb := List.mem_of_find?_eq_some hfind
    have hname : name = b.blockName := by simpa using List.find?_some hfind
    -- names are distinct, so the block that is found first is the only one
    have honly (c : Element) (hc : c ∈ blocks) (hcname : c.blockName = name) : c = b :=
      List.inj_on_of_nodup_map hd hc hb (hcname.trans hname)
    have hholds : query.Holds blocks name ↔ (query = .hasBlockParams → b.blockParams ≠ []) := by
      constructor
      · rintro ⟨c, hc, hcname, hparams⟩
        rwa [← honly c hc hcname]
      · intro hparams
        exact ⟨b, hb, hname.symm, hparams⟩
    rw [hholds]
    cases query with
    | hasBlock => simp [BlockQuery.bindsParams]
    | hasBlockParams =>
      simp [BlockQuery.bindsParams, Binary64.isPositive_ofNat, List.length_pos_iff]

theorem call_query_hash (query : BlockQuery) {entries : List (String × Value)}
    (hm : (Value.hash entries).isMetadata = true) (name : String) (fallback : Bool) :
    Helper.call query.helper [.hash entries, .string name, .bool fallback] [] =
      pure (.bool (Helper.answer entries name query.bindsParams)) := by
  have hmetadata (helper : String) :
      Helper.expectMetadata helper 0 (.hash entries) = .ok (some entries) := by
    unfold Helper.expectMetadata
    rw [hm]
  have hquery (helper : String) (b : Bool) :
      Helper.callQuery helper b [.hash entries, .string name, .bool fallback] [] =
        .ok (.bool (Helper.answer entries name b)) := by
    simp [Helper.callQuery, hmetadata, Helper.refuseNamed, Helper.expectString, Helper.expectBool]
  cases query with
  | hasBlock =>
    change liftM (Helper.callQuery _ false _ _) = _
    rw [hquery]
    rfl
  | hasBlockParams =>
    change liftM (Helper.callQuery _ true _ _) = _
    rw [hquery]
    rfl

theorem call_query_undefined (query : BlockQuery) (name : String) (fallback : Bool) :
    Helper.call query.helper [.undefined, .string name, .bool fallback] [] =
      pure (.bool fallback) := by
  cases query <;> rfl

/-! ### The two forms of a call -/

/-- The block that the arguments of a query name. -/
def queriedName : (params : List Expr) → String
  | [.string l] => queriedBlock l.value
  | _ => Names.defaultBlock

theorem IsQuery.block_eq {path : Path} {params : List Expr} {hash : Hash} {scope : Scope}
    {block : String} (h : IsQuery path params hash scope block) : block = queriedName params := by
  rcases h.argument with ⟨rfl, rfl⟩ | ⟨l, rfl, rfl⟩ <;> rfl

/-- A call in a mustache or in parentheses. -/
inductive CallForm where
  | mustache (m : Mustache)
  | parenthesized (c : SubExpr)

namespace CallForm

def path : CallForm → Expr
  | .mustache m => m.path
  | .parenthesized c => .path c.path

def params : CallForm → List Expr
  | .mustache m => m.params
  | .parenthesized c => c.params

def hash : CallForm → Hash
  | .mustache m => m.hash
  | .parenthesized c => c.hash

def loc : CallForm → Span
  | .mustache m => m.loc
  | .parenthesized c => c.loc

/-- The plain form of a query. -/
def desugarQuery (query : BlockQuery) (scope : Scope) : CallForm → Except Diagnostic CallForm
  | .mustache m => .mustache <$> outcome (m.desugarQuery query scope .standard)
  | .parenthesized c => .parenthesized <$> outcome (c.desugarQuery query scope .standard)

/-- The value of a call. -/
def value (h : Host) (ρ : Env) : CallForm → CallM Value
  | .mustache m => h.evalMustache ρ m
  | .parenthesized c => h.evalCall ρ c

variable {query : BlockQuery} {scope : Scope} {call call' : CallForm} {h : Host} {ρ : Env}

/-- Which calls are queries does not hang on their form. -/
theorem exists_desugarQuery (query : BlockQuery) {p : Path} {block : String}
    (hp : call.path = .path p) (hq : IsQuery p call.params call.hash scope block) :
    ∃ call', call.desugarQuery query scope = .ok call' := by
  cases call with
  | mustache m =>
    have hm : outcome (m.desugarQuery query scope .standard) = .ok _ :=
      Mustache.desugarQuery_eq_ok.2 ⟨p, block, hp, hq, rfl⟩
    exact ⟨_, map_eq_ok.2 ⟨_, hm, rfl⟩⟩
  | parenthesized c =>
    obtain rfl : c.path = p := by simpa [path] using hp
    have hc : outcome (c.desugarQuery query scope .standard) = .ok _ :=
      SubExpr.desugarQuery_eq_ok.2 ⟨block, hq, rfl⟩
    exact ⟨_, map_eq_ok.2 ⟨_, hc, rfl⟩⟩

/-- **What a query becomes**, in either form. -/
theorem desugarQuery_eq_ok (hcall : call.desugarQuery query scope = .ok call') :
    ∃ p, call.path = .path p ∧
      IsQuery p call.params call.hash scope (queriedName call.params) ∧
      call'.path = .path (.ofText query.helper p.loc) ∧
      call'.params = queryParams p call.loc (queriedName call.params) ∧ call'.hash = {} := by
  cases call with
  | mustache m =>
    obtain ⟨m', hm, rfl⟩ := map_eq_ok.1 hcall
    obtain ⟨p, block, hp, hq, rfl⟩ := Mustache.desugarQuery_eq_ok.1 hm
    obtain rfl := hq.block_eq
    exact ⟨p, hp, hq, rfl, rfl, rfl⟩
  | parenthesized c =>
    obtain ⟨c', hc, rfl⟩ := map_eq_ok.1 hcall
    obtain ⟨block, hq, rfl⟩ := SubExpr.desugarQuery_eq_ok.1 hc
    obtain rfl := hq.block_eq
    exact ⟨c.path, rfl, hq, rfl, rfl, rfl⟩

/-- The two forms of a call are queries alike, and become alike. -/
theorem desugarQuery_alike {other : CallForm} (hcall : call.desugarQuery query scope = .ok call')
    (hpath : other.path = call.path) (hparams : other.params = call.params)
    (hhash : other.hash = call.hash) (hloc : other.loc = call.loc) :
    ∃ other', other.desugarQuery query scope = .ok other' ∧ other'.path = call'.path ∧
      other'.params = call'.params := by
  obtain ⟨p, hp, hq, hpath', hparams', -⟩ := desugarQuery_eq_ok hcall
  rw [← hparams, ← hhash] at hq
  obtain ⟨other', hother⟩ := exists_desugarQuery query (hpath.trans hp) hq
  obtain ⟨q, hq', -, hopath, hoparams, -⟩ := desugarQuery_eq_ok hother
  obtain rfl : q = p := by simpa using hq'.symm.trans (hpath.trans hp)
  refine ⟨other', hother, hopath.trans hpath'.symm, ?_⟩
  rw [hoparams, hparams', hloc, hparams]

theorem value_eq {p : Path} (hp : call.path = .path p) :
    call.value h ρ = h.evalCall ρ { path := p, params := call.params, hash := call.hash } := by
  cases call with
  | mustache m =>
    change h.evalMustache ρ m = _
    rw [evalMustache, show m.path = .path p from hp]
    rfl
  | parenthesized c =>
    obtain rfl : c.path = p := by simpa [path] using hp
    obtain ⟨_, _, _, _, _⟩ := c
    rfl

/-- A desugared query calls its helper with the metadata, the block's name and the fallback. -/
theorem value_desugared {p : Path} {loc : Span} {block : String}
    (hpath : call'.path = .path (.ofText query.helper p.loc))
    (hparams : call'.params = queryParams p loc block) (hhash : call'.hash = {}) :
    call'.value h ρ = (do
      let fallback ← h.eval ρ (queryFallback p loc block)
      Helper.call query.helper
        [h.lookup ρ (.ofText Names.metadataArgument .synthetic), .string block, fallback] []) := by
  have hreserved : isReserved query.helper = true := by cases query <;> decide
  rw [value_eq hpath, hparams, hhash]
  simp only [evalCall, queryParams, evalAll, eval, evalNamed, evalPairs, pure_bind, bind_assoc,
    Host.apply, Path.ofText_text, hreserved, if_true]
  rfl

end CallForm

/-! ### Truth -/

/-- No block of an invocation goes by the name of its inverse. -/
theorem blockName_ne_inverse {e : Element} {blocks : List Element} (h : e.namedBlocks = .ok blocks)
    {b : Element} (hb : b ∈ blocks) : b.blockName ≠ Names.inverseBlock := by
  obtain ⟨-, hrefuse⟩ := Element.namedBlocks_eq_ok.1 h
  have hdeclared := (Element.areDeclared_of_namedBlocks h).1 b hb
  intro heq
  refine Element.refuseInverse_eq_ok.1 hrefuse b hb ?_
  simp [Element.isInverse, Element.blockName?_of_isDeclaration hdeclared, heq]

/-- A call comes to a boolean and leaves some markers made. -/
def ComesTo (act : CallM Value) (marks : Marks) (b : Bool) (marks' : Marks) : Prop :=
  act.run marks = (.ok (.bool b), marks')

/-- The argument through which a component sees the metadata of its invocation. -/
def Host.metadata (h : Host) (ρ : Env) : Value :=
  h.lookup ρ (.ofText Names.metadataArgument .synthetic)

section Truth

variable {blocks : List Element} {query : BlockQuery} {scope : Scope} {call call' : CallForm}
  {component : Host} {σ : Env}

/-- A desugared query evaluates its fallback and leaves the answer to its helper. -/
theorem run_desugared {p : Path} (hp : call.path = .path p)
    (hquery : call.desugarQuery query scope = .ok call') {marks marks' : Marks} {f : Bool}
    (hf : ComesTo (component.eval σ (queryFallback p call.loc (queriedName call.params))) marks f
      marks') :
    (call'.value component σ).run marks = (Helper.call query.helper
      [component.metadata σ, .string (queriedName call.params), .bool f] []).run marks' := by
  obtain ⟨q, hq, -, hpath, hparams, hhash⟩ := CallForm.desugarQuery_eq_ok hquery
  obtain rfl : q = p := by simpa using hq.symm.trans hp
  rw [CallForm.value_desugared hpath hparams hhash, run_bind_ok hf]
  rfl

/-- With metadata, the answer is the truth about the blocks. -/
theorem query_with_metadata {p : Path} (hd : (blocks.map Element.blockName).Nodup)
    (hp : call.path = .path p) (hquery : call.desugarQuery query scope = .ok call')
    (hinfo : component.metadata σ = .hash (arityEntries blocks)) {marks marks' : Marks} {f : Bool}
    (hf : ComesTo (component.eval σ (queryFallback p call.loc (queriedName call.params))) marks f
      marks') :
    ∃ answer, ComesTo (call'.value component σ) marks answer marks' ∧
      (answer = true ↔ query.Holds blocks (queriedName call.params)) := by
  refine ⟨_, ?_, answer_iff hd query _⟩
  rw [ComesTo, run_desugared hp hquery hf, hinfo,
    call_query_hash query (isMetadata_arityEntries blocks)]
  rfl

/-- Without metadata, the answer is the fallback. -/
theorem query_without_metadata {p : Path} (hp : call.path = .path p)
    (hquery : call.desugarQuery query scope = .ok call')
    (hinfo : component.metadata σ = .undefined) {marks marks' : Marks} {f : Bool}
    (hf : ComesTo (component.eval σ (queryFallback p call.loc (queriedName call.params))) marks f
      marks') : ComesTo (call'.value component σ) marks f marks' := by
  rw [ComesTo, run_desugared hp hquery hf, hinfo, call_query_undefined]
  rfl

end Truth

/-- **Block queries answer truthfully.** Let an invocation be fanned out and a query be desugared.

The query becomes a call of its helper with the metadata argument, the name of the block and the
fallback, and with no named arguments. The invocation carries metadata, which render as the hash of
its blocks. With this hash for the metadata argument, the query answers what holds of the blocks,
whatever its fallback comes to. Without metadata it answers as the plain query does for the default
and the inverse block, and `false` for any other. The other form of the same call is a query too,
with the same helper and the same arguments. -/
theorem query_truthful {declaring e out : Element} {blocks : List Element} {query : BlockQuery}
    {scope : Scope} {call call' : CallForm} (caller component : Host) (ρ σ : Env)
    (hblocks : declaring.namedBlocks = .ok blocks) (hlone : ¬ IsLoneDefault blocks)
    (hfan : outcome (e.fanOut .standard blocks) = .ok out)
    (hquery : call.desugarQuery query scope = .ok call') :
    ∃ path, call.path = .path path ∧
      let name := queriedName call.params
      let fallback := queryFallback path call.loc name
      (call'.path = .path (.ofText query.helper path.loc) ∧
        call'.params = [.path (.ofText Names.metadataArgument .synthetic),
          .string { value := name }, fallback] ∧
        call'.hash = {}) ∧
      (∃ info loc, ⟨Names.metadataArgument, .mustache info, loc⟩ ∈ out.attributes ∧
        caller.evalMustache ρ info = pure (.hash (arityEntries blocks))) ∧
      (component.metadata σ = .hash (arityEntries blocks) → ∀ marks f marks',
        ComesTo (component.eval σ fallback) marks f marks' →
        ∃ answer, ComesTo (call'.value component σ) marks answer marks' ∧
          (answer = true ↔ query.Holds blocks name) ∧
          (name = Names.inverseBlock → answer = false)) ∧
      (component.metadata σ = .undefined →
        (name = Names.defaultBlock → ∀ marks f marks',
          ComesTo (component.evalCall σ { path, hash := {} }) marks f marks' →
          ComesTo (call'.value component σ) marks f marks') ∧
        (name = Names.inverseBlock → ∀ marks f marks',
          ComesTo (component.evalCall σ { path, params := [.string ⟨"inverse", {}⟩], hash := {} })
            marks f marks' →
          ComesTo (call'.value component σ) marks f marks') ∧
        (name ≠ Names.defaultBlock → name ≠ Names.inverseBlock →
          ∀ marks, ComesTo (call'.value component σ) marks false marks)) ∧
      ∀ other : CallForm, other.path = call.path → other.params = call.params →
        other.hash = call.hash → other.loc = call.loc →
        ∃ other', other.desugarQuery query scope = .ok other' ∧ other'.path = call'.path ∧
          other'.params = call'.params := by
  have hd := (Element.areDeclared_of_namedBlocks hblocks).2
  obtain ⟨p, hp, -, hpath, hparams, hhash⟩ := CallForm.desugarQuery_eq_ok hquery
  refine ⟨p, hp, ⟨hpath, hparams, hhash⟩, ?_, ?_, ?_, ?_⟩
  · obtain ⟨first, rest, rfl, rfl⟩ := Element.eq_fanned_of_fanOut hfan hlone
    have hattribute : (Metadata.ofBlocks (first :: rest)).attribute ∈
        (e.fanned first rest).attributes :=
      List.mem_append_right _ (List.mem_singleton.2 rfl)
    exact ⟨_, _, hattribute, evalMustache_hashCall hd⟩
  · -- with metadata
    intro hinfo marks f marks' hf
    obtain ⟨answer, hvalue, htruth⟩ := query_with_metadata hd hp hquery hinfo hf
    refine ⟨answer, hvalue, htruth, ?_⟩
    intro hinverse
    -- no invocation declares its inverse as a block
    rw [hinverse] at htruth
    rw [← Bool.not_eq_true, htruth]
    rintro ⟨b, hb, hname, -⟩
    exact blockName_ne_inverse hblocks hb hname
  · -- without metadata
    intro hinfo
    refine ⟨?_, ?_, ?_⟩
    · intro hn marks f marks' hf
      apply query_without_metadata hp hquery hinfo
      rw [hn, queryFallback, if_pos rfl]
      exact hf
    · intro hn marks f marks' hf
      apply query_without_metadata hp hquery hinfo
      rw [hn, queryFallback, if_neg (by decide), if_pos rfl]
      exact hf
    · intro hdefault hinverse marks
      apply query_without_metadata hp hquery hinfo
      rw [queryFallback, if_neg hdefault, if_neg hinverse]
      rfl
  · intro other hpath hparams hhash hloc
    exact CallForm.desugarQuery_alike hquery hpath hparams hhash hloc

/-- Three queries of a component that was passed a default block without params and a footer with
one: with metadata they tell the truth, even where the plain query says otherwise. -/
theorem query_truthful_card :
    let main : Element := { tag := ":default" }
    let footer : Element := { tag := ":footer", blockParams := ["a"] }
    let e : Element := { tag := "Card", children := [.element main, .element footer] }
    let passed : Value := .hash (arityEntries [main, footer])
    -- a plain query of this component always says yes
    let host (info : Value) : Host := {
      resolve := fun _ => info
      select := fun _ _ => .undefined
      call := fun _ _ _ _ => return .bool true
      mustache := fun _ _ => return ""
      element := fun _ _ children => children []
      block := fun _ _ program _ => program []
      comment := fun _ => "" }
    let ofDefault : Mustache := { path := .path (.ofText "has-block-params" {}) }
    let ofInverse : SubExpr :=
      { path := .ofText "has-block" {}, params := [.string { value := "else" }], hash := {} }
    let ofFooter : SubExpr := {
      path := .ofText "has-block-params" {}, params := [.string { value := "footer" }], hash := {} }
    e.namedBlocks = .ok [main, footer] ∧
      outcome (e.fanOut .standard [main, footer]) = .ok (e.fanned main [footer]) ∧
      (∃ call', (CallForm.mustache ofDefault).desugarQuery .hasBlockParams .root = .ok call' ∧
        ComesTo (call'.value (host passed) {}) {} false {} ∧
        ComesTo (call'.value (host .undefined) {}) {} true {}) ∧
      (∃ call', (CallForm.parenthesized ofInverse).desugarQuery .hasBlock .root = .ok call' ∧
        ComesTo (call'.value (host passed) {}) {} false {} ∧
        ComesTo (call'.value (host .undefined) {}) {} true {}) ∧
      ∃ call', (CallForm.parenthesized ofFooter).desugarQuery .hasBlockParams .root = .ok call' ∧
        ComesTo (call'.value (host passed) {}) {} true {} ∧
        ComesTo (call'.value (host .undefined) {}) {} false {} := by
  intro main footer e passed host ofDefault ofInverse ofFooter
  have hblocks : e.namedBlocks = .ok [main, footer] := by decide +kernel
  have hlone : ¬ IsLoneDefault [main, footer] := by
    rintro ⟨only, hone, -⟩
    simp at hone
  have hfan := Element.outcome_fanOut_cons (e := e) ⟨rfl, by simp [e]⟩ hlone
  -- with the metadata passed, what the fallback comes to does not matter
  have hpassed {query : BlockQuery} {call call' : CallForm} {p : Path} {f truth : Bool}
      (hquery : call.desugarQuery query .root = .ok call') (hp : call.path = .path p)
      (hf : ComesTo ((host passed).eval {} (queryFallback p call.loc (queriedName call.params))) {}
        f {})
      (htruth : truth = true ↔ query.Holds [main, footer] (queriedName call.params)) :
      ComesTo (call'.value (host passed) {}) {} truth {} := by
    obtain ⟨q, hq, -, -, hwith, -⟩ :=
      query_truthful (host passed) (host passed) {} {} hblocks hlone hfan hquery
    obtain rfl : q = p := by simpa using hq.symm.trans hp
    obtain ⟨answer, hanswer, hholds, -⟩ := hwith rfl {} f {} hf
    obtain rfl : answer = truth := Bool.eq_iff_iff.2 (hholds.trans htruth.symm)
    exact hanswer
  have hdefault : (CallForm.mustache ofDefault).desugarQuery .hasBlockParams .root = .ok
      (.mustache (ofDefault.answered (.ofText "has-block-params" {}) .hasBlockParams "default")) :=
    map_eq_ok.2 ⟨ofDefault.answered (.ofText "has-block-params" {}) .hasBlockParams "default",
      by decide +kernel, rfl⟩
  have hinverse : (CallForm.parenthesized ofInverse).desugarQuery .hasBlock .root =
      .ok (.parenthesized (ofInverse.answered .hasBlock "inverse")) :=
    map_eq_ok.2 ⟨ofInverse.answered .hasBlock "inverse", by decide +kernel, rfl⟩
  have hfooter : (CallForm.parenthesized ofFooter).desugarQuery .hasBlockParams .root =
      .ok (.parenthesized (ofFooter.answered .hasBlockParams "footer")) :=
    map_eq_ok.2 ⟨ofFooter.answered .hasBlockParams "footer", by decide +kernel, rfl⟩
  refine ⟨hblocks, hfan, ⟨_, hdefault, ?_, ?_⟩, ⟨_, hinverse, ?_, ?_⟩, ⟨_, hfooter, ?_, ?_⟩⟩
  · exact hpassed (f := true) hdefault rfl rfl (by decide +kernel)
  · obtain ⟨p, hp, -, -, -, hwithout, -⟩ :=
      query_truthful (host .undefined) (host .undefined) {} {} hblocks hlone hfan hdefault
    obtain rfl : p = .ofText "has-block-params" {} := Expr.path.inj hp.symm
    exact (hwithout rfl).1 rfl {} true {} rfl
  · have hfallback : queryFallback ofInverse.path {} (queriedName ofInverse.params) = .sub {
        path := .ofText "has-block" {}, params := [.string { value := "inverse" }], hash := {}
        origin := .synthetic } := by decide +kernel
    refine hpassed (f := true) hinverse rfl ?_ (by decide +kernel)
    change ComesTo ((host passed).eval {} (queryFallback ofInverse.path {}
      (queriedName ofInverse.params))) {} true {}
    rw [hfallback]
    rfl
  · obtain ⟨p, hp, -, -, -, hwithout, -⟩ :=
      query_truthful (host .undefined) (host .undefined) {} {} hblocks hlone hfan hinverse
    obtain rfl : p = .ofText "has-block" {} := Expr.path.inj hp.symm
    exact (hwithout rfl).2.1 rfl {} true {} rfl
  · exact hpassed (f := false) hfooter rfl rfl (by decide +kernel)
  · obtain ⟨p, hp, -, -, -, hwithout, -⟩ :=
      query_truthful (host .undefined) (host .undefined) {} {} hblocks hlone hfan hfooter
    exact (hwithout rfl).2.2 (by decide) (by decide) {}

end TemplateBlocks
