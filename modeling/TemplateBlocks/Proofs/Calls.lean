import TemplateBlocks.Proofs.Declaration
import TemplateBlocks.Proofs.Standard
import TemplateBlocks.Proofs.Tree.Paths
import TemplateBlocks.Query
import TemplateBlocks.Yield

/-!
# Yields and queries

The plain forms of yields and block queries as the standard builders make them, and which calls
have one.

* `desugarYield_eq_ok`: a yield by its own name has at most one named argument, the target;
* `Mustache.desugarQuery_eq_ok`, `SubExpr.desugarQuery_eq_ok`: a query by its own name has at most
  one argument, a block name. Both forms of a call accept the same (`IsQuery`) and make the same
  arguments of it (`queryParams`).
-/

namespace TemplateBlocks

/-- A call by its own name: the check that yields and queries begin with. -/
theorem simple_bind_eq_ok {α : Type} {p : Path} {scope : Scope} {m : Misuse} {span : Span}
    {rest : Except Diagnostic α} {a : α} :
    (do
      let simple ← p.isSimple scope
      obey simple m span
      rest) = .ok a ↔ p.isSimple scope = .ok true ∧ rest = .ok a := by
  cases p.isSimple scope with
  | error d => simp
  | ok simple => simp [obey_bind_eq_ok]

/-! ### Yields -/

/-- The names that the `else` branch of an invocation goes by. -/
def IsInverseName (name : String) : Prop := name = Names.elseBlock ∨ name = Names.inverseBlock

instance (name : String) : Decidable (IsInverseName name) := by
  unfold IsInverseName
  infer_instance

/-- The call that makes the marker of a target. -/
def markerCall (target : Literal String) : SubExpr where
  path := .ofText Names.markHelper target.loc
  params := [.string target]
  hash := {}
  loc := target.loc

namespace Mustache

/-- The params of a yield to a target. -/
def yieldParams (m : Mustache) (target : Literal String) : List Expr :=
  if target.value = Names.defaultBlock then m.params
  else if IsInverseName target.value then []
  else .sub (markerCall target) :: m.params

/-- The named arguments that a yield to a target keeps. -/
def yieldHash (m : Mustache) (target : Literal String) : Hash :=
  if IsInverseName target.value then
    { pairs := [{ key := Names.targetKey, value := .string { value := Names.inverseBlock } }]
      loc := m.hash.loc }
  else {}

/-- The plain form of a yield to a target. -/
def yieldTo (m : Mustache) (target : Literal String) : Mustache where
  path := m.path
  params := m.yieldParams target
  hash := m.yieldHash target
  trusting := m.trusting
  loc := m.loc

theorem yieldTarget_eq_ok {m : Mustache} {first : HashPair} {target : Literal String} :
    m.yieldTarget first = .ok target ↔
      m.hash.pairs.length = 1 ∧ first.key = Names.targetKey ∧ first.value = .string target := by
  unfold yieldTarget
  simp only [obey_bind_eq_ok, Bool.and_eq_true, beq_iff_eq, and_assoc]
  refine and_congr_right fun _ => and_congr_right fun _ => ?_
  cases first.value <;> simp [throw, throwThe, MonadExceptOf.throw]

theorem outcome_yieldArguments (m : Mustache) (target : Literal String) :
    outcome (m.yieldArguments .standard target) =
      (do
        obey (!decide (IsInverseName target.value) || m.params.isEmpty) .yieldToInverse m.loc
        return (m.yieldParams target,
          if IsInverseName target.value then some (m.yieldHash target) else none)) := by
  unfold yieldArguments yieldParams yieldHash IsInverseName
  by_cases hd : target.value = Names.defaultBlock
  · simp [hd, show Names.defaultBlock ≠ Names.elseBlock by decide,
      show Names.defaultBlock ≠ Names.inverseBlock by decide]
  by_cases hi : target.value = Names.elseBlock ∨ target.value = Names.inverseBlock
  · simp [hd, hi]
  · simp [hd, hi, markerCall]

theorem yield_params_eq_ok {m : Mustache} {target : Literal String} {r : Option Mustache} :
    outcome (do
      let (params, hash) ← m.yieldArguments .standard target
      return some (← Builders.standard.mustache m.path params hash m.trusting m.loc)) = .ok r ↔
      (IsInverseName target.value → m.params = []) ∧ r = some (m.yieldTo target) := by
  simp only [outcome_bind, outcome_yieldArguments, outcome_made, Builders.made_mustache,
    outcome_pure]
  by_cases hi : IsInverseName target.value
  · cases m.params with
    | nil => simp [hi, yieldTo, yieldHash, eq_comm]
    | cons e es => simp [hi]
  · simp [hi, yieldTo, yieldHash, eq_comm]

/-- **Which yields have a plain form, and which one.** -/
theorem desugarYield_eq_ok {m : Mustache} {scope : Scope} {r : Option Mustache} :
    outcome (m.desugarYield scope .standard) = .ok r ↔
      (∃ p, m.path = .path p ∧ p.isSimple scope = .ok true) ∧
      ((m.hash.pairs = [] ∧ r = none) ∨ ∃ target loc,
        m.hash.pairs = [⟨Names.targetKey, .string target, loc⟩] ∧
        (IsInverseName target.value → m.params = []) ∧ r = some (m.yieldTo target)) := by
  have hfirst {first : HashPair} {rest : List HashPair} {target : Literal String}
      (hpairs : m.hash.pairs = first :: rest) : m.yieldTarget first = .ok target ↔
        ∃ loc, first :: rest = [⟨Names.targetKey, .string target, loc⟩] := by
    rw [yieldTarget_eq_ok, hpairs]
    obtain ⟨key, value, loc⟩ := first
    cases rest with
    | nil => simp
    | cons p ps => simp
  unfold desugarYield
  cases hpath : m.path with
  | path p =>
    rw [← hpath]
    simp only [outcome_bind, outcome_check, simple_bind_eq_ok, hpath, Expr.path.injEq,
      exists_eq_left']
    refine and_congr_right fun _ => ?_
    match hpairs : m.hash.pairs with
    | [] => simp [eq_comm]
    | first :: rest =>
      simp only [reduceCtorEq, false_and, false_or]
      rw [outcome_bind, outcome_check, bind_eq_ok, ← hpath]
      constructor
      · rintro ⟨target, ht, h⟩
        obtain ⟨loc, hloc⟩ := (hfirst hpairs).1 ht
        exact ⟨target, loc, hloc, yield_params_eq_ok.1 h⟩
      · rintro ⟨target, loc, hloc, h⟩
        exact ⟨target, (hfirst hpairs).2 ⟨loc, hloc⟩, yield_params_eq_ok.2 h⟩
  | _ => simp

end Mustache

/-! ### Queries -/

/-- The answer to a query where the invocation has no metadata. -/
def queryFallback (path : Path) (loc : Span) (block : String) : Expr :=
  if block = Names.defaultBlock then
    .sub { path, params := [], hash := {}, loc, origin := .synthetic }
  else if block = Names.inverseBlock then
    .sub { path, params := [.string { value := Names.inverseBlock }], hash := {}, loc
           origin := .synthetic }
  else .boolean { value := false }

/-- The arguments of the helper that answers a query. -/
def queryParams (path : Path) (loc : Span) (block : String) : List Expr :=
  [.path (.ofText Names.metadataArgument .synthetic), .string { value := block },
    queryFallback path loc block]

/-- The block that a name in a query stands for. -/
def queriedBlock (name : String) : String :=
  if name = Names.elseBlock then Names.inverseBlock else name

/-- A call in a scope is a query about a block. -/
structure IsQuery (path : Path) (params : List Expr) (hash : Hash) (scope : Scope)
    (block : String) : Prop where
  simple : path.isSimple scope = .ok true
  unnamed : hash.pairs = []
  argument : (params = [] ∧ block = Names.defaultBlock) ∨
    ∃ l, params = [.string l] ∧ block = queriedBlock l.value

namespace QueryCall

theorem block_eq_ok {call : QueryCall} {block : String} :
    call.block = .ok block ↔ (call.params = [] ∧ block = Names.defaultBlock) ∨
      ∃ l, call.params = [.string l] ∧ block = queriedBlock l.value := by
  unfold QueryCall.block queriedBlock
  match call.params with
  | [] => simp [eq_comm, show Names.defaultBlock ≠ Names.elseBlock by decide]
  | [.string l] => simp [eq_comm]
  | [.path _] | [.sub _] | [.number _] | [.boolean _] =>
    simp [throw, throwThe, MonadExceptOf.throw]
  | _ :: _ :: _ => simp [throw, throwThe, MonadExceptOf.throw]

@[simp] theorem made_fallback (call : QueryCall) (block : String) :
    made (call.fallback .standard block) = queryFallback call.path call.loc block := by
  unfold QueryCall.fallback queryFallback
  split
  · simp [SubExpr.markSynthetic, Expr.markSynthetics, Hash.markSynthetic, HashPair.markSynthetics]
  split
  · simp [SubExpr.markSynthetic, Expr.markSynthetics, Hash.markSynthetic, HashPair.markSynthetics,
      Expr.markSynthetic]
  · simp

theorem resolve_eq_ok {call : QueryCall} {scope : Scope} {r : String × Expr} :
    outcome (call.resolve scope .standard) = .ok r ↔
      ∃ block, IsQuery call.path call.params call.hash scope block ∧
        r = (block, queryFallback call.path call.loc block) := by
  unfold QueryCall.resolve
  simp only [outcome_bind, outcome_check, simple_bind_eq_ok]
  constructor
  · rintro ⟨hsimple, h⟩
    match hpairs : call.hash.pairs with
    | [] =>
      rw [hpairs] at h
      simp only [outcome_bind, outcome_check, outcome_made, made_fallback] at h
      obtain ⟨block, hblock, h⟩ := bind_eq_ok.1 h
      cases h
      exact ⟨block, ⟨hsimple, hpairs, block_eq_ok.1 hblock⟩, rfl⟩
    | pair :: rest =>
      rw [hpairs] at h
      simp at h
  · rintro ⟨block, ⟨hsimple, hpairs, hargument⟩, rfl⟩
    refine ⟨hsimple, ?_⟩
    rw [hpairs]
    simp [block_eq_ok.2 hargument]

end QueryCall

/-- The plain form of a query in parentheses. -/
def SubExpr.answered (c : SubExpr) (query : BlockQuery) (block : String) : SubExpr where
  path := .ofText query.helper c.path.loc
  params := queryParams c.path c.loc block
  hash := {}
  loc := c.loc

/-- The plain form of a query in a mustache, called by a path. -/
def Mustache.answered (m : Mustache) (path : Path) (query : BlockQuery) (block : String) :
    Mustache where
  path := .path (.ofText query.helper path.loc)
  params := queryParams path m.loc block
  trusting := m.trusting
  loc := m.loc

/-- **Which calls in parentheses are queries, and their plain form.** -/
theorem SubExpr.desugarQuery_eq_ok {c c' : SubExpr} {query : BlockQuery} {scope : Scope} :
    outcome (c.desugarQuery query scope .standard) = .ok c' ↔
      ∃ block, IsQuery c.path c.params c.hash scope block ∧ c' = c.answered query block := by
  unfold SubExpr.desugarQuery
  simp only [outcome_bind, bind_eq_ok, QueryCall.resolve_eq_ok]
  constructor
  · rintro ⟨r, ⟨block, hq, rfl⟩, h⟩
    refine ⟨block, hq, ?_⟩
    simpa [QueryCall.helperParams, answered, queryParams, eq_comm] using h
  · rintro ⟨block, hq, rfl⟩
    refine ⟨_, ⟨block, hq, rfl⟩, ?_⟩
    simp [QueryCall.helperParams, answered, queryParams]

/-- **Which mustaches are queries, and their plain form.** -/
theorem Mustache.desugarQuery_eq_ok {m m' : Mustache} {query : BlockQuery} {scope : Scope} :
    outcome (m.desugarQuery query scope .standard) = .ok m' ↔
      ∃ p block, m.path = .path p ∧ IsQuery p m.params m.hash scope block ∧
        m' = m.answered p query block := by
  unfold Mustache.desugarQuery
  cases hpath : m.path with
  | path p =>
    simp only [outcome_bind, bind_eq_ok, QueryCall.resolve_eq_ok]
    constructor
    · rintro ⟨r, ⟨block, hq, rfl⟩, h⟩
      refine ⟨p, block, rfl, hq, ?_⟩
      simpa [QueryCall.helperParams, answered, queryParams, eq_comm] using h
    · rintro ⟨_, block, ⟨⟩, hq, rfl⟩
      refine ⟨_, ⟨block, hq, rfl⟩, ?_⟩
      simp [QueryCall.helperParams, answered, queryParams]
  | _ => simp

/-! ### Helpers are no queries -/

theorem ofPath?_helper (query : BlockQuery) : BlockQuery.ofPath? query.helper = none := by
  cases query <;> decide

theorem helper_ne_yield (query : BlockQuery) : query.helper ≠ Names.yieldKeyword := by
  cases query <;> decide

end TemplateBlocks
