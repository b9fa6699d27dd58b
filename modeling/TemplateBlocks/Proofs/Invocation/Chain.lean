import TemplateBlocks.Invocation.Dispatch
import TemplateBlocks.Proofs.Standard

/-!
# Chains of branches

Statements that are made one `{{#if}} … {{else if}} … {{/if}}`. Each has to be a bare `{{#if}}`; the
first that is not decides what is reported (`ChainFault`). Nothing is lost in the chain: following
the inverses from its root gives the statements back, in their order (`Unrolls`).
-/

namespace TemplateBlocks

namespace BlockStatement

/-! ### Branches -/

/-- The statement is an `{{#if}}`. -/
def IsIf (b : BlockStatement) : Prop := ∃ p, b.path = .path p ∧ p.text = Names.ifKeyword

/-- The statement can be made a branch: it is an `{{#if}}` without an inverse of its own. -/
def IsBranch (b : BlockStatement) : Prop := b.IsIf ∧ b.inverse = none

/-- Why a statement cannot be made a branch. It is no `{{#if}}` but something else, which is called
by its path or, where there is none, by the kind of its expression; or it is an `{{#if}}` that has
an inverse already. -/
inductive BranchFault (b : BlockStatement) : Defect → Prop
  | keyword {p : Path} : b.path = .path p → p.text ≠ Names.ifKeyword →
      BranchFault b (.chainBranch p.text)
  | noPath : (∀ p, b.path ≠ .path p) → BranchFault b (.chainBranch b.path.kindName)
  | inverse : b.IsIf → b.inverse ≠ none → BranchFault b .chainInverse

variable {b : BlockStatement} {f : Defect}

theorem isBranch_or_branchFault (b : BlockStatement) : b.IsBranch ∨ ∃ f, b.BranchFault f := by
  by_cases hpath : ∃ p, b.path = .path p
  · obtain ⟨p, hp⟩ := hpath
    by_cases hif : p.text = Names.ifKeyword
    · by_cases hinverse : b.inverse = none
      · exact .inl ⟨⟨p, hp, hif⟩, hinverse⟩
      · exact .inr ⟨_, .inverse ⟨p, hp, hif⟩ hinverse⟩
    · exact .inr ⟨_, .keyword hp hif⟩
  · exact .inr ⟨_, .noPath (not_exists.1 hpath)⟩

theorem IsIf.checkBranch_eq (h : b.IsIf) :
    checkBranch b = maintain b.inverse.isNone .chainInverse := by
  obtain ⟨p, hp, hif⟩ := h
  simp [checkBranch, hp, hif, Expr.path?, maintain]

theorem IsBranch.checkBranch_eq (h : b.IsBranch) : checkBranch b = .ok () := by
  rw [h.1.checkBranch_eq, h.2]
  rfl

theorem BranchFault.checkBranch_eq (h : b.BranchFault f) : checkBranch b = .error f.report := by
  cases h with
  | keyword hp hif => simp [checkBranch, hp, hif, Expr.path?, maintain]
  | noPath hpath =>
    cases hb : b.path with
    | path p => exact absurd hb (hpath p)
    | sub _ | string _ | number _ | boolean _ => simp [checkBranch, hb, Expr.path?, maintain]
  | inverse hif hinverse =>
    rw [hif.checkBranch_eq, maintain, if_neg]
    simpa using hinverse

theorem checkBranch_eq_ok : checkBranch b = .ok () ↔ b.IsBranch := by
  refine ⟨fun h => ?_, IsBranch.checkBranch_eq⟩
  rcases isBranch_or_branchFault b with hb | ⟨f, hf⟩
  · exact hb
  · simp [hf.checkBranch_eq] at h

theorem checkBranch_eq_error {d : Diagnostic} :
    checkBranch b = .error d ↔ ∃ f, b.BranchFault f ∧ d = f.report := by
  constructor
  · intro h
    rcases isBranch_or_branchFault b with hb | ⟨f, hf⟩
    · simp [hb.checkBranch_eq] at h
    · exact ⟨f, hf, Except.error.inj (h.symm.trans hf.checkBranch_eq)⟩
  · rintro ⟨f, hf, rfl⟩
    exact hf.checkBranch_eq

theorem BranchFault.report_eq (h : b.BranchFault f) :
    f.report = .defectOf "NB-BUG-DISPATCH-CHAIN" f.message := by
  cases h <;> rfl

end BlockStatement

open BlockStatement

/-! ### Following the inverses -/

/-- The inverse of a branch that another one follows: chained, without params, with that branch as
its only statement and in that branch's place. -/
def elseIf (next : BlockStatement) : Block where
  body := [.block next]
  chained := true
  loc := next.loc

/-- Following the inverses from the root of a chain gives the list of its branches, each without
its inverse. -/
inductive Unrolls : BlockStatement → List BlockStatement → Prop
  | last {b : BlockStatement} : b.inverse = none → Unrolls b [b]
  | link {b next : BlockStatement} {rest : List BlockStatement} :
      b.inverse = some (elseIf next) → Unrolls next rest →
      Unrolls b ({ b with inverse := none } :: rest)

/-- **There is one way to follow the inverses.** -/
theorem Unrolls.unique {root : BlockStatement} {bs bs' : List BlockStatement}
    (h : Unrolls root bs) (h' : Unrolls root bs') : bs = bs' := by
  induction h generalizing bs' with
  | last hnone =>
    cases h' with
    | last => rfl
    | link hsome => simp [hnone] at hsome
  | link hsome _ ih =>
    cases h' with
    | last hnone => simp [hsome] at hnone
    | link hsome' hnext =>
      have heq := hsome.symm.trans hsome'
      simp only [elseIf, Option.some.injEq, Block.mk.injEq, List.cons.injEq,
        Statement.block.injEq] at heq
      obtain ⟨⟨rfl, -⟩, -⟩ := heq
      rw [ih hnext]

/-- **Linked branches can be followed**: each was hung into the inverse of the one before it. -/
theorem unrolls_linkBranches {first : BlockStatement} {rest : List BlockStatement}
    (h : ∀ b ∈ first :: rest, b.inverse = none) :
    Unrolls (made (linkBranches .standard first rest)) (first :: rest) := by
  induction rest generalizing first with
  | nil => exact .last (h first (by simp))
  | cons next rest ih =>
    have hnext := ih fun b hb => h b (List.mem_cons_of_mem _ hb)
    obtain ⟨path, params, hash, program, inverse, loc, origin⟩ := first
    obtain rfl : inverse = none := h _ (List.mem_cons_self ..)
    exact .link rfl hnext

/-! ### Chains -/

/-- Why statements cannot be made a chain: there are none, or the first of them that cannot be made
a branch is at fault. -/
inductive ChainFault (branches : List BlockStatement) : Defect → Prop
  | empty : branches = [] → ChainFault branches .chainEmpty
  | branch {front back : List BlockStatement} {b : BlockStatement} {f : Defect} :
      branches = front ++ b :: back → (∀ a ∈ front, a.IsBranch) → b.BranchFault f →
      ChainFault branches f

variable {branches : List BlockStatement}

theorem outcome_chainBranches_cons (first : BlockStatement) (rest : List BlockStatement) :
    outcome (chainBranches .standard (first :: rest)) =
      forM (first :: rest) checkBranch >>= fun _ =>
        .ok (made (linkBranches .standard first rest)) := by
  unfold chainBranches
  rw [List.forM_eq_forM, outcome_bind, outcome_forM]
  simp only [outcome_check, outcome_made]

theorem exists_outcome_chainBranches :
    (∃ root, outcome (chainBranches .standard branches) = .ok root) ↔
      branches ≠ [] ∧ ∀ b ∈ branches, b.IsBranch := by
  cases branches with
  | nil => simp [chainBranches]
  | cons first rest =>
    have hchecks : forM (first :: rest) checkBranch = .ok () ↔
        ∀ b ∈ first :: rest, b.IsBranch := by
      rw [forM_eq_ok]
      exact forall₂_congr fun b _ => checkBranch_eq_ok
    rw [outcome_chainBranches_cons, ← hchecks]
    cases forM (first :: rest) checkBranch <;> simp

theorem unrolls_of_chainBranches {root : BlockStatement}
    (h : outcome (chainBranches .standard branches) = .ok root) : Unrolls root branches := by
  obtain ⟨hne, hbranches⟩ := exists_outcome_chainBranches.1 ⟨root, h⟩
  cases branches with
  | nil => exact absurd rfl hne
  | cons first rest =>
    rw [outcome_chainBranches_cons] at h
    obtain ⟨_, -, h⟩ := bind_eq_ok.1 h
    cases h
    exact unrolls_linkBranches fun b hb => (hbranches b hb).2

theorem outcome_chainBranches_eq_error {d : Diagnostic} :
    outcome (chainBranches .standard branches) = .error d ↔
      ∃ f, ChainFault branches f ∧ d = .defectOf "NB-BUG-DISPATCH-CHAIN" f.message := by
  cases branches with
  | nil =>
    constructor
    · rintro ⟨⟩
      exact ⟨.chainEmpty, .empty rfl, rfl⟩
    · rintro ⟨f, hf, rfl⟩
      cases hf with
      | empty => rfl
      | branch hsplit => simp at hsplit
  | cons first rest =>
    have hchecks : outcome (chainBranches .standard (first :: rest)) = .error d ↔
        forM (first :: rest) checkBranch = .error d := by
      rw [outcome_chainBranches_cons]
      cases forM (first :: rest) checkBranch <;> simp
    rw [hchecks, forM_eq_error]
    constructor
    · rintro ⟨front, b, back, hsplit, hfront, hb⟩
      obtain ⟨f, hf, rfl⟩ := checkBranch_eq_error.1 hb
      have hfront : ∀ a ∈ front, a.IsBranch := fun a ha => checkBranch_eq_ok.1 (hfront a ha)
      exact ⟨f, .branch hsplit hfront hf, hf.report_eq⟩
    · rintro ⟨f, hf, rfl⟩
      cases hf with
      | empty hnil => cases hnil
      | branch hsplit hfront hb =>
        refine ⟨_, _, _, hsplit, fun a ha => (hfront a ha).checkBranch_eq, ?_⟩
        rw [hb.checkBranch_eq, hb.report_eq]

/-- **Chaining is faithful.** Statements can be chained exactly if there are some and all are bare
`{{#if}}`s. Following the inverses of the chain gives back the statements, in order, and nothing
else. Otherwise a defect is reported, and the first fault says which. -/
theorem chainBranches_faithful (branches : List BlockStatement) :
    ((∃ root, outcome (chainBranches .standard branches) = .ok root) ↔
      branches ≠ [] ∧ ∀ b ∈ branches, b.IsBranch) ∧
    (∀ root, outcome (chainBranches .standard branches) = .ok root →
      Unrolls root branches ∧ ∀ others, Unrolls root others → others = branches) ∧
    ∀ d, outcome (chainBranches .standard branches) = .error d ↔
      ∃ f, ChainFault branches f ∧ d = .defectOf "NB-BUG-DISPATCH-CHAIN" f.message := by
  refine ⟨exists_outcome_chainBranches, ?_, fun d => outcome_chainBranches_eq_error⟩
  intro root hroot
  have hunrolls := unrolls_of_chainBranches hroot
  exact ⟨hunrolls, fun others hothers => hothers.unique hunrolls⟩

end TemplateBlocks
