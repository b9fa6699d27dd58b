import TemplateBlocks.Invocation.FanOut
import TemplateBlocks.Proofs.Declaration
import TemplateBlocks.Proofs.Standard

/-!
# Fanned-out invocations

The plain form of an invocation as the standard builders make it, written down: the branch of a
block, the chain of branches, the argument that carries the metadata, and the invocation itself.
`outcome_fanOut_cons` and `eq_of_fanOut` say that fanning out makes exactly these.
-/

namespace TemplateBlocks

/-! ### Branches -/

namespace Element

/-- The slots that a block reads its params from. -/
def slots (block : Element) : List Expr :=
  (List.range block.blockParams.length).map fun i =>
    .path (.ofText (Names.slot (i + slotOffset block.blockName)) .synthetic)

/-- The block as it is declared: its children under its params. -/
def ownBody (block : Element) : Block where
  body := block.children
  blockParams := block.blockParams
  loc := block.loc

/-- The block with its params bound to their slots. -/
def letSlots (block : Element) : BlockStatement where
  path := .path (.ofText Names.letKeyword .synthetic)
  params := block.slots
  program := block.ownBody
  loc := block.loc

/-- The body of a block's branch. -/
def branchBody (block : Element) : Block :=
  if block.blockParams.isEmpty then block.ownBody
  else { body := [.block block.letSlots], loc := block.loc }

/-- The test for the block's marker in slot 0. -/
def markerTest (block : Element) : SubExpr where
  path := .ofText Names.testHelper .synthetic
  params := [.path (.ofText (Names.slot 0) .synthetic), .string { value := block.blockName }]
  hash := {}
  loc := .synthetic

/-- The branch of a block. -/
def branch (block : Element) : BlockStatement where
  path := .path (.ofText Names.ifKeyword .synthetic)
  params := [.sub block.markerTest]
  program := block.branchBody
  loc := block.loc

end Element

theorem made_dispatchBody (block : Element) :
    made (dispatchBody .standard block) = block.branchBody := by
  unfold dispatchBody Element.branchBody
  by_cases h : block.blockParams.isEmpty
  · simp [h, Element.ownBody]
  · simp [h, Element.ownBody, Element.letSlots, Element.slots]

@[simp] theorem made_dispatchBranch (block : Element) :
    made (dispatchBranch .standard block) = block.branch := by
  simp [dispatchBranch, made_dispatchBody, Element.branch, Element.markerTest]

/-! ### The chain of branches -/

/-- The branches of an invocation's blocks, each in the inverse of the one before it. -/
def dispatchChain (first : Element) : List Element → BlockStatement
  | [] => first.branch
  | next :: rest =>
    { first.branch with
      inverse := some {
        body := [.block (dispatchChain next rest)]
        chained := true
        loc := next.loc } }

@[simp] theorem dispatchChain_loc (first : Element) (rest : List Element) :
    (dispatchChain first rest).loc = first.loc := by
  cases rest <;> rfl

theorem made_linkBranches (first : Element) (rest : List Element) :
    made (linkBranches .standard first.branch (rest.map Element.branch)) =
      dispatchChain first rest := by
  induction rest generalizing first with
  | nil => rfl
  | cons next rest ih =>
    simp [linkBranches, ih, dispatchChain]

theorem checkBranch_branch (block : Element) : checkBranch block.branch = .ok () := rfl

theorem outcome_chainBranches (first : Element) (rest : List Element) :
    outcome (chainBranches .standard ((first :: rest).map Element.branch)) =
      .ok (dispatchChain first rest) := by
  have hchecks : forM ((first :: rest).map Element.branch) checkBranch = .ok () := by
    apply forM_eq_ok.2
    intro branch hb
    obtain ⟨block, -, rfl⟩ := List.mem_map.1 hb
    exact checkBranch_branch block
  unfold chainBranches
  rw [List.forM_eq_forM, outcome_bind, outcome_forM]
  simp only [outcome_check, hchecks]
  simp [made_linkBranches]

/-! ### The metadata argument -/

/-- A count of params under the name of its block. -/
def arityPair (name : String) (arity : Nat) : HashPair where
  key := name
  value := .number { value := .ofNat arity }

/-- The call that makes a hash of the metadata of an invocation. -/
def Metadata.hashCall (m : Metadata) : Mustache where
  path := .path (.ofText Names.hashHelper .synthetic)
  hash := { pairs := m.arities.map fun a => arityPair a.1 a.2, loc := .synthetic }
  loc := .synthetic

/-- The argument that carries the metadata of an invocation. -/
def Metadata.attribute (m : Metadata) : Attribute where
  name := Names.metadataArgument
  value := .mustache m.hashCall
  loc := .synthetic

@[simp] theorem made_toAttribute (m : Metadata) : made (m.toAttribute .standard) = m.attribute := by
  simp [Metadata.toAttribute, Metadata.attribute, Metadata.hashCall, arityPair]

/-! ### Invocations -/

/-- The blocks are one `<:default>`. -/
def IsLoneDefault (blocks : List Element) : Prop :=
  ∃ only, blocks = [only] ∧ only.blockName? = some Names.defaultBlock

/-- The names that a fanned-out invocation binds for its blocks. -/
def slotNames (blocks : List Element) : List String :=
  (List.range (slotCount blocks)).map Names.slot

namespace Element

/-- The invocation with its only block's children and params in place of its own. -/
def unwrapped (e only : Element) : Element where
  tag := e.tag
  attributes := e.attributes
  modifiers := e.modifiers
  children := only.children
  comments := e.comments
  blockParams := only.blockParams
  loc := e.loc

/-- The invocation that dispatches to its blocks. -/
def fanned (e first : Element) (rest : List Element) : Element where
  tag := e.tag
  attributes := e.attributes ++ [(Metadata.ofBlocks (first :: rest)).attribute]
  modifiers := e.modifiers
  children := [.block (dispatchChain first rest)]
  comments := e.comments
  blockParams := slotNames (first :: rest)
  loc := e.loc

/-- An invocation that may be fanned out binds no params and leaves the metadata argument alone. -/
def IsFannable (e : Element) : Prop :=
  e.blockParams = [] ∧ ∀ a ∈ e.attributes, a.name ≠ Names.metadataArgument

theorem outcome_dispatchTo (e first : Element) (rest : List Element) :
    outcome (e.dispatchTo .standard (first :: rest)) = .ok (e.fanned first rest) := by
  have hbranches : outcome ((first :: rest).mapM fun block =>
      (liftM (dispatchBranch .standard block) : BuildM Unit BlockStatement)) =
        .ok ((first :: rest).map Element.branch) := by
    rw [outcome_mapM]
    exact mapM_eq_map fun block _ => by simp
  unfold dispatchTo
  rw [outcome_bind, hbranches, ok_bind, outcome_bind, outcome_chainBranches]
  simp [fanned, slotNames]

theorem outcome_dispatchTo_nil (e e' : Element) :
    outcome (e.dispatchTo .standard []) ≠ .ok e' := by
  simp [dispatchTo, chainBranches]

theorem made_unwrapDefault (e only : Element) :
    made (e.unwrapDefault .standard only) = e.unwrapped only := by
  simp [unwrapDefault, unwrapped]

theorem isFannable_of_fanOut {e e' : Element} {blocks : List Element}
    (h : outcome (e.fanOut .standard blocks) = .ok e') : e.IsFannable := by
  unfold fanOut at h
  simp only [outcome_bind, outcome_check, obey_bind_eq_ok] at h
  exact ⟨by simpa using h.1, by simpa using h.2.1⟩

theorem outcome_fanOut {e : Element} (he : e.IsFannable) (blocks : List Element) :
    outcome (e.fanOut .standard blocks) =
      match blocks with
      | [only] =>
        if only.blockName? = some Names.defaultBlock then .ok (e.unwrapped only)
        else .ok (e.fanned only [])
      | blocks => outcome (e.dispatchTo .standard blocks) := by
  have hattr : (e.attributes.any fun a => a.name == Names.metadataArgument) = false := by
    simpa using he.2
  unfold fanOut
  rw [he.1, hattr]
  match blocks with
  | [] => rfl
  | [only] =>
    by_cases hname : only.blockName? = some Names.defaultBlock
    · simp [hname, made_unwrapDefault]
    · simp [hname, outcome_dispatchTo]
  | _ :: _ :: _ => rfl

/-- **Fanning out several blocks, or one that is not the default block.** -/
theorem outcome_fanOut_cons {e first : Element} {rest : List Element} (he : e.IsFannable)
    (h : ¬ IsLoneDefault (first :: rest)) :
    outcome (e.fanOut .standard (first :: rest)) = .ok (e.fanned first rest) := by
  rw [outcome_fanOut he]
  cases rest with
  | nil =>
    have hname : first.blockName? ≠ some Names.defaultBlock := fun hn => h ⟨first, rfl, hn⟩
    simp [hname]
  | cons next rest => exact outcome_dispatchTo e first (next :: rest)

/-- **What fanning out makes**: an unwrapped invocation of a lone default block, and an invocation
that dispatches to its blocks otherwise. -/
theorem eq_of_fanOut {e e' : Element} {blocks : List Element}
    (h : outcome (e.fanOut .standard blocks) = .ok e') :
    (∃ only, blocks = [only] ∧ only.blockName? = some Names.defaultBlock ∧ e' = e.unwrapped only) ∨
    (¬ IsLoneDefault blocks ∧ ∃ first rest, blocks = first :: rest ∧ e' = e.fanned first rest) := by
  have he := isFannable_of_fanOut h
  cases blocks with
  | nil =>
    rw [outcome_fanOut he] at h
    exact absurd h (outcome_dispatchTo_nil e e')
  | cons first rest =>
    by_cases hlone : IsLoneDefault (first :: rest)
    · left
      obtain ⟨only, honly, hname⟩ := hlone
      rw [honly, outcome_fanOut he] at h
      simp only [hname, if_true, Except.ok.injEq] at h
      exact ⟨only, honly, hname, h.symm⟩
    · right
      rw [outcome_fanOut_cons he hlone] at h
      cases h
      exact ⟨hlone, first, rest, rfl, rfl⟩

theorem eq_fanned_of_fanOut {e e' : Element} {blocks : List Element}
    (h : outcome (e.fanOut .standard blocks) = .ok e') (hlone : ¬ IsLoneDefault blocks) :
    ∃ first rest, blocks = first :: rest ∧ e' = e.fanned first rest := by
  rcases eq_of_fanOut h with ⟨only, honly, hname, -⟩ | ⟨-, hfanned⟩
  · exact absurd ⟨only, honly, hname⟩ hlone
  · exact hfanned

end Element

end TemplateBlocks
