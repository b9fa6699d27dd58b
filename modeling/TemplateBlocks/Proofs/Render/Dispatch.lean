import TemplateBlocks.Proofs.Invocation.Slots
import TemplateBlocks.Proofs.Render.Evaluation

/-!
# Rendering a dispatch

A component yields to one of the blocks that it was passed; the invocation, fanned out, has a single
block that finds out which one is meant. The two sides meet in the slots: the yield puts a marker
before its values unless it means the default block, and every other block reads its params from
slot 1 on.

* `renderCall_dispatchChain`: the chain of branches renders the first block whose marker is in
  slot 0;
* `run_yield`: what a plain yield passes. Together they say that what a component yields to a block
  is rendered by that block, with the yielded values in its params.
-/

namespace TemplateBlocks

open Host

/-! ### Slots -/

section Slots

/-- The environment in which the slots hold the values that were passed. -/
def Env.bindSlots (ρ : Env) (count : Nat) (vals : List Value) : Env :=
  ρ.bind ((List.range count).map Names.slot) vals

/-- **Slot `i` holds the `i`-th value.** -/
theorem Env.lookup_slot {ρ : Env} {vals : List Value} {count i : Nat} (hi : i < count) :
    (ρ.bindSlots count vals).lookup (Names.slot i) = some (vals[i]?.getD .undefined) := by
  have hlen : i < ((List.range count).map Names.slot).length := by simpa using hi
  have hname : ((List.range count).map Names.slot)[i] = Names.slot i := by simp
  -- distinct slots do not hide one another
  have hlast : ((List.range count).map Names.slot)[i] ∉
      ((List.range count).map Names.slot).drop (i + 1) := by
    have hsub := (nodup_slots count).sublist (List.drop_sublist i _)
    rw [List.drop_eq_getElem_cons hlen] at hsub
    exact (List.nodup_cons.1 hsub).1
  rw [← hname]
  exact Env.lookup_bind_getElem hlen hlast

theorem Host.lookup_slot {h : Host} {ρ : Env} {vals : List Value} {count i : Nat} (hi : i < count) :
    h.lookup (ρ.bindSlots count vals) (.ofText (Names.slot i) .synthetic) =
      vals[i]?.getD .undefined := by
  simp [Host.lookup, ofText_slot, Env.lookup_slot hi]

end Slots

/-! ### Branches -/

section Branches

variable {h : Host} {ρ : Env} {vals : List Value} {count : Nat}

/-- A block finds its params in the slots from its offset on. -/
theorem evalAll_slots {block : Element}
    (hc : block.blockParams.length + slotOffset block.blockName ≤ count) :
    h.evalAll (ρ.bindSlots count vals) block.slots =
      pure ((List.range block.blockParams.length).map fun i =>
        (vals.drop (slotOffset block.blockName))[i]?.getD .undefined) := by
  have hpaths : block.slots = ((List.range block.blockParams.length).map fun i =>
      Path.ofText (Names.slot (i + slotOffset block.blockName)) .synthetic).map Expr.path := by
    simp [Element.slots]
  rw [hpaths, evalAll_paths, List.map_map]
  apply congrArg pure
  apply List.map_congr_left
  intro i hi
  have hi' : i + slotOffset block.blockName < count := by
    have := List.mem_range.1 hi
    omega
  rw [Function.comp_apply, Host.lookup_slot hi', List.getElem?_drop, Nat.add_comm]

theorem render_branchBody {block : Element}
    (hc : block.blockParams.length + slotOffset block.blockName ≤ count) :
    h.render (ρ.bindSlots count vals) block.branchBody.body =
      h.render ((ρ.bindSlots count vals).bind block.blockParams
        (vals.drop (slotOffset block.blockName))) block.children := by
  unfold Element.branchBody
  split
  next hempty =>
    rw [List.isEmpty_iff.1 hempty]
    rfl
  next =>
    have hkey : keyword block.letSlots.path = Names.letKeyword := by
      simp [keyword, Element.letSlots, Expr.path?]
    rw [render_singleton, renderCall_let hkey]
    change (do
      let values ← h.evalAll _ block.slots
      h.render (Env.bind _ block.blockParams values) block.children) = _
    rw [evalAll_slots hc, pure_bind, Env.bind_range]

theorem call_test (v : Value) (block : String) :
    Helper.call Names.testHelper [v, .string block] [] = pure (.bool (v.isInvocationOf block)) :=
  rfl

theorem condition_branch (hc : 0 < count) (block : Element) :
    h.condition (ρ.bindSlots count vals) block.branch.params =
      pure (.bool ((vals[0]?.getD Value.undefined).isInvocationOf block.blockName)) := by
  change h.eval _ (.sub block.markerTest) = _
  have hreserved : isReserved Names.testHelper = true := by decide
  simp only [eval, Element.markerTest, evalCall, evalAll, evalNamed, evalPairs,
    Host.lookup_slot hc, pure_bind, Host.apply, Path.ofText_text, hreserved, if_true]
  exact call_test _ _

/-- The first of the blocks that a value invokes. -/
def invoked? (blocks : List Element) (v : Value) : Option Element :=
  blocks.find? fun b => v.isInvocationOf b.blockName

theorem invoked?_cons (block : Element) (blocks : List Element) (v : Value) :
    invoked? (block :: blocks) v =
      if v.isInvocationOf block.blockName then some block else invoked? blocks v := by
  rw [invoked?, List.find?_cons]
  cases v.isInvocationOf block.blockName <;> rfl

/-- What a block renders as when it takes its params from the passed values; no block renders as
nothing. -/
def Host.renderInvoked (h : Host) (ρ : Env) (vals : List Value) : Option Element → CallM String
  | some b => h.render (ρ.bind b.blockParams (vals.drop (slotOffset b.blockName))) b.children
  | none => return ""

theorem renderCall_branch {block : Element} {inverse : Option Block} (hpos : 0 < count)
    (hc : block.blockParams.length + slotOffset block.blockName ≤ count) :
    h.renderCall (ρ.bindSlots count vals) { block.branch with inverse } =
      if (vals[0]?.getD Value.undefined).isInvocationOf block.blockName then
        h.renderInvoked (ρ.bindSlots count vals) vals block
      else h.renderInverse (fun _ => ρ.bindSlots count vals) inverse := by
  have hkey : keyword block.branch.path = Names.ifKeyword := by
    simp [keyword, Element.branch, Expr.path?]
  rw [renderCall_if (b := { block.branch with inverse }) hkey, condition_branch hpos, pure_bind,
    renderInvoked, ← render_branchBody hc]
  rfl

/-- **The chain renders the first block that slot 0 invokes**, if there is one. -/
theorem renderCall_dispatchChain (h : Host) (ρ : Env) (vals : List Value) {first : Element}
    {rest : List Element} (hpos : 0 < count)
    (hc : ∀ b ∈ first :: rest, b.blockParams.length + slotOffset b.blockName ≤ count) :
    h.renderCall (ρ.bindSlots count vals) (dispatchChain first rest) =
      h.renderInvoked (ρ.bindSlots count vals) vals
        (invoked? (first :: rest) (vals[0]?.getD .undefined)) := by
  rw [invoked?_cons]
  induction rest generalizing first with
  | nil =>
    rw [show dispatchChain first [] = { first.branch with inverse := none } from rfl,
      renderCall_branch hpos (hc first (by simp))]
    split <;> rfl
  | cons next rest ih =>
    have hnext := ih fun b hb => hc b (List.mem_cons_of_mem _ hb)
    rw [dispatchChain, renderCall_branch hpos (hc first (by simp)), renderInverse, renderBlock_eq,
      render_singleton, hnext, ← invoked?_cons]
    split <;> rfl

end Branches

/-! ### Which block is invoked -/

/-- The value invokes the block of one name only. -/
def Value.Invokes (v : Value) (name : String) : Prop :=
  ∀ other, v.isInvocationOf other = true ↔ other = name

theorem Value.marker_invokes (id : Nat) (name : String) :
    (Value.marker ⟨id, name⟩).Invokes name := by
  intro other
  rw [Value.isInvocationOf, beq_iff_eq]
  exact eq_comm

theorem Value.invokes_default {v : Value} (hv : ∀ k, v ≠ .marker k) :
    v.Invokes Names.defaultBlock := by
  intro other
  cases v with
  | marker k => exact absurd rfl (hv k)
  | _ => simp [Value.isInvocationOf]

theorem invoked?_eq_some {blocks : List Element} {block : Element} {v : Value}
    (hd : (blocks.map Element.blockName).Nodup) (hb : block ∈ blocks)
    (hv : v.Invokes block.blockName) : invoked? blocks v = some block := by
  induction blocks with
  | nil => simp at hb
  | cons c cs ih =>
    rw [List.map_cons, List.nodup_cons] at hd
    rw [invoked?_cons]
    rcases List.mem_cons.1 hb with rfl | hb
    · rw [if_pos ((hv _).2 rfl)]
    · have hname : c.blockName ≠ block.blockName := fun heq =>
        hd.1 (heq ▸ List.mem_map_of_mem hb)
      rw [if_neg (fun hc => hname ((hv _).1 hc)), ih hd.2 hb]

theorem invoked?_eq_none {blocks : List Element} {v : Value} {name : String}
    (hv : v.Invokes name) (hb : ∀ b ∈ blocks, b.blockName ≠ name) : invoked? blocks v = none := by
  rw [invoked?, List.find?_eq_none]
  intro b hmem hinvoked
  exact hb b hmem ((hv _).1 hinvoked)

/-! ### Yields -/

/-- The block that a yield is for, the default block if it does not say. -/
def Mustache.yieldBlock (m : Mustache) : String :=
  (((m.hash.get? Names.targetKey).bind Expr.string?).map Literal.value).getD Names.defaultBlock

/-- The markers made by the time that the values of a yield to a block are evaluated. -/
def Marks.announce (marks : Marks) (block : String) : Marks :=
  if block = Names.defaultBlock then marks else ⟨marks.made + 1⟩

/-- The values that a yield to a block passes: the default block gets none in front. -/
def Marks.passed (marks : Marks) (block : String) (vals : List Value) : List Value :=
  if block = Names.defaultBlock then vals else .marker ⟨marks.made, block⟩ :: vals

theorem Marks.drop_passed (marks : Marks) (block : String) (vals : List Value) :
    (marks.passed block vals).drop (slotOffset block) = vals := by
  unfold Marks.passed slotOffset
  split <;> rfl

/-- What is passed in slot 0 invokes the block. -/
theorem Marks.passed_invokes (marks : Marks) {block : String} {vals : List Value}
    (hfirst : block = Names.defaultBlock → ∀ k, vals.head? ≠ some (.marker k)) :
    ((marks.passed block vals)[0]?.getD Value.undefined).Invokes block := by
  unfold Marks.passed
  split
  next hd =>
    rw [hd]
    refine Value.invokes_default fun k hk => hfirst hd k ?_
    cases vals with
    | nil => cases hk
    | cons v vs => simpa using hk
  next => exact Value.marker_invokes _ _

theorem evalCall_markerCall {h : Host} {ρ : Env} (target : Literal String) :
    h.evalCall ρ (markerCall target) = liftM (mark target.value) := by
  have hreserved : isReserved Names.markHelper = true := by decide
  simp only [markerCall, evalCall, evalAll, eval, evalNamed, evalPairs, pure_bind, Host.apply,
    Path.ofText_text, hreserved, if_true]
  rfl

/-- **What a plain yield passes**: the values of its arguments, after a marker unless it is for the
default block. -/
theorem run_yield {m : Mustache} {scope : Scope} {r : Option Mustache}
    (hyield : outcome (m.desugarYield scope .standard) = .ok r)
    (htarget : ¬ IsInverseName m.yieldBlock) {h : Host} {ρ : Env} {marks marks' : Marks}
    {vals : List Value}
    (hvals : (h.evalAll ρ m.params).run (marks.announce m.yieldBlock) = (.ok vals, marks')) :
    (h.evalAll ρ (r.getD m).params).run marks = (.ok (marks.passed m.yieldBlock vals), marks') := by
  obtain ⟨-, ⟨hpairs, rfl⟩ | ⟨target, loc, hpairs, -, rfl⟩⟩ := Mustache.desugarYield_eq_ok.1 hyield
  · -- the yield stays as it is
    have hblock : m.yieldBlock = Names.defaultBlock := by
      simp [Mustache.yieldBlock, Hash.get?, hpairs]
    rw [hblock, Marks.announce, if_pos rfl] at hvals
    rw [hblock, Marks.passed, if_pos rfl]
    exact hvals
  · have hblock : m.yieldBlock = target.value := by
      simp [Mustache.yieldBlock, Hash.get?, hpairs, Expr.string?]
    rw [hblock] at hvals htarget ⊢
    change (h.evalAll ρ (m.yieldParams target)).run marks = _
    by_cases hd : target.value = Names.defaultBlock
    · rw [Marks.announce, if_pos hd] at hvals
      rw [Mustache.yieldParams, if_pos hd, Marks.passed, if_pos hd]
      exact hvals
    · rw [Marks.announce, if_neg hd] at hvals
      rw [Mustache.yieldParams, if_neg hd, if_neg htarget, Marks.passed, if_neg hd]
      -- the marker is made before the values are evaluated
      rw [evalAll, eval, evalCall_markerCall]
      have hmark : (liftM (mark target.value) : CallM Value).run marks =
          (.ok (.marker ⟨marks.made, target.value⟩), ⟨marks.made + 1⟩) := rfl
      rw [run_bind_ok hmark, run_bind_ok hvals]
      rfl

/-- A block's params are bound to the yielded values one by one, in an environment that differs from
the caller's in the slots only: the `i`-th param has the `i`-th value, undefined where there are too
few, and every other name that is no slot has the caller's value. -/
structure Receives (ρ ρ' : Env) (params slots : List String) (vals : List Value) : Prop where
  bound : ∃ base : Env, ρ' = base.bind params vals ∧ ∀ n ∉ slots, base.lookup n = ρ.lookup n
  param : ∀ i (hi : i < params.length), params[i] ∉ params.drop (i + 1) →
    ρ'.lookup params[i] = some (vals[i]?.getD .undefined)
  other : ∀ n, n ∉ params → n ∉ slots → ρ'.lookup n = ρ.lookup n

theorem receives_bind (ρ : Env) (params slots : List String) (passed vals : List Value) :
    Receives ρ ((ρ.bind slots passed).bind params vals) params slots vals where
  bound := ⟨_, rfl, fun _ hn => Env.lookup_bind_of_notMem hn⟩
  param _ hi hlast := Env.lookup_bind_getElem hi hlast
  other _ hn hslot := by rw [Env.lookup_bind_of_notMem hn, Env.lookup_bind_of_notMem hslot]

/-- **A block renders what is yielded to it.** A component yields to the blocks of an invocation
that was fanned out. The invocation's single child renders the children of the block that the yield
is for, with the yielded values in the block's params; it renders nothing if there is no such
block. -/
theorem render_yield {declaring e out : Element} {blocks : List Element} {m : Mustache}
    {scope : Scope} {r : Option Mustache} (component caller : Host) (σ ρ : Env)
    {marks marks' : Marks} {vals : List Value}
    (hblocks : declaring.namedBlocks = .ok blocks) (hlone : ¬ IsLoneDefault blocks)
    (hfan : outcome (e.fanOut .standard blocks) = .ok out)
    (hyield : outcome (m.desugarYield scope .standard) = .ok r)
    (htarget : ¬ IsInverseName m.yieldBlock)
    (hvals : (component.evalAll σ m.params).run (marks.announce m.yieldBlock) = (.ok vals, marks'))
    (hfirst : m.yieldBlock = Names.defaultBlock → ∀ k, vals.head? ≠ some (.marker k)) :
    ∃ child vals', out.children = [child] ∧
      (component.evalAll σ (r.getD m).params).run marks = (.ok vals', marks') ∧
      (∀ block ∈ blocks, block.blockName = m.yieldBlock →
        ∃ ρ', Receives ρ ρ' block.blockParams out.blockParams vals ∧
          caller.renderStatement (ρ.bind out.blockParams vals') child =
            caller.render ρ' block.children) ∧
      ((∀ block ∈ blocks, block.blockName ≠ m.yieldBlock) →
        caller.renderStatement (ρ.bind out.blockParams vals') child = pure "") := by
  have hdeclared := Element.areDeclared_of_namedBlocks hblocks
  obtain ⟨first, rest, rfl, rfl⟩ := Element.eq_fanned_of_fanOut hfan hlone
  have hpos := slotCount_pos hdeclared (by simp) hlone
  have hchain := renderCall_dispatchChain caller ρ (marks.passed m.yieldBlock vals) hpos
    fun b hb => le_slotCount hb
  have hslots : ρ.bindSlots (slotCount (first :: rest)) (marks.passed m.yieldBlock vals) =
      ρ.bind (e.fanned first rest).blockParams (marks.passed m.yieldBlock vals) := rfl
  rw [← renderStatement, hslots] at hchain
  have hinvokes := marks.passed_invokes hfirst
  refine ⟨.block (dispatchChain first rest), marks.passed m.yieldBlock vals, rfl,
    run_yield hyield htarget hvals, ?_, ?_⟩
  · -- no other block goes by the name, so the chain stops at this one
    intro block hb hblock
    refine ⟨_, receives_bind ρ _ _ (marks.passed m.yieldBlock vals) vals, ?_⟩
    have hinvoked := invoked?_eq_some hdeclared.2 hb (hblock ▸ hinvokes)
    rw [hblock] at hinvoked
    rw [hinvoked, renderInvoked, hblock, Marks.drop_passed] at hchain
    exact hchain
  · intro hnone
    rw [invoked?_eq_none hinvokes hnone, renderInvoked] at hchain
    exact hchain

/-- A footer with two params gets the one value that is yielded to it. -/
theorem render_yield_footer :
    let host : Host := {
      resolve := fun _ => .undefined
      select := fun _ _ => .undefined
      call := fun path _ _ _ => throw (.unknownHelper path.text)
      mustache := fun m ρ =>
        return ((m.path.path?.bind Path.head?).bind ρ.lookup).elim "" Value.display
      element := fun _ _ children => children []
      block := fun _ _ program _ => program []
      comment := fun _ => "" }
    let main : Element := { tag := ":default", blockParams := ["a"] }
    let footer : Element := {
      tag := ":footer"
      blockParams := ["a", "b"]
      children := [.mustache { path := .path (.ofText "a" {}) }] }
    let e : Element := { tag := "Card", children := [.element main, .element footer] }
    let target : Literal String := { value := "footer" }
    let m : Mustache := {
      path := .path (.ofText "yield" {})
      params := [.string { value := "end" }]
      hash := { pairs := [{ key := "to", value := .string target }] } }
    e.namedBlocks = .ok [main, footer] ∧
      outcome (e.fanOut .standard [main, footer]) = .ok (e.fanned main [footer]) ∧
      outcome (m.desugarYield .root .standard) = .ok (some (m.yieldTo target)) ∧
      ∃ child vals', (e.fanned main [footer]).children = [child] ∧
        (host.evalAll {} (m.yieldTo target).params).run {} = (.ok vals', ⟨1⟩) ∧
        ∃ ρ', Receives {} ρ' ["a", "b"] (e.fanned main [footer]).blockParams [.string "end"] ∧
          host.renderStatement (Env.bind {} (e.fanned main [footer]).blockParams vals') child =
            host.render ρ' footer.children := by
  intro host main footer e target m
  have hblocks : e.namedBlocks = .ok [main, footer] := by decide +kernel
  have hlone : ¬ IsLoneDefault [main, footer] := by
    rintro ⟨only, hone, -⟩
    simp at hone
  have hfan := Element.outcome_fanOut_cons (e := e) ⟨rfl, by simp [e]⟩ hlone
  have hyield : outcome (m.desugarYield .root .standard) = .ok (some (m.yieldTo target)) := by
    decide +kernel
  have hvals : (host.evalAll {} m.params).run (Marks.announce {} m.yieldBlock) =
      (.ok [.string "end"], ⟨1⟩) := rfl
  obtain ⟨child, vals', hchild, hpassed, hrender, -⟩ :=
    render_yield host host {} {} hblocks hlone hfan hyield (by decide) hvals (by simp)
  exact ⟨hblocks, hfan, hyield, child, vals', hchild, hpassed, hrender footer (by simp) (by decide)⟩

end TemplateBlocks
