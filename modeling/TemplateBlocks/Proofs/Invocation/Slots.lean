import Mathlib.Data.List.Nodup
import Mathlib.Order.Bounds.Defs
import Mathlib.Order.MinMax
import TemplateBlocks.Proofs.Calls
import TemplateBlocks.Proofs.Invocation.Fanned

/-!
# Slots

The block params that a fanned-out invocation binds. Slot 0 carries the marker that every branch
tests; a block with params reads them from the slots after its offset. An invocation binds as many
slots as the branches read, and no more.

* `nodup_slots`, `ofText_slot`: the slots have distinct names, each the path of one variable;
* `chainReads_dispatchChain`: which slots the chain of branches reads;
* `isLeast_slotCount`: the number of slots is the least that covers them.
-/

namespace TemplateBlocks

/-! ### Names -/

theorem slot_injective : Function.Injective Names.slot := by
  intro i j h
  have hdigits : Nat.repr i = Nat.repr j := (String.append_right_inj "__arg").1 h
  have hread := congrArg (fun s => Nat.ofDigitChars 10 s.toList 0) hdigits
  simpa using hread

theorem toList_slot (i : Nat) :
    (Names.slot i).toList = '_' :: '_' :: 'a' :: 'r' :: 'g' :: Nat.toDigits 10 i := by
  simp [Names.slot, toString, String.toList_append]

/-- The path of a slot is its name. -/
theorem ofText_slot (i : Nat) (loc : Span) : Path.ofText (Names.slot i) loc =
    { text := Names.slot i, parts := [Names.slot i], loc } := by
  have hdot : '.' ∉ (Names.slot i).toList := by
    rw [toList_slot]
    -- what is left are digits
    simp only [List.mem_cons, Char.reduceEq, false_or]
    intro hmem
    have hdigit := Nat.isDigit_of_mem_toDigits (by decide) (by decide) hmem
    exact absurd hdigit (by decide)
  have hdata : ¬ ['@'] <+: (Names.slot i).toList := by simp [toList_slot]
  have hempty : Names.slot i ≠ "" := by
    intro heq
    simpa [toList_slot] using congrArg String.toList heq
  have hthis : Names.slot i ≠ "this" := by
    intro heq
    simpa [toList_slot] using congrArg String.toList heq
  exact (Path.reading_ofText _ loc).eq_name hempty hthis hdata hdot

/-- The names of the slots are distinct. -/
theorem nodup_slots (count : Nat) : ((List.range count).map Names.slot).Nodup :=
  List.Nodup.map slot_injective List.nodup_range

/-- The reference to a slot. -/
def slotPath (i : Nat) : Path := .ofText (Names.slot i) .synthetic

theorem slotPath_injective : Function.Injective slotPath := by
  intro i j h
  exact slot_injective (by simpa [slotPath] using congrArg Path.text h)

/-! ### How many there are -/

/-- The slots that an invocation binds are those of its blocks. -/
theorem lt_slotCount {blocks : List Element} {k : Nat} : k < slotCount blocks ↔
    ∃ b ∈ blocks, k < b.blockParams.length + slotOffset b.blockName := by
  unfold slotCount
  induction blocks with
  | nil => simp
  | cons c cs ih => rw [List.map_cons, List.foldr_cons, lt_max_iff, ih,
    List.exists_mem_cons_iff]

theorem le_slotCount {blocks : List Element} {b : Element} (hb : b ∈ blocks) :
    b.blockParams.length + slotOffset b.blockName ≤ slotCount blocks := by
  by_contra hlt
  exact Nat.lt_irrefl _ (lt_slotCount.2 ⟨b, hb, Nat.not_le.1 hlt⟩)

/-- Among several blocks, or if the only one is not the default block, one is not the default
block. -/
theorem exists_blockName_ne {blocks : List Element} (hd : Element.AreDeclared blocks)
    (hne : blocks ≠ []) (hlone : ¬ IsLoneDefault blocks) :
    ∃ b ∈ blocks, b.blockName ≠ Names.defaultBlock := by
  by_contra hall
  push Not at hall
  match blocks, hne with
  | [only], _ =>
    refine hlone ⟨only, rfl, ?_⟩
    rw [Element.blockName?_of_isDeclaration (hd.1 only (by simp)), hall only (by simp)]
  | a :: b :: _, _ =>
    have hnames := hd.2
    simp [hall a (by simp), hall b (by simp)] at hnames

theorem slotCount_pos {blocks : List Element} (hd : Element.AreDeclared blocks)
    (hne : blocks ≠ []) (hlone : ¬ IsLoneDefault blocks) : 0 < slotCount blocks := by
  obtain ⟨b, hb, hname⟩ := exists_blockName_ne hd hne hlone
  have hle := le_slotCount hb
  rw [slotOffset, if_neg hname] at hle
  omega

/-! ### Which of them are read -/

/-- The variables that a chain of branches reads on its own account, not in the children of its
blocks: in the tests, and in the statements that wrap the children of blocks with params. -/
inductive ChainReads : List Element → BlockStatement → Path → Prop
  | test {block : Element} {rest : List Element} {branch : BlockStatement} {call : SubExpr}
      {p : Path} (hcall : .sub call ∈ branch.params) (hp : .path p ∈ call.params) :
      ChainReads (block :: rest) branch p
  | wrapper {block : Element} {rest : List Element} {branch wrapper : BlockStatement} {p : Path}
      (hparams : block.blockParams ≠ []) (hwrapper : .block wrapper ∈ branch.program.body)
      (hp : .path p ∈ wrapper.params) : ChainReads (block :: rest) branch p
  | later {block : Element} {rest : List Element} {branch next : BlockStatement} {inverse : Block}
      {p : Path} (hinverse : branch.inverse = some inverse) (hnext : .block next ∈ inverse.body)
      (hp : ChainReads rest next p) : ChainReads (block :: rest) branch p

theorem mem_slots {block : Element} {p : Path} : .path p ∈ block.slots ↔
    ∃ i < block.blockParams.length, p = slotPath (i + slotOffset block.blockName) := by
  simp [Element.slots, slotPath, eq_comm]

/-- The wrapper of a block with params is all that its branch holds. -/
theorem branchBody_of_params {block : Element} (h : block.blockParams ≠ []) :
    block.branchBody.body = [.block block.letSlots] := by
  have hempty : block.blockParams.isEmpty = false := by simpa using h
  simp [Element.branchBody, hempty]

theorem mem_markerTest {block : Element} {p : Path} :
    .path p ∈ block.markerTest.params ↔ p = slotPath 0 := by
  simp [Element.markerTest, slotPath]

/-- A branch reads slot 0, the slots of its block's params, and what the branches after it read. -/
theorem chainReads_branch {block : Element} {rest : List Element} {inverse : Option Block}
    {p : Path} :
    ChainReads (block :: rest) { block.branch with inverse } p ↔
      p = slotPath 0 ∨
      (∃ i < block.blockParams.length, p = slotPath (i + slotOffset block.blockName)) ∨
      ∃ body next, inverse = some body ∧ .block next ∈ body.body ∧ ChainReads rest next p := by
  constructor
  · intro h
    cases h with
    | test hcall hp =>
      obtain rfl : _ = block.markerTest := by simpa [Element.branch] using hcall
      exact .inl (mem_markerTest.1 hp)
    | wrapper hparams hwrapper hp =>
      have hwrapper : _ ∈ block.branchBody.body := hwrapper
      obtain rfl : _ = block.letSlots := by simpa [branchBody_of_params hparams] using hwrapper
      exact .inr (.inl (mem_slots.1 hp))
    | later hinverse hnext hp => exact .inr (.inr ⟨_, _, hinverse, hnext, hp⟩)
  · rintro (hp | ⟨i, hi, hp⟩ | ⟨body, next, hinverse, hnext, hp⟩)
    · have hcall : Expr.sub block.markerTest ∈ block.branch.params := by simp [Element.branch]
      exact .test hcall (mem_markerTest.2 hp)
    · have hparams : block.blockParams ≠ [] := List.ne_nil_of_length_pos (by omega)
      have hwrapper : Statement.block block.letSlots ∈ block.branchBody.body := by
        simp [branchBody_of_params hparams]
      exact .wrapper hparams hwrapper (mem_slots.2 ⟨i, hi, hp⟩)
    · exact .later hinverse hnext hp

/-- **The chain reads slot 0 and the slots of the blocks' params.** -/
theorem chainReads_dispatchChain {first : Element} {rest : List Element} {p : Path} :
    ChainReads (first :: rest) (dispatchChain first rest) p ↔
      p = slotPath 0 ∨ ∃ b ∈ first :: rest, ∃ i < b.blockParams.length,
        p = slotPath (i + slotOffset b.blockName) := by
  induction rest generalizing first with
  | nil =>
    rw [show dispatchChain first [] = { first.branch with inverse := none } from rfl,
      chainReads_branch]
    simp
  | cons next rest ih =>
    rw [dispatchChain, chainReads_branch]
    constructor
    · rintro (hp | hp | ⟨body, branch, hbody, hbranch, hp⟩)
      · exact .inl hp
      · exact .inr ⟨first, by simp, hp⟩
      · cases hbody
        obtain rfl : branch = dispatchChain next rest := by simpa using hbranch
        rcases ih.1 hp with hp | ⟨b, hb, hp⟩
        · exact .inl hp
        · exact .inr ⟨b, List.mem_cons_of_mem _ hb, hp⟩
    · rintro (hp | ⟨b, hb, hp⟩)
      · exact .inl hp
      · rcases List.mem_cons.1 hb with rfl | hb
        · exact .inr (.inl hp)
        · exact .inr (.inr ⟨_, _, rfl, List.mem_singleton_self _, ih.2 (.inr ⟨b, hb, hp⟩)⟩)

/-- **Exactly the slots that an invocation binds are read.** -/
theorem chainReads_iff {first : Element} {rest : List Element}
    (hpos : 0 < slotCount (first :: rest)) {p : Path} :
    ChainReads (first :: rest) (dispatchChain first rest) p ↔
      ∃ k < slotCount (first :: rest), p = slotPath k := by
  rw [chainReads_dispatchChain]
  constructor
  · rintro (rfl | ⟨b, hb, i, hi, rfl⟩)
    · exact ⟨0, hpos, rfl⟩
    · exact ⟨_, lt_slotCount.2 ⟨b, hb, by omega⟩, rfl⟩
  · rintro ⟨k, hk, rfl⟩
    obtain ⟨b, hb, hk⟩ := lt_slotCount.1 hk
    by_cases hoffset : k < slotOffset b.blockName
    · -- the offset of a block is at most one
      have hle : slotOffset b.blockName ≤ 1 := by
        unfold slotOffset
        split <;> omega
      obtain rfl : k = 0 := by omega
      exact .inl rfl
    · refine .inr ⟨b, hb, k - slotOffset b.blockName, by omega, ?_⟩
      rw [Nat.sub_add_cancel (Nat.not_lt.1 hoffset)]

/-- **The number of slots is the least that covers all that is read.** -/
theorem isLeast_slotCount {first : Element} {rest : List Element}
    (hpos : 0 < slotCount (first :: rest)) :
    IsLeast {n | ∀ k, ChainReads (first :: rest) (dispatchChain first rest) (slotPath k) → k < n}
      (slotCount (first :: rest)) := by
  constructor
  · intro k hk
    obtain ⟨j, hj, heq⟩ := (chainReads_iff hpos).1 hk
    rwa [slotPath_injective heq]
  · intro n hn
    by_contra hlt
    have hread := (chainReads_iff hpos).2 ⟨n, Nat.not_le.1 hlt, rfl⟩
    exact Nat.lt_irrefl n (hn n hread)

end TemplateBlocks
