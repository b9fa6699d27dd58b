import TemplateBlocks.Proofs.Decimal.Counts
import TemplateBlocks.Proofs.Invocation.Slots

/-!
# The metadata of fanned-out invocations

Blocks have distinct names, so the metadata of an invocation has an entry for each of its blocks, in
their order. It is written as numbers and read back as counts, which is exact for counts that a
double-precision number can hold.

* `Metadata.arities_ofBlocks`: the entries of the metadata;
* `Metadata.ofInvocation?_fanned`: the metadata that a fanned-out invocation carries is that of its
  blocks;
* `Element.fanOut_exact`: all that a fanned-out invocation keeps, carries and binds.
-/

namespace TemplateBlocks

/-! ### Entries with distinct keys -/

namespace Entries

variable {α : Type}

theorem put_of_notMem {key : String} {value : α} {es : List (String × α)}
    (h : key ∉ es.map Prod.fst) : put key value es = es ++ [(key, value)] := by
  induction es with
  | nil => rfl
  | cons e es ih =>
    obtain ⟨he, hes⟩ : key ≠ e.1 ∧ key ∉ es.map Prod.fst := by simpa using h
    rw [put, if_neg (Ne.symm he), ih hes, List.cons_append]

/-- Distinct keys stay in their places. -/
theorem ofList_of_nodup {pairs : List (String × α)} (h : (pairs.map Prod.fst).Nodup) :
    ofList pairs = pairs := by
  have hfold (es rest : List (String × α)) (h : ((es ++ rest).map Prod.fst).Nodup) :
      rest.foldl (fun es p => put p.1 p.2 es) es = es ++ rest := by
    induction rest generalizing es with
    | nil => simp
    | cons p rest ih =>
      have hp : p.1 ∉ es.map Prod.fst := by
        rw [List.map_append, List.map_cons] at h
        exact fun hmem => (List.disjoint_of_nodup_append h) hmem (List.mem_cons_self ..)
      rw [List.foldl_cons, put_of_notMem hp, ih _ (by simpa using h)]
      simp
  exact hfold [] pairs h

end Entries

/-! ### Writing and reading -/

namespace Metadata

/-- **The metadata has one entry for each block**, in order. -/
theorem arities_ofBlocks {blocks : List Element} (hd : (blocks.map Element.blockName).Nodup) :
    (ofBlocks blocks).arities = blocks.map fun b => (b.blockName, b.blockParams.length) :=
  Entries.ofList_of_nodup (by simpa [Function.comp_def] using hd)

/-- Counts that fit a number are read as they were written. -/
theorem aritiesOf?_arityPairs {arities : List (String × Nat)}
    (h : ∀ a ∈ arities, a.2 < Nat.pow 2 53) :
    aritiesOf? (arities.map fun a => arityPair a.1 a.2) = some arities := by
  induction arities with
  | nil => rfl
  | cons a as ih =>
    have ha := Binary64.toNat_ofNat (h a (by simp))
    have has := ih fun b hb => h b (List.mem_cons_of_mem _ hb)
    rw [aritiesOf?] at has ⊢
    rw [List.map_cons, List.mapM_cons, has]
    simp [arityPair, ha]

/-- **A fanned-out invocation carries the metadata of its blocks.** -/
theorem ofInvocation?_fanned {e first : Element} {rest : List Element} (he : e.IsFannable)
    (hd : ((first :: rest).map Element.blockName).Nodup)
    (hcount : ∀ b ∈ first :: rest, b.blockParams.length < Nat.pow 2 53) :
    ofInvocation? (e.fanned first rest) = some (ofBlocks (first :: rest)) := by
  -- the invocation had no such argument before
  have hfind : (e.fanned first rest).attributes.find? (fun a => a.name == Names.metadataArgument) =
      some (ofBlocks (first :: rest)).attribute := by
    have hnone : e.attributes.find? (fun a => a.name == Names.metadataArgument) = none := by
      simpa using he.2
    simp [Element.fanned, List.find?_append, hnone, Metadata.attribute]
  have harities := arities_ofBlocks hd
  have hread : aritiesOf? ((ofBlocks (first :: rest)).arities.map fun a => arityPair a.1 a.2) =
      some (ofBlocks (first :: rest)).arities := by
    apply aritiesOf?_arityPairs
    rw [harities]
    simpa using hcount
  have hentries : Entries.ofList (ofBlocks (first :: rest)).arities =
      (ofBlocks (first :: rest)).arities := by
    apply Entries.ofList_of_nodup
    rw [harities]
    simpa [Function.comp_def] using hd
  simp [ofInvocation?, hfind, Metadata.attribute, hashCall, hread, hentries]

end Metadata

/-! ### Invocations -/

namespace Element

/-- **What a fanned-out invocation carries, keeps and binds.** It carries the metadata of its
blocks, with one entry for each; it keeps the rest of the invocation beside its children; and it
binds distinct slots, just as many as the tests and wrappers of its branches read. -/
theorem fanOut_exact {e out : Element} {blocks : List Element}
    (hblocks : e.namedBlocks = .ok blocks) (hlone : ¬ IsLoneDefault blocks)
    (hcount : ∀ b ∈ blocks, b.blockParams.length < Nat.pow 2 53)
    (hfan : outcome (e.fanOut .standard blocks) = .ok out) :
    Metadata.ofInvocation? out = some (.ofBlocks blocks) ∧
    (Metadata.ofBlocks blocks).arities =
      blocks.map (fun b => (b.blockName, b.blockParams.length)) ∧
    (out.tag = e.tag ∧ out.modifiers = e.modifiers ∧ out.comments = e.comments ∧
      out.loc = e.loc) ∧
    out.attributes = e.attributes ++ [(Metadata.ofBlocks blocks).attribute] ∧
    out.blockParams = (List.range (slotCount blocks)).map Names.slot ∧
    out.blockParams.Nodup ∧ 1 ≤ slotCount blocks ∧
    ∃ chain, out.children = [.block chain] ∧
      (∀ p, ChainReads blocks chain p ↔ ∃ k < slotCount blocks, p = slotPath k) ∧
      IsLeast {n | ∀ k, ChainReads blocks chain (slotPath k) → k < n} (slotCount blocks) := by
  have hdeclared := areDeclared_of_namedBlocks hblocks
  have he := isFannable_of_fanOut hfan
  obtain ⟨first, rest, rfl, rfl⟩ := eq_fanned_of_fanOut hfan hlone
  have hpos := slotCount_pos hdeclared (by simp) hlone
  exact ⟨Metadata.ofInvocation?_fanned he hdeclared.2 hcount,
    Metadata.arities_ofBlocks hdeclared.2, ⟨rfl, rfl, rfl, rfl⟩, rfl, rfl, nodup_slots _, hpos,
    dispatchChain first rest, rfl, fun _ => chainReads_iff hpos, isLeast_slotCount hpos⟩

/-- A default block with two params needs slots 0 and 1, a footer with two needs slots 1 and 2. -/
theorem fanOut_exact_card :
    let main : Element := { tag := ":default", blockParams := ["item", "index"] }
    let footer : Element := { tag := ":footer", blockParams := ["left", "right"] }
    let e : Element := { tag := "Card", children := [.element main, .element footer] }
    let out := e.fanned main [footer]
    e.namedBlocks = .ok [main, footer] ∧
      outcome (e.fanOut .standard [main, footer]) = .ok out ∧
      Metadata.ofInvocation? out = some ⟨[("default", 2), ("footer", 2)]⟩ ∧
      out.blockParams = ["__arg0", "__arg1", "__arg2"] ∧
      ∃ chain, out.children = [.block chain] ∧
        IsLeast {n | ∀ k, ChainReads [main, footer] chain (slotPath k) → k < n} 3 := by
  intro main footer e out
  have hblocks : e.namedBlocks = .ok [main, footer] := by decide +kernel
  have hlone : ¬ IsLoneDefault [main, footer] := by
    rintro ⟨only, hone, -⟩
    simp at hone
  have hcount : ∀ b ∈ [main, footer], b.blockParams.length < Nat.pow 2 53 := by decide
  have hfan : outcome (e.fanOut .standard [main, footer]) = .ok out :=
    outcome_fanOut_cons ⟨rfl, by simp [e]⟩ hlone
  obtain ⟨hmeta, harities, -, -, hparams, -, -, chain, hchain, -, hleast⟩ :=
    fanOut_exact hblocks hlone hcount hfan
  have hinfo : Metadata.ofBlocks [main, footer] = ⟨[("default", 2), ("footer", 2)]⟩ := by
    decide +kernel
  have hslots : slotCount [main, footer] = 3 := by decide +kernel
  have hnames : (List.range 3).map Names.slot = ["__arg0", "__arg1", "__arg2"] := by decide +kernel
  rw [hslots] at hparams hleast
  exact ⟨hblocks, hfan, hinfo ▸ hmeta, hparams.trans hnames, chain, hchain, hleast⟩

end Element

end TemplateBlocks
