import TemplateBlocks.Proofs.Render.Dispatch
import TemplateBlocks.Proofs.Render.Nesting

/-!
# Markers in a session

Where the markers of a session come from. A marker is made in one step, by asking for it or through
the helper, and gets around when registers are copied into arrays, hashes and other registers.
`Traced` follows it back, from wherever it stands to the step that made it, along the operands of
the steps. Markers are numbered as they are made, and their numbers agree with the steps that they
are traced to (`Traced.holds`): so two markers are equal exactly if one step made them, and each
answers to the name that this step gave (`markers_traced`).
-/

namespace TemplateBlocks

/-! ### What helpers return -/

section Calls

variable {params : List Value} {hash : List (String × Value)} {v : Value}

theorem exists_bool_of_callTest (h : Helper.callTest params hash = .ok v) : ∃ b, v = .bool b := by
  unfold Helper.callTest at h
  split at h
  next =>
    obtain ⟨_, -, h⟩ := bind_eq_ok.1 h
    obtain ⟨_, -, h⟩ := bind_eq_ok.1 h
    cases h
    exact ⟨_, rfl⟩
  next => cases h

theorem exists_bool_of_callQuery {helper : String} {bindsParams : Bool}
    (h : Helper.callQuery helper bindsParams params hash = .ok v) : ∃ b, v = .bool b := by
  unfold Helper.callQuery at h
  split at h
  next =>
    obtain ⟨_, -, h⟩ := bind_eq_ok.1 h
    obtain ⟨_, -, h⟩ := bind_eq_ok.1 h
    obtain ⟨_, -, h⟩ := bind_eq_ok.1 h
    obtain ⟨_, -, h⟩ := bind_eq_ok.1 h
    cases h
    exact ⟨_, rfl⟩
  next => cases h

theorem callMark_cases (params : List Value) (hash : List (String × Value)) (marks : Marks) :
    (∃ block, params = [.string block] ∧ hash = []) ∨
      ∃ e, (Helper.callMark params hash).run marks = (.error e, marks) := by
  unfold Helper.callMark
  split
  next name =>
    cases hash with
    | cons p ps => exact .inr ⟨_, rfl⟩
    | nil =>
      cases name with
      | string block => exact .inl ⟨block, rfl, rfl⟩
      | _ => exact .inr ⟨_, rfl⟩
  next => exact .inr ⟨_, rfl⟩

/-- **Only one helper makes markers**, and only if it is called with a name and nothing else. All
other calls end in a truth value or an error, and make none. -/
theorem call_cases (helper : String) (params : List Value) (hash : List (String × Value))
    (marks : Marks) :
    (∃ block, helper = Names.markHelper ∧ params = [.string block] ∧ hash = []) ∨
      ∃ r, (Helper.call helper params hash).run marks = (r, marks) ∧
        ∀ v, r = .ok v → ∃ b, v = .bool b := by
  unfold Helper.call
  split
  next hmark =>
    rcases callMark_cases params hash marks with ⟨block, hparams, hhash⟩ | ⟨e, he⟩
    · exact .inl ⟨block, hmark, hparams, hhash⟩
    · exact .inr ⟨_, he, by simp⟩
  split
  next => exact .inr ⟨_, rfl, fun v => exists_bool_of_callTest⟩
  split
  next => exact .inr ⟨_, rfl, fun v => exists_bool_of_callQuery⟩
  split
  next => exact .inr ⟨_, rfl, fun v => exists_bool_of_callQuery⟩
  next => exact .inr ⟨.error (.unknownHelper helper), rfl, by simp⟩

end Calls

/-! ### Steps -/

namespace Step

/-- The operands of a step. -/
def operands : Step → List Operand
  | .value v => [v]
  | .mark _ => []
  | .isInvocationOf v _ => [v]
  | .isTruthy v => [v]
  | .isMetadata v => [v]
  | .same a b => [a, b]
  | .display v => [v]
  | .call _ params hash => params ++ hash.map Prod.snd

/-- A step that makes a marker, and the block that it makes it for. -/
inductive Marks (registers : List Value) : Step → String → Prop
  | directly (block : String) : Marks registers (.mark block) block
  | byHelper {name : Operand} {block : String} : Session.eval registers name = .string block →
      Marks registers (.call Names.markHelper [name] []) block

theorem Marks.unique {registers : List Value} {a : Step} {block block' : String}
    (h : a.Marks registers block) (h' : a.Marks registers block') : block = block' := by
  cases h with
  | directly =>
    cases h'
    rfl
  | byHelper hname =>
    cases h' with
    | byHelper hname' => exact Value.string.inj (hname.symm.trans hname')

end Step

namespace Session

/-- What a step leaves in its register: its result, or an undefined value if it fails. -/
def kept (r : Except CallError Value) : Value := r.toOption.getD .undefined

theorem step_eq {s : Session} {a : Step} {r : Except CallError Value} {marks : Marks}
    (h : (perform s.registers a).run s.marks = (r, marks)) :
    s.step a = (r, { registers := s.registers ++ [kept r], marks }) := by
  unfold step
  rw [h]
  cases r <;> rfl

theorem registers_step (s : Session) (a : Step) :
    (s.step a).2.registers = s.registers ++ [kept (s.step a).1] := by
  rw [step_eq rfl]

theorem step_of_marks {s : Session} {a : Step} {block : String} (h : a.Marks s.registers block) :
    s.step a = (.ok (.marker ⟨s.marks.made, block⟩),
      { registers := s.registers ++ [.marker ⟨s.marks.made, block⟩]
        marks := ⟨s.marks.made + 1⟩ }) := by
  cases h with
  | directly => rfl
  | @byHelper name _ hname =>
    have hrun : (perform s.registers (.call Names.markHelper [name] [])).run s.marks =
        (.ok (.marker ⟨s.marks.made, block⟩), ⟨s.marks.made + 1⟩) := by
      rw [perform, evalItems, hname]
      rfl
    rw [step_eq hrun]
    rfl

theorem marks_byHelper {registers : List Value} {params : List Operand}
    {hash : List (String × Operand)} {block : String}
    (hparams : evalItems registers params = [.string block])
    (hhash : Entries.ofList (evalEntries registers hash) = []) :
    (Step.call Names.markHelper params hash).Marks registers block := by
  rw [evalItems_eq_map, List.map_eq_singleton_iff] at hparams
  obtain ⟨name, rfl, hname⟩ := hparams
  rw [Entries.ofList_eq_nil, evalEntries_eq_map, List.map_eq_nil_iff] at hhash
  subst hhash
  exact .byHelper hname

/-- **What a step can do**: copy the value that an operand names, make a marker, or leave a flat
value. -/
theorem step_cases (s : Session) (a : Step) :
    (∃ o, a = .value o) ∨ (∃ block, a.Marks s.registers block) ∨
      (kept (s.step a).1).isFlat ∧ (s.step a).2.marks = s.marks := by
  cases a with
  | value o => exact .inl ⟨o, rfl⟩
  | mark block => exact .inr (.inl ⟨block, .directly block⟩)
  | isInvocationOf v block => exact .inr (.inr ⟨rfl, rfl⟩)
  | isTruthy v => exact .inr (.inr ⟨rfl, rfl⟩)
  | isMetadata v => exact .inr (.inr ⟨rfl, rfl⟩)
  | same a b => exact .inr (.inr ⟨rfl, rfl⟩)
  | display v => exact .inr (.inr ⟨rfl, rfl⟩)
  | call helper params hash =>
    rcases call_cases helper (evalItems s.registers params)
      (Entries.ofList (evalEntries s.registers hash)) s.marks with
      ⟨block, rfl, hparams, hhash⟩ | ⟨r, hr, hbool⟩
    · exact .inr (.inl ⟨block, marks_byHelper hparams hhash⟩)
    · have hrun : (perform s.registers (.call helper params hash)).run s.marks = (r, s.marks) := hr
      rw [step_eq hrun]
      refine .inr (.inr ⟨?_, rfl⟩)
      cases r with
      | error e => rfl
      | ok v =>
        obtain ⟨b, rfl⟩ := hbool v rfl
        rfl

theorem made_step (s : Session) (a : Step) : s.marks.made ≤ (s.step a).2.marks.made := by
  rcases s.step_cases a with ⟨o, rfl⟩ | ⟨block, hblock⟩ | ⟨-, hmarks⟩
  · exact le_rfl
  · rw [step_of_marks hblock]
    exact Nat.le_succ _
  · rw [hmarks]

/-! ### Runs -/

/-- The session after some steps. -/
def after (s : Session) (steps : List Step) : Session := steps.foldl (fun s a => (s.step a).2) s

theorem after_append (s : Session) (steps more : List Step) :
    s.after (steps ++ more) = (s.after steps).after more := List.foldl_append

/-- The registers hold what the run returns, step by step. -/
theorem registers_after (s : Session) (steps : List Step) :
    (s.after steps).registers = s.registers ++ (s.run steps).map kept := by
  induction steps generalizing s with
  | nil => simp [after, run]
  | cons a steps ih =>
    change ((s.step a).2.after steps).registers = _
    rw [ih, registers_step, run, List.map_cons, List.append_assoc]
    rfl

theorem length_run (s : Session) (steps : List Step) : (s.run steps).length = steps.length := by
  induction steps generalizing s with
  | nil => rfl
  | cons a steps ih =>
    rw [run, List.length_cons, List.length_cons, ih]

theorem made_after (s : Session) (steps : List Step) :
    s.marks.made ≤ (s.after steps).marks.made := by
  induction steps generalizing s with
  | nil => exact le_rfl
  | cons a steps ih => exact (s.made_step a).trans (ih (s.step a).2)

/-- A new session when the first `n` of its steps have been performed. -/
def pointAt (steps : List Step) (n : Nat) : Session := ({} : Session).after (steps.take n)

variable {steps : List Step} {n n' j k k' : Nat} {a : Step} {block : String}

theorem pointAt_succ (ha : steps[n]? = some a) :
    pointAt steps (n + 1) = ((pointAt steps n).step a).2 := by
  rw [pointAt, List.take_add_one, ha, after_append]
  rfl

theorem pointAt_add (steps : List Step) (n d : Nat) :
    pointAt steps (n + d) = (pointAt steps n).after ((steps.drop n).take d) := by
  rw [pointAt, List.take_add, after_append]
  rfl

theorem length_registers_pointAt : (pointAt steps n).registers.length = min n steps.length := by
  simp [pointAt, registers_after, length_run]

/-- Registers stay as they are. -/
theorem registers_pointAt_prefix (h : n ≤ n') :
    (pointAt steps n).registers <+: (pointAt steps n').registers := by
  obtain ⟨d, rfl⟩ := Nat.exists_eq_add_of_le h
  rw [pointAt_add, registers_after]
  exact List.prefix_append _ _

theorem made_pointAt (h : n ≤ n') :
    (pointAt steps n).marks.made ≤ (pointAt steps n').marks.made := by
  obtain ⟨d, rfl⟩ := Nat.exists_eq_add_of_le h
  rw [pointAt_add]
  exact made_after _ _

/-- A register holds, from its step on, what the step left. -/
theorem eval_register_of_lt (hj : j < n) (ha : steps[j]? = some a) :
    eval (pointAt steps n).registers (.register j) = kept ((pointAt steps j).step a).1 := by
  have hlen : j = (pointAt steps j).registers.length := by
    rw [length_registers_pointAt]
    exact (min_eq_left (List.getElem?_eq_some_iff.1 ha).1.le).symm
  have hprefix : (pointAt steps (j + 1)).registers <+: _ := registers_pointAt_prefix hj
  obtain ⟨rest, hrest⟩ := hprefix
  rw [eval, ← hrest, pointAt_succ ha, registers_step, List.append_assoc,
    List.getElem?_append_right hlen.ge, ← hlen, Nat.sub_self]
  rfl

theorem eval_register_of_none (hj : steps[j]? = none ∨ n ≤ j) :
    eval (pointAt steps n).registers (.register j) = .undefined := by
  have hlen : (pointAt steps n).registers.length ≤ j := by
    rw [length_registers_pointAt]
    rcases hj with hj | hj
    · exact (min_le_right _ _).trans (List.getElem?_eq_none_iff.1 hj)
    · exact (min_le_left _ _).trans hj
  rw [eval, List.getElem?_eq_none hlen]
  rfl

/-- At a place in the value that an operand names stands a marker. -/
def Holds (s : Session) (o : Operand) (place : List Value.Index) (m : Marker) : Prop :=
  (eval s.registers o).at? place = some (.marker m)

/-- The number of a marker is not used again. -/
theorem made_lt_of_marks (hk : steps[k]? = some a) (h : a.Marks (pointAt steps k).registers block)
    (hlt : k < k') : (pointAt steps k).marks.made < (pointAt steps k').marks.made := by
  have hnext : (pointAt steps (k + 1)).marks.made = (pointAt steps k).marks.made + 1 := by
    rw [pointAt_succ hk, step_of_marks h]
  have hle : (pointAt steps (k + 1)).marks.made ≤ (pointAt steps k').marks.made := made_pointAt hlt
  omega

end Session

/-! ### Where a marker comes from -/

/-- After `n` steps, the operand names a value that at a place holds a copy of the marker that step
`maker` made for a block. -/
inductive Traced (steps : List Step) :
    (n : Nat) → Operand → (place : List Value.Index) → (maker : Nat) → (block : String) → Prop
  | made {n k : Nat} {a : Step} {block : String} : k < n → steps[k]? = some a →
      a.Marks (Session.pointAt steps k).registers block →
      Traced steps n (.register k) [] k block
  | copied {n j k : Nat} {o : Operand} {place : List Value.Index} {block : String} : j < n →
      steps[j]? = some (.value o) → Traced steps j o place k block →
      Traced steps n (.register j) place k block
  | part {n k : Nat} {o o' : Operand} {i : Value.Index} {place : List Value.Index}
      {block : String} : o.part? i = some o' → Traced steps n o' place k block →
      Traced steps n o (i :: place) k block

namespace Traced

open Session

variable {steps : List Step} {n n' k k' : Nat} {o o' : Operand} {place place' : List Value.Index}
  {block block' : String}

theorem mono (h : Traced steps n o place k block) (hn : n ≤ n') :
    Traced steps n' o place k block := by
  induction h generalizing n' with
  | made hk ha hmarks => exact .made (hk.trans_le hn) ha hmarks
  | copied hj ha hcopied => exact .copied (hj.trans_le hn) ha hcopied
  | part hpart _ ih => exact .part hpart (ih hn)

theorem marks (h : Traced steps n o place k block) :
    ∃ a, steps[k]? = some a ∧ a.Marks (pointAt steps k).registers block := by
  induction h with
  | made _ ha hmarks => exact ⟨_, ha, hmarks⟩
  | copied _ _ _ ih => exact ih
  | part _ _ ih => exact ih

/-- **The number of a marker tells the step that made it.** -/
theorem holds (h : Traced steps n o place k block) :
    (pointAt steps n).Holds o place ⟨(pointAt steps k).marks.made, block⟩ := by
  induction h with
  | made hk ha hmarks =>
    rw [Holds, eval_register_of_lt hk ha, step_of_marks hmarks]
    rfl
  | copied hj ha _ ih =>
    rw [Holds, eval_register_of_lt hj ha]
    exact ih
  | part hpart _ ih => rw [Holds, Value.at?, part?_eval _ hpart, Option.bind_some, ih]

theorem made_eq_iff (h : Traced steps n o place k block)
    (h' : Traced steps n' o' place' k' block') :
    (pointAt steps k).marks.made = (pointAt steps k').marks.made ↔ k = k' := by
  obtain ⟨a, ha, hmarks⟩ := h.marks
  obtain ⟨a', ha', hmarks'⟩ := h'.marks
  constructor
  · intro heq
    rcases Nat.lt_trichotomy k k' with hlt | rfl | hlt
    · exact absurd heq (made_lt_of_marks ha hmarks hlt).ne
    · rfl
    · exact absurd heq (made_lt_of_marks ha' hmarks' hlt).ne'
  · rintro rfl
    rfl

theorem block_unique (h : Traced steps n o place k block)
    (h' : Traced steps n' o' place' k block') : block = block' := by
  obtain ⟨a, ha, hmarks⟩ := h.marks
  obtain ⟨a', ha', hmarks'⟩ := h'.marks
  obtain rfl : a = a' := Option.some.inj (ha.symm.trans ha')
  exact hmarks.unique hmarks'

end Traced

section Tracing

open Session

variable {steps : List Step} {n : Nat} {o : Operand} {place : List Value.Index} {m : Marker}

/-- A marker in a register was made by the step of the register, or copied by it. -/
theorem exists_traced_register (hplain : ∀ a ∈ steps, ∀ o ∈ a.operands, o.IsPlain) {j : Nat}
    (hm : (pointAt steps n).Holds (.register j) place m)
    (ih : ∀ {o}, j < n → o.IsPlain → (pointAt steps j).Holds o place m →
      ∃ k block, Traced steps j o place k block) :
    ∃ k block, Traced steps n (.register j) place k block := by
  unfold Holds at hm
  rcases Nat.lt_or_ge j n with hj | hj
  swap
  · rw [eval_register_of_none (.inr hj)] at hm
    exact absurd hm (Value.holdsNoMarker_of_isFlat rfl place m)
  cases ha : steps[j]? with
  | none =>
    rw [eval_register_of_none (.inl ha)] at hm
    exact absurd hm (Value.holdsNoMarker_of_isFlat rfl place m)
  | some a =>
    rw [eval_register_of_lt hj ha] at hm
    rcases (pointAt steps j).step_cases a with ⟨o, rfl⟩ | ⟨block, hmarks⟩ | ⟨hflat, -⟩
    · have ho : o.IsPlain := hplain _ (List.mem_of_getElem? ha) o (by simp [Step.operands])
      obtain ⟨k, block, htraced⟩ := ih hj ho hm
      exact ⟨k, block, .copied hj ha htraced⟩
    · rw [step_of_marks hmarks] at hm
      cases place with
      | nil => exact ⟨j, block, .made hj ha hmarks⟩
      | cons i place => cases hm
    · exact absurd hm (Value.holdsNoMarker_of_isFlat hflat place m)

/-- A marker in an array or a hash stands in one of the parts. -/
theorem exists_traced_part
    (hparts : ∀ i, (eval (pointAt steps n).registers o).part? i =
      (o.part? i).map (eval (pointAt steps n).registers))
    (hne : ∀ m, eval (pointAt steps n).registers o ≠ .marker m)
    (hm : (pointAt steps n).Holds o place m)
    (ih : ∀ {i o' place'}, o.part? i = some o' → (pointAt steps n).Holds o' place' m →
      ∃ k block, Traced steps n o' place' k block) :
    ∃ k block, Traced steps n o place k block := by
  cases place with
  | nil => exact absurd (Option.some.inj hm) (hne m)
  | cons i place =>
    rw [Holds, Value.at?, hparts, Option.bind_eq_some_iff] at hm
    obtain ⟨v, hv, hm⟩ := hm
    obtain ⟨o', ho', rfl⟩ := Option.map_eq_some_iff.1 hv
    obtain ⟨k, block, htraced⟩ := ih ho' hm
    exact ⟨k, block, .part ho' htraced⟩

/-- **Every marker was made by a step**, if none is written down. -/
theorem exists_traced (hplain : ∀ a ∈ steps, ∀ o ∈ a.operands, o.IsPlain) (ho : o.IsPlain)
    (hm : (pointAt steps n).Holds o place m) : ∃ k block, Traced steps n o place k block := by
  -- a register leads to an earlier step, an array or a hash to a part of the operand
  induction n using Nat.strong_induction_on generalizing o place with | _ n ihn
  induction ho generalizing place with
  | value hv => exact absurd hm (hv place m)
  | register j => exact exists_traced_register hplain hm fun hj ho => ihn _ hj ho
  | array hitems ih =>
    exact exists_traced_part (part?_eval_array _ _) (by simp [eval]) hm
      fun ho' => ih _ (Operand.mem_of_part?_array ho')
  | hash hentries ih =>
    refine exists_traced_part (part?_eval_hash _ _) (by simp [eval]) hm fun ho' => ?_
    obtain ⟨key, hmem⟩ := Operand.mem_of_part?_hash ho'
    exact ih _ hmem

/-- Two markers are equal exactly if one step made them. -/
theorem same_iff_of_traced {n' k k' : Nat} {o' : Operand} {place' : List Value.Index}
    {block block' : String} {m' : Marker} (h : Traced steps n o place k block)
    (h' : Traced steps n' o' place' k' block') (hm : (pointAt steps n).Holds o place m)
    (hm' : (pointAt steps n').Holds o' place' m') :
    (Value.marker m).same (.marker m') ↔ k = k' := by
  cases hm.symm.trans h.holds
  cases hm'.symm.trans h'.holds
  rw [← h.made_eq_iff h', Value.same, beq_iff_eq]

/-- Equal values hold copies of the same markers in the same places. -/
theorem Traced.of_same (hplain : ∀ a ∈ steps, ∀ o ∈ a.operands, o.IsPlain) {o' : Operand} {k : Nat}
    {block : String} (ho' : o'.IsPlain)
    (hsame : (eval (pointAt steps n).registers o).same (eval (pointAt steps n).registers o'))
    (h : Traced steps n o place k block) : Traced steps n o' place k block := by
  obtain ⟨v, hv, hmv⟩ := Value.exists_at?_of_same hsame h.holds
  cases v with
  | marker m' =>
    obtain ⟨k', block', h'⟩ := exists_traced hplain ho' hv
    obtain rfl : k = k' := (same_iff_of_traced h h' h.holds hv).1 hmv
    obtain rfl := h.block_unique h'
    exact h'
  | _ => simp [Value.same] at hmv

end Tracing

/-- The value invokes the block of one name only, and the helper says the same. -/
def Value.AnswersTo (v : Value) (name : String) : Prop :=
  v.Invokes name ∧ ∀ other marks, (Helper.call Names.testHelper [v, .string other] []).run marks =
    (.ok (.bool (decide (other = name))), marks)

theorem Value.Invokes.answersTo {v : Value} {name : String} (h : v.Invokes name) :
    v.AnswersTo name := by
  refine ⟨h, fun other marks => ?_⟩
  rw [call_test, Bool.eq_iff_iff.2 ((h other).trans decide_eq_true_iff.symm)]
  rfl

section Identity

open Session

/-- **Markers keep identity and name.** In a run of steps in which no marker is written down:

* the registers at each point are the results so far;
* every marker, however deeply nested, is a copy of one that a step made;
* from then on it stays where it is, and it answers to the name that it was made for and no other;
* two markers are equal exactly if they are copies from one step, and equal values hold copies of
  the same markers in the same places;
* a value that is no marker itself answers to the default block only. -/
theorem markers_traced {steps : List Step}
    (hplain : ∀ a ∈ steps, ∀ o ∈ a.operands, o.IsPlain) :
    (∀ n, (pointAt steps n).registers = (run {} (steps.take n)).map kept) ∧
      (∀ {n o place m}, o.IsPlain → (pointAt steps n).Holds o place m →
        ∃ k block, Traced steps n o place k block) ∧
      (∀ {n o place k block}, Traced steps n o place k block →
        ∃ m, (Value.marker m).AnswersTo block ∧
          ∀ n' ≥ n, (pointAt steps n').Holds o place m) ∧
      (∀ {n o place k block m n' o' place' k' block' m'},
        Traced steps n o place k block → Traced steps n' o' place' k' block' →
        (pointAt steps n).Holds o place m → (pointAt steps n').Holds o' place' m' →
        ((Value.marker m).same (.marker m') ↔ k = k')) ∧
      (∀ {n o o' place k block}, o'.IsPlain →
        (eval (pointAt steps n).registers o).same (eval (pointAt steps n).registers o') →
        Traced steps n o place k block → Traced steps n o' place k block) ∧
      ∀ v : Value, (∀ m, v ≠ .marker m) → v.AnswersTo Names.defaultBlock := by
  refine ⟨fun n => registers_after {} _, exists_traced hplain, fun h => ?_, same_iff_of_traced,
    Traced.of_same hplain, fun v hv => (Value.invokes_default hv).answersTo⟩
  exact ⟨_, (Value.marker_invokes _ _).answersTo, fun n' hn => (h.mono hn).holds⟩

/-- Two markers for one name, made in the two ways, are told apart inside an array. -/
theorem markers_traced_main :
    let steps : List Step := [
      .mark "main",
      .call Names.markHelper [.value (.string "main")] [],
      .value (.array [.register 0, .hash [("again", .register 1)]]),
      .value (.register 2)]
    (∀ a ∈ steps, ∀ o ∈ a.operands, o.IsPlain) ∧
      Traced steps 4 (.register 3) [.item 0] 0 "main" ∧
      Traced steps 4 (.register 3) [.item 1, .entry "again"] 1 "main" ∧
      ∃ m m', (pointAt steps 4).Holds (.register 3) [.item 0] m ∧
        (pointAt steps 4).Holds (.register 3) [.item 1, .entry "again"] m' ∧
        (Value.marker m).AnswersTo "main" ∧ (Value.marker m').AnswersTo "main" ∧
        ¬ (Value.marker m).same (.marker m') := by
  intro steps
  have hmain : (Operand.value (.string "main")).IsPlain :=
    .value (Value.holdsNoMarker_of_isFlat rfl)
  have hagain : (Operand.hash [("again", .register 1)]).IsPlain :=
    .hash (List.forall_mem_singleton.2 (.register 1))
  have hnested : (Operand.array [.register 0, .hash [("again", .register 1)]]).IsPlain :=
    .array (List.forall_mem_cons.2 ⟨.register 0, List.forall_mem_singleton.2 hagain⟩)
  have hplain : ∀ a ∈ steps, ∀ o ∈ a.operands, o.IsPlain := by
    simpa [steps, Step.operands, hmain, hnested] using .register 2
  have hfirst : Traced steps 4 (.register 3) [.item 0] 0 "main" :=
    .copied (by decide) rfl (.copied (by decide) rfl (.part rfl
      (.made (by decide) rfl (.directly "main"))))
  have hsecond : Traced steps 4 (.register 3) [.item 1, .entry "again"] 1 "main" :=
    .copied (by decide) rfl (.copied (by decide) rfl (.part rfl (.part rfl
      (.made (by decide) rfl (.byHelper rfl)))))
  obtain ⟨-, -, hholds, hsame, -, -⟩ := markers_traced hplain
  obtain ⟨m, hname, hm⟩ := hholds hfirst
  obtain ⟨m', hname', hm'⟩ := hholds hsecond
  refine ⟨hplain, hfirst, hsecond, m, m', hm 4 le_rfl, hm' 4 le_rfl, hname, hname', ?_⟩
  rw [hsame hfirst hsecond (hm 4 le_rfl) (hm' 4 le_rfl)]
  decide

end Identity

end TemplateBlocks
