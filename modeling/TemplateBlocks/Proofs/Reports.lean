import TemplateBlocks.Desugar
import TemplateBlocks.Proofs.Invocation.Fanned

/-!
# What is reported

A check that fails, and an action of builders that does, ends in a diagnostic. `FailsWith P` and
`Reports P` say that it is one of `P`, whatever the builders make and whatever state they keep; both
pass from the steps of an action to the whole of it.

The checks on declarations, yields and queries report misuses and nothing else, and each of them
where a node stands that it looks at (`checkedSpans`). Dispatching to blocks may report that the
builders did not make branches that can be chained (`reports_dispatchTo`), and settling that they
never came to an end (`reports_settle`). With the standard builders neither arises in entering a
node, which ends in a result or in a misuse (`Element.misuse_enter`, `Mustache.misuse_enter`,
`SubExpr.misuse_enter`): something for the template's author to mend.
-/

namespace TemplateBlocks

variable {σ α β : Type} {P : Diagnostic → Prop}

/-! ### Checks -/

/-- Where the check fails, it does so with one of `P`. -/
def FailsWith (P : Diagnostic → Prop) (r : Except Diagnostic α) : Prop := ∀ d, r = .error d → P d

theorem failsWith_ok {a : α} : FailsWith P (.ok a) := by
  rintro d ⟨⟩

theorem failsWith_error {d : Diagnostic} (hd : P d) :
    FailsWith P (.error d : Except Diagnostic α) := by
  rintro _ ⟨⟩
  exact hd

/-- What follows a check may rely on it. -/
theorem FailsWith.bind_ok {r : Except Diagnostic α} {f : α → Except Diagnostic β}
    (hr : FailsWith P r) (hf : ∀ a, r = .ok a → FailsWith P (f a)) : FailsWith P (r >>= f) := by
  cases r with
  | error e => exact failsWith_error (hr e rfl)
  | ok a => exact hf a rfl

theorem FailsWith.bind {r : Except Diagnostic α} {f : α → Except Diagnostic β}
    (hr : FailsWith P r) (hf : ∀ a, FailsWith P (f a)) : FailsWith P (r >>= f) :=
  hr.bind_ok fun a _ => hf a

theorem failsWith_maintain {holds : Bool} {defect : Defect} (hd : P defect.report) :
    FailsWith P (maintain holds defect) := by
  cases holds with
  | true => exact failsWith_ok
  | false => exact failsWith_error hd

/-! ### Actions of builders -/

/-- Where the action fails, it does so with one of `P`, in whatever state the builders are. -/
def Reports (P : Diagnostic → Prop) (act : BuildM σ α) : Prop :=
  ∀ s, FailsWith P (act.run.run s).1

theorem reports_pure (a : α) : Reports P (pure a : BuildM σ α) := fun _ => failsWith_ok

theorem reports_throw {d : Diagnostic} (hd : P d) : Reports P (throw d : BuildM σ α) :=
  fun _ => failsWith_error hd

/-- Making a node does not fail. -/
theorem reports_made (act : StateM σ α) : Reports P (liftM act : BuildM σ α) :=
  fun _ => failsWith_ok

theorem reports_check {r : Except Diagnostic α} (hr : FailsWith P r) :
    Reports P (liftM r : BuildM σ α) := by
  intro s d hd
  cases r with
  | error e =>
    cases hd
    exact hr d rfl
  | ok a => cases hd

theorem Reports.bind {x : BuildM σ α} {f : α → BuildM σ β} (hx : Reports P x)
    (hf : ∀ a, Reports P (f a)) : Reports P (x >>= f) := by
  intro s
  have hrun : (x >>= f).run.run s =
      (ExceptT.bindCont f (x.run.run s).1).run (x.run.run s).2 := rfl
  rw [hrun]
  cases hr : (x.run.run s).1 with
  | error e => exact failsWith_error (hx s e hr)
  | ok a => exact hf a (x.run.run s).2

/-- What follows a check may rely on it. -/
theorem reports_check_bind {r : Except Diagnostic α} {f : α → BuildM σ β} (hr : FailsWith P r)
    (hf : ∀ a, r = .ok a → Reports P (f a)) :
    Reports P ((liftM r : BuildM σ α) >>= f) := by
  cases r with
  | error e => exact fun _ => failsWith_error (hr e rfl)
  | ok a => exact hf a rfl

theorem Reports.mapM {f : α → BuildM σ β} (xs : List α) (hf : ∀ x ∈ xs, Reports P (f x)) :
    Reports P (xs.mapM f) := by
  induction xs with
  | nil => exact reports_pure []
  | cons x xs ih =>
    rw [List.mapM_cons]
    refine (hf x (by simp)).bind fun y => ?_
    refine (ih fun y hy => hf y (by simp [hy])).bind fun ys => ?_
    exact reports_pure (y :: ys)

theorem Reports.forM {f : α → BuildM σ PUnit} (xs : List α) (hf : ∀ x ∈ xs, Reports P (f x)) :
    Reports P (xs.forM f) := by
  induction xs with
  | nil => exact reports_pure ()
  | cons x xs ih => exact (hf x (by simp)).bind fun _ => ih fun y hy => hf y (by simp [hy])

/-! ### Settling -/

/-- Settling fails where entering does, and where it does not come to an end. -/
theorem reports_settle [DecidableEq α] {kind : String} {enter : α → BuildM σ (Option α)}
    (hlimit : P (Defect.diverged kind roundLimit).report) (henter : ∀ x, Reports P (enter x))
    (rounds : Nat) (x : α) : Reports P (settle kind enter rounds x) := by
  induction rounds generalizing x with
  | zero => exact reports_throw hlimit
  | succ rounds ih =>
    unfold settle
    refine (henter x).bind fun next => ?_
    cases next with
    | none => exact reports_pure x
    | some y =>
      by_cases hy : y = x
      · simp only [hy, if_true]
        exact reports_pure x
      · simp only [hy, if_false]
        exact ih y

/-- Misuses that may be reported, wherever they are found. -/
theorem reported_anywhere (hP : ∀ (m : Misuse) (span : Span), P (m.report span)) (m : Misuse)
    (span : Span) (_ : True) : P (m.report span) :=
  hP m span

section Misuses

-- misuses are among what may be reported, at least at the spans in question
variable {S : Span → Prop} (hP : ∀ (m : Misuse) (span : Span), S span → P (m.report span))

include hP

theorem failsWith_obey {kept : Bool} {m : Misuse} {span : Span} (hspan : S span) :
    FailsWith P (obey kept m span) := by
  cases kept with
  | true => exact failsWith_ok
  | false => exact failsWith_error (hP m span hspan)

/-! ### Declarations -/

theorem Element.failsWith_isDeclaration {e : Element} (he : S e.loc) :
    FailsWith P e.isDeclaration := by
  unfold isDeclaration
  split
  · exact failsWith_ok
  · refine (failsWith_obey hP he).bind fun _ => (failsWith_obey hP he).bind fun _ => ?_
    exact (failsWith_obey hP he).bind fun _ => (failsWith_obey hP he).bind fun _ => failsWith_ok

theorem Statement.failsWith_declaration? {s : Statement} (hs : S s.loc) :
    FailsWith P s.declaration? := by
  cases s with
  | element e => exact (Element.failsWith_isDeclaration hP hs).bind fun _ => failsWith_ok
  | _ => exact failsWith_ok

namespace Element

theorem failsWith_gather {tag : String} {blocks : List Element} {loose : Option Span}
    {ss : List Statement} (hloose : ∀ first ∈ loose, S first) (hss : ∀ s ∈ ss, S s.loc) :
    FailsWith P (gather tag blocks loose ss) := by
  fun_induction gather tag blocks loose ss with
  | case1 => exact failsWith_ok
  | case2 _ _ _ _ _ ih => exact ih hloose fun s hs => hss s (by simp [hs])
  | case3 _ _ s _ _ d hd =>
    exact failsWith_error (Statement.failsWith_declaration? hP (hss s (by simp)) d hd)
  | case4 _ loose s _ _ _ _ ih =>
    refine ih ?_ fun s hs => hss s (by simp [hs])
    cases loose with
    | none => simpa using hss s (by simp)
    | some first => exact hloose
  | case5 _ _ s => exact failsWith_error (hP _ _ (hss s (by simp)))
  | case6 _ _ _ _ _ _ first => exact failsWith_error (hP _ _ (hloose first rfl))
  | case7 _ s _ _ block hd =>
    obtain ⟨rfl, -⟩ := Statement.declaration?_eq_some.1 hd
    exact failsWith_error (hP _ _ (hss (.element block) (by simp)))
  | case8 _ _ _ _ _ _ _ ih => exact ih (by simp) fun s hs => hss s (by simp [hs])

theorem failsWith_refuseInverse {blocks : List Element} (hblocks : ∀ block ∈ blocks, S block.loc) :
    FailsWith P (refuseInverse blocks) := by
  unfold refuseInverse
  split
  · exact failsWith_ok
  · have hblock := hblocks _ (List.mem_of_find?_eq_some ‹_›)
    exact (failsWith_obey hP hblock).bind fun _ => failsWith_error (hP _ _ hblock)

/-- Where the checks on an element report. -/
def checkedSpans (e : Element) : List Span := e.loc :: e.children.map Statement.loc

variable {e : Element} (he : ∀ span ∈ e.checkedSpans, S span)

include he

omit hP in
theorem loc_of_namedBlocks {blocks : List Element} (h : e.namedBlocks = .ok blocks) :
    ∀ block ∈ blocks, S block.loc := by
  intro block hb
  have hmem := (sublist_of_namedBlocks h).subset (List.mem_map_of_mem hb)
  exact he _ (List.mem_cons_of_mem _ (List.mem_map_of_mem (f := Statement.loc) hmem))

theorem failsWith_namedBlocks : FailsWith P e.namedBlocks := by
  have hchildren : ∀ s ∈ e.children, S s.loc := fun s hs =>
    he _ (List.mem_cons_of_mem _ (List.mem_map_of_mem hs))
  refine (failsWith_gather hP (by simp) hchildren).bind_ok fun blocks hblocks => ?_
  obtain ⟨-, new, rfl, hsub⟩ := gather_spec hblocks ⟨by simp, by simp⟩
  refine (failsWith_refuseInverse hP fun block hb => ?_).bind fun _ => failsWith_ok
  exact hchildren _ (hsub.subset (List.mem_map_of_mem hb))

/-! ### Elements -/

theorem reports_fanOut {b : Builders σ} {blocks : List Element}
    (hdispatch : Reports P (e.dispatchTo b blocks)) : Reports P (e.fanOut b blocks) := by
  have hloc : S e.loc := he _ (by simp [checkedSpans])
  unfold fanOut
  refine (reports_check (failsWith_obey hP hloc)).bind fun _ => ?_
  refine (reports_check (failsWith_obey hP hloc)).bind fun _ => ?_
  split
  · split
    · exact reports_made _
    · exact hdispatch
  · exact hdispatch

/-- Entering an element reports a misuse, or what dispatching to its blocks does. -/
theorem reports_enter {b : Builders σ}
    (hdispatch : ∀ blocks, blocks ≠ [] → Reports P (e.dispatchTo b blocks)) (scope : Scope) :
    Reports P (e.enter scope b) := by
  have hloc : S e.loc := he _ (by simp [checkedSpans])
  unfold enter
  split
  · refine (reports_check (failsWith_obey hP hloc)).bind fun _ => ?_
    exact (reports_check (failsWith_obey hP hloc)).bind fun _ => reports_pure none
  · refine (reports_check (failsWith_isDeclaration hP hloc)).bind fun _ => ?_
    refine (reports_check (failsWith_obey hP hloc)).bind fun _ => ?_
    refine reports_check_bind (failsWith_namedBlocks hP he) fun blocks hblocks => ?_
    split
    · split
      · exact reports_pure none
      · have hne : blocks ≠ [] := by simpa using ‹¬ blocks.isEmpty›
        exact (reports_fanOut hP he (hdispatch blocks hne)).bind fun _ => reports_pure _
    · refine (reports_check (failsWith_obey hP hloc)).bind fun _ => ?_
      split
      · exact reports_pure none
      · exact reports_throw (hP _ _ (loc_of_namedBlocks he hblocks _ (by simp)))

end Element

/-! ### Calls -/

theorem Path.failsWith_isSimple {p : Path} (hp : S p.loc) (scope : Scope) :
    FailsWith P (p.isSimple scope) := by
  unfold Path.isSimple
  split
  · exact failsWith_ok
  · split
    · exact failsWith_ok
    · exact (failsWith_obey hP hp).bind fun _ => failsWith_ok

namespace QueryCall

/-- Where the checks on a query report. -/
def checkedSpans (call : QueryCall) : List Span :=
  call.loc :: call.path.loc :: call.params.map Expr.loc

variable {call : QueryCall} (hcall : ∀ span ∈ call.checkedSpans, S span)

include hcall

theorem failsWith_block : FailsWith P call.block := by
  have hparams : ∀ e ∈ call.params, S e.loc := fun e he =>
    hcall _ (List.mem_cons_of_mem _ (List.mem_cons_of_mem _ (List.mem_map_of_mem he)))
  unfold QueryCall.block
  split
  · exact failsWith_ok
  · exact failsWith_ok
  · next only _ hps => exact failsWith_error (hP _ _ (hparams only (by simp [hps])))
  · next second _ hps => exact failsWith_error (hP _ _ (hparams second (by simp [hps])))

theorem reports_resolve (scope : Scope) (b : Builders σ) : Reports P (call.resolve scope b) := by
  have hloc : S call.loc := hcall _ (by simp [checkedSpans])
  have hpath : S call.path.loc := hcall _ (by simp [checkedSpans])
  have hblock : Reports P (do
      let block ← (liftM call.block : BuildM σ String)
      return (block, ← call.fallback b block)) :=
    (reports_check (failsWith_block hP hcall)).bind fun _ =>
      (reports_made _).bind fun _ => reports_pure _
  unfold QueryCall.resolve
  refine (reports_check (Path.failsWith_isSimple hP hpath scope)).bind fun _ => ?_
  refine (reports_check (failsWith_obey hP hloc)).bind fun _ => ?_
  split
  · exact hblock
  · exact (reports_throw (hP _ _ hloc)).bind fun _ => hblock

end QueryCall

/-- Where the checks on a call report. -/
def SubExpr.checkedSpans (c : SubExpr) : List Span := c.loc :: c.path.loc :: c.params.map Expr.loc

theorem SubExpr.reports_enter {c : SubExpr} (hc : ∀ span ∈ c.checkedSpans, S span) (scope : Scope)
    (b : Builders σ) : Reports P (c.enter scope b) := by
  unfold SubExpr.enter
  split
  · refine Reports.bind ?_ fun _ => reports_pure _
    refine (QueryCall.reports_resolve hP ?_ scope b).bind fun _ => ?_
    · exact hc
    · exact (reports_made _).bind fun _ => (reports_made _).bind fun _ => reports_made _
  · exact reports_pure none

namespace Mustache

/-- Where the checks on a mustache report. -/
def checkedSpans (m : Mustache) : List Span :=
  m.loc :: m.path.loc :: (m.params.map Expr.loc ++ m.hash.pairs.map fun p => p.value.loc)

variable {m : Mustache} (hm : ∀ span ∈ m.checkedSpans, S span)

include hm

theorem reports_desugarQuery (query : BlockQuery) (scope : Scope) (b : Builders σ) :
    Reports P (m.desugarQuery query scope b) := by
  unfold desugarQuery
  split
  · next path hpath =>
    refine (QueryCall.reports_resolve hP ?_ scope b).bind fun _ => ?_
    · intro span hspan
      refine hm span ?_
      simp only [QueryCall.checkedSpans, checkedSpans, hpath, Expr.loc, List.mem_cons,
        List.mem_append] at hspan ⊢
      tauto
    · exact (reports_made _).bind fun _ => (reports_made _).bind fun _ => reports_made _
  · exact reports_throw (hP _ _ (hm _ (by simp [checkedSpans])))

theorem failsWith_yieldTarget {first : HashPair} (hfirst : first ∈ m.hash.pairs) :
    FailsWith P (m.yieldTarget first) := by
  have hloc : S m.loc := hm _ (by simp [checkedSpans])
  have hvalue : S first.value.loc := by
    refine hm _ (List.mem_cons_of_mem _ (List.mem_cons_of_mem _ (List.mem_append_right _ ?_)))
    exact List.mem_map_of_mem (f := fun p => p.value.loc) hfirst
  unfold yieldTarget
  refine (failsWith_obey hP hloc).bind fun _ => ?_
  split
  · exact failsWith_ok
  · exact failsWith_error (hP _ _ hvalue)

theorem reports_yieldArguments (b : Builders σ) (target : Literal String) :
    Reports P (m.yieldArguments b target) := by
  have hloc : S m.loc := hm _ (by simp [checkedSpans])
  unfold yieldArguments
  split
  · exact reports_pure _
  split
  · refine (reports_check (failsWith_obey hP hloc)).bind fun _ => ?_
    refine (reports_made _).bind fun _ => (reports_made _).bind fun _ => ?_
    exact (reports_made _).bind fun _ => reports_pure _
  · exact (reports_made _).bind fun _ => (reports_made _).bind fun _ => reports_pure _

/-- A yield, as far as it is not checked what it is called by. -/
theorem reports_yieldNamed (b : Builders σ) (path : Expr) : Reports P (
    match m.hash.pairs with
    | [] => return none
    | first :: _ => do
      let target ← (liftM (m.yieldTarget first) : BuildM σ (Literal String))
      let arguments ← m.yieldArguments b target
      return some (← b.mustache path arguments.1 arguments.2 m.trusting m.loc)) := by
  split
  · exact reports_pure none
  · next first rest hpairs =>
    have hfirst : first ∈ m.hash.pairs := by simp [hpairs]
    refine (reports_check (failsWith_yieldTarget hP hm hfirst)).bind fun target => ?_
    refine (reports_yieldArguments hP hm b target).bind fun arguments => ?_
    exact (reports_made _).bind fun _ => reports_pure _

theorem reports_desugarYield (scope : Scope) (b : Builders σ) :
    Reports P (m.desugarYield scope b) := by
  have hloc : S m.loc := hm _ (by simp [checkedSpans])
  have hpath : S m.path.loc := hm _ (by simp [checkedSpans])
  unfold desugarYield
  cases h : m.path with
  | path p =>
    rw [h] at hpath
    refine (reports_check (Path.failsWith_isSimple hP hpath scope)).bind fun _ => ?_
    refine (reports_check (failsWith_obey hP hloc)).bind fun _ => ?_
    exact reports_yieldNamed hP hm b _
  | _ =>
    refine (reports_pure false).bind fun _ => ?_
    refine (reports_check (failsWith_obey hP hloc)).bind fun _ => ?_
    exact reports_yieldNamed hP hm b _

theorem reports_enter (scope : Scope) (b : Builders σ) : Reports P (m.enter scope b) := by
  unfold enter
  split
  · split
    · exact reports_desugarYield hP hm scope b
    · split
      · exact (reports_desugarQuery hP hm _ scope b).bind fun _ => reports_pure _
      · exact reports_pure none
  · exact reports_pure none

end Mustache

end Misuses

/-! ### Dispatching -/

/-- The defects that branches are checked for. -/
structure AllowsChains (P : Diagnostic → Prop) : Prop where
  branch (found : String) : P (Defect.chainBranch found).report
  inverse : P Defect.chainInverse.report
  empty : P Defect.chainEmpty.report

theorem failsWith_checkBranch (hP : AllowsChains P) (branch : BlockStatement) :
    FailsWith P (checkBranch branch) :=
  (failsWith_maintain (hP.branch _)).bind fun _ => failsWith_maintain hP.inverse

theorem reports_chainBranches (hP : AllowsChains P) (b : Builders σ)
    (branches : List BlockStatement) : Reports P (chainBranches b branches) := by
  unfold chainBranches
  refine (Reports.forM branches fun branch _ => ?_).bind fun _ => ?_
  · exact reports_check (failsWith_checkBranch hP branch)
  · split
    · exact reports_throw hP.empty
    · exact reports_made _

theorem Element.reports_dispatchTo (hP : AllowsChains P) (b : Builders σ) (e : Element)
    (blocks : List Element) : Reports P (e.dispatchTo b blocks) := by
  unfold dispatchTo
  refine (Reports.mapM blocks fun block _ => reports_made _).bind fun branches => ?_
  refine (reports_chainBranches hP b branches).bind fun _ => ?_
  exact (reports_made _).bind fun _ => reports_made _

/-! ### Misuses -/

/-- Where the check fails, it reports a misuse. -/
def FailsByMisuse {α : Type} (r : Except Diagnostic α) : Prop :=
  ∀ d, r = .error d → d.isDefect = false

theorem isDefect_report (m : Misuse) (span : Span) : (m.report span).isDefect = false := rfl

theorem misuse_obey {kept : Bool} {m : Misuse} {span : Span} : FailsByMisuse (obey kept m span) :=
  failsWith_obey (reported_anywhere isDefect_report) trivial

/-- With the standard builders, dispatching to the blocks of an invocation does not fail. -/
theorem Element.reports_dispatchTo_standard {P : Diagnostic → Prop} (e : Element)
    {blocks : List Element} (hne : blocks ≠ []) : Reports P (e.dispatchTo .standard blocks) := by
  obtain ⟨first, rest, rfl⟩ := List.exists_cons_of_ne_nil hne
  intro s d hd
  have hok : outcome (e.dispatchTo .standard (first :: rest)) = .error d := hd
  rw [outcome_dispatchTo] at hok
  cases hok

theorem Element.misuse_enter (e : Element) (scope : Scope) :
    FailsByMisuse (outcome (e.enter scope .standard)) :=
  reports_enter (reported_anywhere isDefect_report) (fun _ _ => trivial)
    (fun _ hne => e.reports_dispatchTo_standard hne) scope ()

theorem SubExpr.misuse_enter (c : SubExpr) (scope : Scope) :
    FailsByMisuse (outcome (c.enter scope .standard)) :=
  reports_enter (reported_anywhere isDefect_report) (fun _ _ => trivial) scope .standard ()

theorem Mustache.misuse_enter (m : Mustache) (scope : Scope) :
    FailsByMisuse (outcome (m.enter scope .standard)) :=
  reports_enter (reported_anywhere isDefect_report) (fun _ _ => trivial) scope .standard ()

end TemplateBlocks
