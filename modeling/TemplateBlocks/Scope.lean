import TemplateBlocks.Diagnostic.Cause
import TemplateBlocks.Tree.Statement

/-!
# Lexical scope

The block params bound around the node that is being visited, one frame for each body that binds
them. Frames are pushed on entering a body and popped on leaving it; popping checks that the frame
is the one that was pushed.
-/

namespace TemplateBlocks

/-- What a frame was pushed for. -/
inductive FrameOwner where
  | block
  | component (tag : String)
  deriving DecidableEq

/-- The names that one body binds. -/
structure Frame where
  owner : FrameOwner
  blockParams : List String
  loc : Span
  deriving DecidableEq

namespace Frame

/-- The frame of a block's body. -/
def ofBlock (b : Block) : Frame := ⟨.block, b.blockParams, b.loc⟩

/-- The frame of a component invocation. -/
def ofComponent (e : Element) : Frame := ⟨.component e.tag, e.blockParams, e.loc⟩

/-- The frame in words. -/
def describe (f : Frame) : String :=
  let owner :=
    match f.owner with
    | .block => "block"
    | .component tag => s!"component invocation <{tag}>"
  owner ++ " as |" ++ " ".intercalate f.blockParams ++ "| at line " ++
    toString f.loc.start.line.toNat ++ " column " ++ toString f.loc.start.column.toNat

end Frame

/-- The frames around a node, innermost first. -/
structure Scope where
  frames : List Frame := []
  deriving DecidableEq

namespace Scope

/-- No frame at all. -/
def root : Scope := {}

/-- Whether no frame is around. -/
def isRoot (s : Scope) : Bool := s.frames.isEmpty

/-- How many frames are around. -/
def depth (s : Scope) : Nat := s.frames.length

/-- The scope inside a body that binds a frame. -/
def push (s : Scope) (f : Frame) : Scope := ⟨f :: s.frames⟩

/-- The innermost frame and the scope without it. -/
def pop (s : Scope) : Except Diagnostic Frame × Scope :=
  match s.frames with
  | [] => (.error Defect.scopeUnderflow.report, s)
  | f :: rest => (.ok f, ⟨rest⟩)

/-- Pops the innermost frame and checks that it is the expected one. The frame is gone even if it
is another one. -/
def popExpecting (s : Scope) (expected : Frame) : Except Diagnostic Frame × Scope :=
  match s.pop with
  | (.error d, s) => (.error d, s)
  | (.ok actual, s) =>
    if actual = expected then (.ok actual, s)
    else (.error (Defect.scopeMismatch expected.describe actual.describe).report, s)

/-- Whether a name is bound by some frame, the innermost one not counting on request. -/
def isLocal (s : Scope) (name : String) (ignoreInnermost : Bool) : Bool :=
  let frames := if ignoreInnermost then s.frames.tail else s.frames
  frames.any fun f => f.blockParams.contains name

@[simp] theorem popExpecting_push (s : Scope) (f : Frame) :
    (s.push f).popExpecting f = (.ok f, s) := by
  simp [push, popExpecting, pop]

end Scope

end TemplateBlocks
