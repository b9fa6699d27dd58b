import TemplateBlocks.Render.Helper

/-!
# Render sessions

A run of steps on render values. Every step leaves its result in a register, an undefined value if
it fails, and later steps may use the registers: a copy of a marker keeps its identity.
-/

namespace TemplateBlocks

/-- How a step names a value: by writing it down, by a register, or as an array or hash of such. -/
inductive Operand where
  | value (v : Value)
  | register (i : Nat)
  | array (items : List Operand)
  | hash (entries : List (String × Operand))

/-- A step of a session. -/
inductive Step where
  | value (v : Operand)
  | mark (block : String)
  | isInvocationOf (v : Operand) (block : String)
  | isTruthy (v : Operand)
  | isMetadata (v : Operand)
  | same (a b : Operand)
  | display (v : Operand)
  | call (helper : String) (params : List Operand) (hash : List (String × Operand))

/-- The registers filled so far, and the markers made. -/
structure Session where
  registers : List Value := []
  marks : Marks := {}

namespace Session

mutual
/-- The value that an operand names. A register that is not filled yet is undefined. -/
def eval (registers : List Value) : Operand → Value
  | .value v => v
  | .register i => (registers[i]?).getD .undefined
  | .array items => .array (evalItems registers items)
  | .hash entries => .hash (Entries.ofList (evalEntries registers entries))
/-- The values that a list of operands names. -/
def evalItems (registers : List Value) : List Operand → List Value
  | [] => []
  | o :: os => eval registers o :: evalItems registers os
/-- The values that a list of keyed operands names. -/
def evalEntries (registers : List Value) : List (String × Operand) → List (String × Value)
  | [] => []
  | (k, o) :: os => (k, eval registers o) :: evalEntries registers os
end

/-- The result of a step. -/
def perform (registers : List Value) : Step → CallM Value
  | .value v => return eval registers v
  | .mark block => mark block
  | .isInvocationOf v block => return .bool ((eval registers v).isInvocationOf block)
  | .isTruthy v => return .bool (eval registers v).isTruthy
  | .isMetadata v => return .bool (eval registers v).isMetadata
  | .same a b => return .bool ((eval registers a).same (eval registers b))
  | .display v => return .string (eval registers v).display
  | .call helper params hash =>
    Helper.call helper (evalItems registers params)
      (Entries.ofList (evalEntries registers hash))

/-- The result of a step and the session after it. -/
def step (s : Session) (a : Step) : Except CallError Value × Session :=
  let (result, marks) := (perform s.registers a).run s.marks
  let left :=
    match result with
    | .ok v => v
    | .error _ => .undefined
  (result, { registers := s.registers ++ [left], marks })

/-- The results of the steps of a session. -/
def run (s : Session) : List Step → List (Except CallError Value)
  | [] => []
  | a :: rest =>
    let (result, s) := s.step a
    result :: s.run rest

end Session

end TemplateBlocks
