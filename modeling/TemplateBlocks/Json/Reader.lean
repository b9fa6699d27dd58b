import TemplateBlocks.Json.Number

/-!
# Reading documents

A strict reader of JSON text: no comments, no trailing commas, no leading zeros, no raw control
characters in strings, only space, tab, line feed and carriage return around values, and nothing
after the value. A half of a surrogate pair makes a string illegible, and a field so named makes
its object illegible; neither stops the reader.
-/

namespace TemplateBlocks.Json

/-- Drops the blanks that may stand around values. -/
def skip (cs : List Char) : List Char :=
  cs.dropWhile fun c => c = ' ' || c = '\t' || c = '\n' || c = '\r'

/-! ### Strings -/

/-- The value of a hexadecimal digit. -/
def hexValue? (c : Char) : Option Nat :=
  if '0' ≤ c ∧ c ≤ '9' then some (c.toNat - 48)
  else if 'a' ≤ c ∧ c ≤ 'f' then some (c.toNat - 87)
  else if 'A' ≤ c ∧ c ≤ 'F' then some (c.toNat - 55)
  else none

/-- The value of four hexadecimal digits. -/
def hexValues? (a b c d : Char) : Option Nat := do
  return ((← hexValue? a) * 16 + (← hexValue? b)) * 256 + (← hexValue? c) * 16 + (← hexValue? d)

/-- The character that an escape of one letter stands for. -/
def escaped? : Char → Option Nat
  | '"' => some 0x22
  | '\\' => some 0x5C
  | '/' => some 0x2F
  | 'b' => some 0x08
  | 'f' => some 0x0C
  | 'n' => some 0x0A
  | 'r' => some 0x0D
  | 't' => some 0x09
  | _ => none

/-- The code units up to the closing quote, and what follows it. Halves of surrogate pairs can only
come from escapes. -/
def units? (acc : List Nat) : List Char → Option (List Nat × List Char)
  | [] => none
  | '"' :: r => some (acc.reverse, r)
  | '\\' :: 'u' :: a :: b :: c :: d :: r =>
    match hexValues? a b c d with
    | some n => units? (n :: acc) r
    | none => none
  | '\\' :: e :: r =>
    match escaped? e with
    | some n => units? (n :: acc) r
    | none => none
  | c :: r => if c = '\\' ∨ c.toNat < 0x20 then none else units? (c.toNat :: acc) r

/-- The characters of code units: two surrogate halves make one character, and a half that stands
alone makes none. -/
def paired? (acc : List Char) : List Nat → Option (List Char)
  | [] => some acc.reverse
  | [n] => if 0xD800 ≤ n ∧ n < 0xE000 then none else some (Char.ofNat n :: acc).reverse
  | n :: m :: r =>
    if 0xD800 ≤ n ∧ n < 0xDC00 then
      if 0xDC00 ≤ m ∧ m < 0xE000 then
        paired? (Char.ofNat (0x10000 + (n - 0xD800) * 0x400 + (m - 0xDC00)) :: acc) r
      else none
    else if 0xDC00 ≤ n ∧ n < 0xE000 then none
    else paired? (Char.ofNat n :: acc) (m :: r)

/-- A string after its opening quote, if it is legible, and what follows it. -/
def readString? (cs : List Char) : Option (Option String × List Char) :=
  (units? [] cs).map fun (units, r) => ((paired? [] units).map String.ofList, r)

/-! ### Numbers -/

/-- A number at the front of a text. -/
def readNumber? (cs : List Char) : Option (Json × List Char) :=
  let (n, r) :=
    match cs with
    | '-' :: ds => Numeral.cut true ds
    | ds => Numeral.cut false ds
  if admits n then some (numeralValue n, r) else none

/-! ### Values -/

/-- The value of a string. -/
def ofString : Option String → Json
  | some s => .str s
  | none => .illegible

/-- The value of an object with these fields. -/
def ofFields (fields : List (Option String × Json)) : Json :=
  match fields.mapM fun (k, j) => k.map fun k => (k, j) with
  | some fs => .obj fs
  | none => .illegible

mutual
/-- A value at the front of a text without leading blanks. -/
def readValue? : Nat → List Char → Option (Json × List Char)
  | 0, _ => none
  | fuel + 1, cs =>
    match cs with
    | 'n' :: 'u' :: 'l' :: 'l' :: r => some (.null, r)
    | 't' :: 'r' :: 'u' :: 'e' :: r => some (.bool true, r)
    | 'f' :: 'a' :: 'l' :: 's' :: 'e' :: r => some (.bool false, r)
    | '"' :: r => (readString? r).map fun (s, r) => (ofString s, r)
    | '[' :: r =>
      match skip r with
      | ']' :: r => some (.arr [], r)
      | r => readItems? fuel [] r
    | '\x7b' :: r =>
      match skip r with
      | '\x7d' :: r => some (.obj [], r)
      | r => readFields? fuel [] r
    | cs => readNumber? cs
/-- The items of an array from one item on, after those already read. -/
def readItems? : Nat → List Json → List Char → Option (Json × List Char)
  | 0, _, _ => none
  | fuel + 1, acc, cs =>
    match readValue? fuel cs with
    | none => none
    | some (j, r) =>
      match skip r with
      | ',' :: r => readItems? fuel (j :: acc) (skip r)
      | ']' :: r => some (.arr (j :: acc).reverse, r)
      | _ => none
/-- The fields of an object from one field on, after those already read. -/
def readFields? : Nat → List (Option String × Json) → List Char → Option (Json × List Char)
  | 0, _, _ => none
  | fuel + 1, acc, cs =>
    match cs with
    | '"' :: r =>
      match readString? r with
      | none => none
      | some (k, r) =>
        match skip r with
        | ':' :: r =>
          match readValue? fuel (skip r) with
          | none => none
          | some (j, r) =>
            match skip r with
            | ',' :: r => readFields? fuel ((k, j) :: acc) (skip r)
            | '\x7d' :: r => some (ofFields ((k, j) :: acc).reverse, r)
            | _ => none
        | _ => none
    | _ => none
end

/-- Reads a text that holds one value. Every step but the opening of an array or object consumes a
character, and an opening is followed by one more step, so twice the length is fuel enough. -/
def read? (s : String) : Option Json :=
  let cs := s.toList
  match readValue? (2 * cs.length + 2) (skip cs) with
  | none => none
  | some (j, r) => if (skip r).isEmpty then some j else none

example : (read? " [1, -0, 2.50, \"\\ud83d\\ude00\"] ").map write = some "[1,-0.0,2.5,\"😀\"]" := by
  decide +kernel

example : (read? "9007199254740991.0").map write = some "9007199254740990.0" := by decide +kernel

example : (read? "[01]").isNone ∧ (read? "[1,]").isNone ∧ (read? "\"\\ud83\"").isNone := by
  decide +kernel

example : (read? "[1e400]").map isLegible = some false ∧
    (read? "\x7b\"\\ud83d\":1\x7d").map isLegible = some false := by decide +kernel

end TemplateBlocks.Json
