/-!
# Texts

What is read off plain texts, and one written form of them.

* Blank characters are those with the Unicode property `White_Space`; with them, what it means for a
  text to be blank or to be trimmed.
* A dotted text is read as the list of its segments, the pieces between the dots. There is always at
  least one segment, and segments may be empty.
* Between double quotes, the quote, the backslash and the control characters below a space are
  escaped, and nothing else is.
-/

namespace TemplateBlocks.Text

/-! ### Blank characters -/

/-- The characters with the Unicode property `White_Space`, twenty-five in all. -/
def isBlank (c : Char) : Bool :=
  let n := c.toNat
  (0x09 ≤ n && n ≤ 0x0D) || n == 0x20 || n == 0x85 || n == 0xA0 || n == 0x1680 ||
    (0x2000 ≤ n && n ≤ 0x200A) || n == 0x2028 || n == 0x2029 || n == 0x202F || n == 0x205F ||
    n == 0x3000

/-- A text of blank characters only; the empty text is one. -/
def allBlank (s : String) : Bool := s.toList.all isBlank

/-- The text without the blank characters at its two ends. -/
def trim (s : String) : String :=
  String.ofList ((s.toList.dropWhile isBlank).reverse.dropWhile isBlank).reverse

/-- The text with the letters `A` to `Z`, and no others, in lower case. -/
def lowerAscii (s : String) : String :=
  String.ofList (s.toList.map fun c => if 'A' ≤ c ∧ c ≤ 'Z' then Char.ofNat (c.toNat + 32) else c)

example : allBlank "" ∧ allBlank "\t\n \u00a0\u3000" ∧ ¬ allBlank " x" := by decide

example : trim "\u2003 off\n" = "off" ∧ lowerAscii "OFF É" = "off É" := by decide

/-! ### Dotted texts -/

/-- The pieces of a list of characters between its dots. -/
def segmentsOf : List Char → List (List Char)
  | [] => [[]]
  | c :: r =>
    if c = '.' then [] :: segmentsOf r
    else
      match segmentsOf r with
      | [] => [[c]]
      | p :: ps => (c :: p) :: ps

/-- The pieces of a text between its dots. -/
def segments (s : String) : List String := (segmentsOf s.toList).map String.ofList

/-- What follows `lead` in a text that starts with it. -/
def afterLead? (lead : List Char) (s : String) : Option String :=
  if lead.isPrefixOf s.toList then some (String.ofList (s.toList.drop lead.length)) else none

theorem segmentsOf_ne_nil (cs : List Char) : segmentsOf cs ≠ [] := by
  cases cs with
  | nil => simp [segmentsOf]
  | cons c r =>
    unfold segmentsOf
    split
    · simp
    · split <;> simp

example : segments "" = [""] ∧ segments "a..b" = ["a", "", "b"] := by decide

/-! ### Quoted texts -/

/-- One hexadecimal digit in lower case. -/
def hexDigit (n : Nat) : Char :=
  if n < 10 then Char.ofNat (48 + n) else Char.ofNat (87 + n)

/-- The written form of one character. -/
def quotedChar (c : Char) : List Char :=
  if c = '"' then ['\\', '"']
  else if c = '\\' then ['\\', '\\']
  else if c = '\x08' then ['\\', 'b']
  else if c = '\x0c' then ['\\', 'f']
  else if c = '\n' then ['\\', 'n']
  else if c = '\r' then ['\\', 'r']
  else if c = '\t' then ['\\', 't']
  else if c.toNat < 0x20 then
    ['\\', 'u', '0', '0', hexDigit (c.toNat / 16), hexDigit (c.toNat % 16)]
  else [c]

/-- A text between double quotes. -/
def quoted (s : String) : String :=
  String.ofList ('"' :: (s.toList.flatMap quotedChar ++ ['"']))

example : quoted "a\"b\\\x1f\x7f/é" = "\"a\\\"b\\\\\\u001f\x7f/é\"" := by decide

end TemplateBlocks.Text
