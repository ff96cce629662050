
namespace Karst.Toml

abbrev Reader := StateT (List Char) Option

namespace Reader

variable {α : Type}

def char (accepts : Char → Bool) : Reader Char
  | c :: rest => if accepts c then some (c, rest) else none
  | [] => none

def skip (c : Char) : Reader Unit := do
  let _ ← char (· == c)

def lexeme (text : String) : Reader Unit := text.toList.forM skip

def run (accepts : Char → Bool) : Reader (List Char) := fun text => some (text.span accepts)

def run1 (accepts : Char → Bool) : Reader (List Char) := do
  let first ← char accepts
  return first :: (← run accepts)

def manyFrom (item : Reader α) (text : List Char) : List α × List Char :=
  match item text with
  | none => ([], text)
  | some (a, rest) =>
      if rest.length < text.length then
        let (others, last) := manyFrom item rest
        (a :: others, last)
      else ([], text)
termination_by text.length

def many (item : Reader α) : Reader (List α) := fun text => some (manyFrom item text)

def separated (item : Reader α) (separator : Reader Unit) : Reader (List α) := do
  let first ← item
  return first :: (← many (separator *> item))

def finish : Reader Unit
  | [] => some ((), [])
  | _ :: _ => none

end Reader

open Reader

def isBlank (c : Char) : Bool := c == ' ' || c == '\t'

/-- A character that may stand in a comment or a string: no control character but the tab. -/
def isPlain (c : Char) : Bool := c == '\t' || (' ' ≤ c && c != '\x7f')

def blank : Reader Unit := do
  let _ ← run isBlank

def newline : Reader Unit := lexeme "\n" <|> lexeme "\r\n"

def comment : Reader Unit := do
  skip '#'
  let _ ← run isPlain

def lineEnd : Reader Unit := do
  blank
  let _ ← optional comment
  newline <|> finish

def padding : Reader Unit := do
  let _ ← many ((do let _ ← run1 isBlank) <|> newline <|> (comment *> newline))

end Karst.Toml
