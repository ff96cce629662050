import Karst.Toml.Reader

namespace Karst.Toml

open Reader

def hexDigit? (c : Char) : Option Nat :=
  if '0' ≤ c ∧ c ≤ '9' then some (c.toNat - '0'.toNat)
  else if 'a' ≤ c ∧ c ≤ 'f' then some (c.toNat - 'a'.toNat + 10)
  else if 'A' ≤ c ∧ c ≤ 'F' then some (c.toNat - 'A'.toNat + 10)
  else none

def scalar? (code : Nat) : Option Char :=
  if code.isValidChar then some (Char.ofNat code) else none

def codePoint (digits : Nat) : Reader Char := do
  let written ← (List.replicate digits ()).mapM fun _ => char fun c => (hexDigit? c).isSome
  liftM (scalar? (written.foldl (fun n c => 16 * n + (hexDigit? c).getD 0) 0))

def escape : Reader Char := do
  skip '\\'
  match ← char fun _ => true with
  | 'b' => return '\x08'
  | 'f' => return '\x0c'
  | 'n' => return '\n'
  | 'r' => return '\r'
  | 't' => return '\t'
  | '"' => return '"'
  | '\\' => return '\\'
  | 'u' => codePoint 4
  | 'U' => codePoint 8
  | _ => failure

def isBasic (c : Char) : Bool := isPlain c && c != '"' && c != '\\'

def isLiteral (c : Char) : Bool := isPlain c && c != '\''

def basicPiece : Reader (List Char) := run1 isBasic <|> (List.singleton <$> escape)

def basic : Reader (List Char) := do
  skip '"'
  let pieces ← many basicPiece
  skip '"'
  return pieces.flatten

def literal : Reader (List Char) := do
  skip '\''
  let content ← run isLiteral
  skip '\''
  return content

/-- A backslash that ends its line: it and all blanks and line ends after it stand for nothing. -/
def continuation : Reader (List Char) := do
  skip '\\'
  blank
  newline
  let _ ← many ((do let _ ← run1 isBlank) <|> newline)
  return []

/-- One or two quotes inside text that three of them close. -/
def innerQuotes (quote : Char) : Reader (List Char) := do
  let quotes ← run1 (· == quote)
  if quotes.length ≤ 2 then return quotes else failure

/-- The closing quotes, before which up to two more belong to the text. -/
def closingQuotes (quote : Char) : Reader (List Char) := do
  let quotes ← run (· == quote)
  if 3 ≤ quotes.length ∧ quotes.length ≤ 5 then return quotes.drop 3 else failure

/-- Text between tripled quotes; a line end right after the opening ones is not part of it. -/
def multiline (quote : Char) (piece : Reader (List Char)) : Reader (List Char) := do
  lexeme (String.ofList [quote, quote, quote])
  let _ ← optional newline
  let pieces ← many (piece <|> (do newline; return ['\n']) <|> innerQuotes quote)
  return pieces.flatten ++ (← closingQuotes quote)

def basicMultiline : Reader (List Char) :=
  multiline '"' (run1 isBasic <|> continuation <|> basicPiece)

def literalMultiline : Reader (List Char) := multiline '\'' (run1 isLiteral)

def quoted : Reader String := String.ofList <$> (basic <|> literal)

def string : Reader String := (String.ofList <$> (basicMultiline <|> literalMultiline)) <|> quoted

end Karst.Toml
