import Karst.Toml.Value

namespace Karst.Toml

open Reader

inductive Header where
  | table (path : List String)
  | element (path : List String)

inductive Line where
  | blank
  | header (header : Header)
  | assignment (assignment : Assignment)

def header : Reader Header :=
  (do
    lexeme "[["
    let path ← key
    lexeme "]]"
    return .element path)
  <|> (do
    skip '['
    let path ← key
    skip ']'
    return .table path)

def line : Reader Line := do
  blank
  (do newline; return .blank)
  <|> (do comment; newline <|> finish; return .blank)
  <|> (do
    let header ← header
    lineEnd
    return .header header)
  <|> (do
    let assignment ← assignment (value maxDepth)
    lineEnd
    return .assignment assignment)

structure Section where
  header : Header
  assignments : List Assignment

def sections : List Line → List Assignment × List Section
  | [] => ([], [])
  | .blank :: rest => sections rest
  | .header header :: rest =>
      let (assignments, others) := sections rest
      ([], ⟨header, assignments⟩ :: others)
  | .assignment assignment :: rest =>
      let (assignments, others) := sections rest
      (assignment :: assignments, others)

def Entries.addSection (entries : Entries) (s : Section) : Option Entries :=
  match s.header with
  | .table path => do
      let key ← path.getLast?
      entries.below (Entries.openTable (Entries.assignAll s.assignments) key) path.dropLast
  | .element path => do
      let key ← path.getLast?
      entries.below (Entries.addElement (Entries.assignAll s.assignments) key) path.dropLast

def document : Reader (List Line) := do
  let _ ← optional (skip '\ufeff')
  let lines ← many line
  blank
  finish
  return lines

/-- The table that a document stands for, with its entries in the order in which they were
completed; none if the document is not well formed. -/
def read? (text : String) : Option Data := do
  let (lines, _) ← document text.toList
  let (assignments, others) := sections lines
  let root ← Entries.assignAll assignments []
  let entries ← others.foldlM Entries.addSection root
  return entries.toData

end Karst.Toml
