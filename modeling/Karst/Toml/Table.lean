import Karst.Data

/-!
Tables while a document is read. An entry that is there already is never replaced. Dotted keys
extend only tables that keys or headers have brought about on the way to something else, and a header
opens only a table that no header has opened and no dotted key has filled.
-/

namespace Karst.Toml

/-- How a table came about: opened by its own header, on the way of a longer header, or on the way
of a dotted key. -/
inductive Origin where
  | opened
  | implied
  | dotted
deriving DecidableEq, Repr

inductive Item where
  | value (data : Data)
  | table (origin : Origin) (entries : List (String × Item))
  /-- An array of tables; `last` is the one that headers extend. -/
  | tables (earlier : List (List (String × Item))) (last : List (String × Item))

abbrev Entries := List (String × Item)

namespace Entries

def alter (key : String) (change : Option Item → Option Item) : Entries → Option Entries
  | [] => (change none).map fun item => [(key, item)]
  | (other, item) :: rest =>
      if other = key then (change (some item)).map fun item => (other, item) :: rest
      else (alter key change rest).map ((other, item) :: ·)

/-- Sets a dotted key. The table that holds its last part is the given one or belongs to dotted keys
alone. -/
def assign (data : Data) : List String → Entries → Option Entries
  | [], _ => none
  | [key], entries => entries.alter key fun
      | none => some (.value data)
      | some _ => none
  | key :: path, entries => entries.alter key fun
      | none => (assign data path []).map (.table .dotted)
      | some (.table .dotted inner) => (assign data path inner).map (.table .dotted)
      | some (.table .implied inner) =>
          if path.length = 1 then none else (assign data path inner).map (.table .implied)
      | some (.tables earlier last) =>
          if path.length = 1 then none else (assign data path last).map (.tables earlier)
      | _ => none

def below (change : Entries → Option Entries) : List String → Entries → Option Entries
  | [], entries => change entries
  | key :: path, entries => entries.alter key fun
      | none => (below change path []).map (.table .implied)
      | some (.table origin inner) => (below change path inner).map (.table origin)
      | some (.tables earlier last) => (below change path last).map (.tables earlier)
      | some (.value _) => none

def openTable (fill : Entries → Option Entries) (key : String) (entries : Entries) :
    Option Entries := do
  let start ← match entries.lookup key with
    | none => some []
    | some (.table .implied inner) => some inner
    | some _ => none
  let filled ← fill start
  return entries.filter (·.1 != key) ++ [(key, .table .opened filled)]

def addElement (fill : Entries → Option Entries) (key : String) (entries : Entries) :
    Option Entries :=
  entries.alter key fun
    | none => (fill []).map (.tables [])
    | some (.tables earlier last) => (fill []).map (.tables (earlier ++ [last]))
    | some _ => none

end Entries

mutual

def Item.toData : Item → Data
  | .value data => data
  | .table _ entries => .table (entriesToData entries)
  | .tables earlier last => .list (tablesToData earlier ++ [.table (entriesToData last)])

def entriesToData : List (String × Item) → List (String × Data)
  | [] => []
  | (key, item) :: rest => (key, item.toData) :: entriesToData rest

def tablesToData : List (List (String × Item)) → List Data
  | [] => []
  | entries :: rest => .table (entriesToData entries) :: tablesToData rest

end

def Entries.toData (entries : Entries) : Data := .table (entriesToData entries)

structure Assignment where
  path : List String
  data : Data

def Entries.assignAll (assignments : List Assignment) (entries : Entries) : Option Entries :=
  assignments.foldlM (fun entries a => Entries.assign a.data a.path entries) entries

end Karst.Toml
