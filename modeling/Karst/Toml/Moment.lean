import Karst.Data
import Karst.Toml.Number

namespace Karst.Toml

open Reader

def exactly (count : Nat) : Reader Nat := do
  let written ← (List.replicate count ()).mapM fun _ => char isDecimal
  return valueOf 10 written

def within (lower upper count : Nat) : Reader Nat := do
  let value ← exactly count
  if lower ≤ value ∧ value ≤ upper then return value else failure

def isLeapYear (year : Nat) : Bool := year % 4 == 0 && (year % 100 != 0 || year % 400 == 0)

def daysInMonth (year month : Nat) : Nat :=
  if month = 2 then (if isLeapYear year then 29 else 28)
  else if month = 4 ∨ month = 6 ∨ month = 9 ∨ month = 11 then 30
  else 31

def date : Reader Unit := do
  let year ← exactly 4
  skip '-'
  let month ← within 1 12 2
  skip '-'
  let _ ← within 1 (daysInMonth year month) 2

def hourAndMinute : Reader Unit := do
  let _ ← within 0 23 2
  skip ':'
  let _ ← within 0 59 2

def timeOfDay : Reader Unit := do
  hourAndMinute
  skip ':'
  let _ ← within 0 60 2
  let _ ← optional (skip '.' *> run1 isDecimal)

def zone : Reader Unit :=
  (do let _ ← char fun c => c == 'Z' || c == 'z')
  <|> (do
    let _ ← char fun c => c == '+' || c == '-'
    hourAndMinute)

def timeAfterDate : Reader Unit := do
  let _ ← char fun c => c == 'T' || c == 't' || c == ' '
  timeOfDay
  let _ ← optional zone

def moment : Reader Data := do
  (do date; let _ ← optional timeAfterDate) <|> timeOfDay
  return .moment

end Karst.Toml
