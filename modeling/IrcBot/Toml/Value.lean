/-
The values of a TOML document, and the rules on which tables may still be
added to. A table written in braces is complete. A table opened by a header
takes the keys below the header and sub-tables, but cannot be opened again
nor be extended by a dotted key; one that only came about as a parent can
still be opened once. Every key is set once.
-/
import IrcBot.Text.Basic

namespace IrcBot.Toml

/-- How a table came about. -/
inductive Origin where
  /-- Written in braces. -/
  | inline
  /-- Opened by its own header. -/
  | header
  /-- The parent of a table that was opened by a header. -/
  | implied
  /-- The parent of a dotted key. -/
  | dotted
  deriving DecidableEq, Repr

inductive Value where
  | text (t : Text)
  | integer (i : Int)
  | boolean (b : Bool)
  | float
  | moment
  | list (items : List Value)
  | table (origin : Origin) (fields : List (Text × Value))
  /-- The tables opened by headers in double brackets. -/
  | tables (elements : List (List (Text × Value)))

abbrev Fields := List (Text × Value)

namespace Fields

def set (fs : Fields) (key : Text) (v : Value) : Fields :=
  if fs.any (·.1 == key) then fs.map fun f => if f.1 = key then (key, v) else f
  else fs ++ [(key, v)]

/-- Changes the last of several tables. -/
def changeLast (f : Fields → Option Fields) : List Fields → Option (List Fields)
  | [] => none
  | [fs] => (f fs).map ([·])
  | fs :: rest => (changeLast f rest).map (fs :: ·)

/-- Sets a key that is not there yet. -/
def setNew (key : Text) (v : Value) (fs : Fields) : Option Fields :=
  if (fs.lookup key).isSome then none else some (fs.set key v)

/-- Changes the table that a header's path leads to. Parents that are not there come about. -/
def changeAt (f : Fields → Option Fields) : List Text → Fields → Option Fields
  | [], fs => f fs
  | key :: path, fs =>
    match fs.lookup key with
    | none => (changeAt f path []).map fun sub => fs.set key (.table .implied sub)
    | some (.table .inline _) => none
    | some (.table origin sub) =>
      (changeAt f path sub).map fun sub => fs.set key (.table origin sub)
    | some (.tables elements) =>
      (changeLast (changeAt f path) elements).map fun es => fs.set key (.tables es)
    | some _ => none

/-- Changes the table that the parents of a dotted key lead to. That table
must itself have come about by dotted keys. -/
def changeDotted (f : Fields → Option Fields) : List Text → Fields → Option Fields
  | [], fs => f fs
  | key :: path, fs =>
    match fs.lookup key with
    | none => (changeDotted f path []).map fun sub => fs.set key (.table .dotted sub)
    | some (.table .dotted sub) =>
      (changeDotted f path sub).map fun sub => fs.set key (.table .dotted sub)
    | some (.table .implied sub) =>
      if path.isEmpty then none
      else (changeDotted f path sub).map fun sub => fs.set key (.table .implied sub)
    | some (.tables elements) =>
      if path.isEmpty then none
      else (changeLast (changeDotted f path) elements).map fun es => fs.set key (.tables es)
    | some _ => none

/-- Adds `parents.key = v`. -/
def assign (parents : List Text) (key : Text) (v : Value) (fs : Fields) : Option Fields :=
  changeDotted (setNew key v) parents fs

/-- Opens a table by its header. -/
def openTable (key : Text) (fs : Fields) : Option Fields :=
  match fs.lookup key with
  | none => some (fs.set key (.table .header []))
  | some (.table .implied sub) => some (fs.set key (.table .header sub))
  | some _ => none

/-- Opens the next of the tables that share a header in double brackets. -/
def openElement (key : Text) (fs : Fields) : Option Fields :=
  match fs.lookup key with
  | none => some (fs.set key (.tables [[]]))
  | some (.tables elements) => some (fs.set key (.tables (elements ++ [[]])))
  | some _ => none

end Fields

end IrcBot.Toml
