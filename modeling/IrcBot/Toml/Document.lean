/-
Documents. A document is read line by line into statements (a header, or a
key with its value), and the statements are carried out on one table. It is
refused as a whole if a line cannot be read or a statement breaks the rules
on tables.
-/
import IrcBot.Toml.Quoted

namespace IrcBot.Toml

/-! ## Keys -/

def isBareKeyChar (c : Char) : Bool := c.isAlphanum || c == '_' || c == '-'

def readKeyPart (t : Text) : Option (Text × Text) :=
  match t with
  | '"' :: _ | '\'' :: _ => readShortQuoted t
  | _ =>
    match t.span isBareKeyChar with
    | ([], _) => none
    | r => some r

/-- A key with its dots, no further part than `fuel` of them, and the spaces around. -/
def readKeyParts : Nat → Reader (List Text)
  | 0, _ => none
  | fuel + 1, t => do
    let (part, t) ← readKeyPart (t.dropWhile isSpace)
    match t.dropWhile isSpace with
    | '.' :: t =>
      let (parts, t) ← readKeyParts fuel t
      return (part :: parts, t)
    | t => return ([part], t)

/-- How deep values may nest, and how many parts a key may have. -/
def depthLimit : Nat := 79

/-- A key as its parents and its last part. -/
def readKey (t : Text) : Option ((List Text × Text) × Text) := do
  let (parts, t) ← readKeyParts depthLimit t
  return ((parts.dropLast, ← parts.getLast?), t)

/-! ## Values -/

/-- Skips a comment, which reaches to the end of its line. -/
def skipComment : Text → Text
  | '#' :: t => t.dropWhile isPlain
  | t => t

/-- Skips spaces, line ends and comments. -/
def skipBlank (t : Text) : Text :=
  let rest := skipComment (skipLines t)
  if rest.length < t.length then skipBlank rest else t
  termination_by t.length

/-- Items with commas between them; with `last`, one comma may follow the last of them. -/
def readItems {α : Type} (item : Reader α) (skip : Text → Text) (last : Bool) (close : Char)
    (t : Text) : Option (List α × Text) :=
  match item (skip t) with
  | none => none
  | some (a, rest) =>
    match skip rest with
    | [] => none
    | c :: rest =>
      if c = close then some ([a], rest)
      else if c = ',' then
        match skip rest with
        | d :: tail =>
          if last ∧ d = close then some ([a], tail)
          else if rest.length < t.length then
            (readItems item skip last close rest).map fun r => (a :: r.1, r.2)
          else none
        | [] => none
      else none
  termination_by t.length

/-- A bracketed list of items, which may be empty. -/
def readBracketed {α : Type} (item : Reader α) (skip : Text → Text) (last : Bool) (close : Char)
    (t : Text) : Option (List α × Text) :=
  match skip t with
  | c :: rest => if c = close then some ([], rest) else readItems item skip last close t
  | [] => none

def readAssignment (value : Reader Value) (t : Text) :
    Option ((List Text × Text × Value) × Text) := do
  let ((parents, key), t) ← readKey t
  match t with
  | '=' :: t =>
    let (v, t) ← value (t.dropWhile isSpace)
    return ((parents, key, v), t)
  | _ => none

/-- Carries out assignments on a table. -/
def assignAll (fs : Fields) (assignments : List (List Text × Text × Value)) : Option Fields :=
  assignments.foldlM (fun fs a => fs.assign a.1 a.2.1 a.2.2) fs

/-- A value with no more brackets inside one another than `depth`. -/
def readValue : Nat → Reader Value
  | depth, t =>
    match t with
    | '"' :: _ | '\'' :: _ => (readQuoted t).map fun r => (.text r.1, r.2)
    | '[' :: rest =>
      match depth with
      | 0 => none
      | depth + 1 =>
        (readBracketed (readValue depth) skipBlank true ']' rest).map fun r => (.list r.1, r.2)
    | '\x7b' :: rest =>
      match depth with
      | 0 => none
      | depth + 1 => do
        let (assignments, rest) ← readBracketed (readAssignment (readValue depth))
          (·.dropWhile isSpace) false '\x7d' rest
        return (.table .inline (← assignAll [] assignments), rest)
    | _ =>
      let (word, rest) := takeWord t
      (scalar? word).map (·, rest)

/-! ## Statements -/

inductive Statement where
  | assign (parents : List Text) (key : Text) (v : Value)
  | header (parents : List Text) (key : Text)
  | element (parents : List Text) (key : Text)

def readStatement (t : Text) : Option (Statement × Text) :=
  match t with
  | '[' :: '[' :: t => do
    let ((parents, key), t) ← readKey t
    match t with
    | ']' :: ']' :: t => return (.element parents key, t)
    | _ => none
  | '[' :: t => do
    let ((parents, key), t) ← readKey t
    match t with
    | ']' :: t => return (.header parents key, t)
    | _ => none
  | t => do
    let ((parents, key, v), t) ← readAssignment (readValue depthLimit) t
    return (.assign parents key v, t)

/-- Ends a line: spaces, perhaps a comment, and a line end or the end of the document. -/
def readLineEnd (t : Text) : Option (Unit × Text) :=
  match skipComment (t.dropWhile isSpace) with
  | [] => some ((), [])
  | t => readNewline t

def readStatements (t : Text) : Option (List Statement) :=
  match t.dropWhile isSpace with
  | [] => some []
  | t' =>
    match readLineEnd t' with
    | some (_, rest) => if rest.length < t.length then readStatements rest else none
    | none => do
      let (s, rest) ← readStatement t'
      let (_, rest) ← readLineEnd rest
      if rest.length < t.length then
        return s :: (← readStatements rest)
      else none
  termination_by t.length

/-- The table built so far, and the path of the header above the next line. -/
structure State where
  root : Fields := []
  path : List Text := []

def State.apply (s : State) : Statement → Option State
  | .assign parents key v => do
    return { s with root := ← Fields.changeAt (Fields.assign parents key v) s.path s.root }
  | .header parents key => do
    return {
      root := ← Fields.changeAt (Fields.openTable key) parents s.root
      path := parents ++ [key] }
  | .element parents key => do
    return {
      root := ← Fields.changeAt (Fields.openElement key) parents s.root
      path := parents ++ [key] }

/-- A byte order mark in front of a document is no part of it. -/
def dropMark : Text → Text
  | '\uFEFF' :: t => t
  | t => t

def parse (t : Text) : Option Fields := do
  let statements ← readStatements (dropMark t)
  let s ← statements.foldlM State.apply {}
  return s.root

end IrcBot.Toml
