import PageTree.Toml.Document
import PageTree.Toml.Scan

/-!
Reading a TOML document: values, the statements of the document, and the table that they describe.
-/

namespace PageTree.Toml

/-- Arrays and inline tables may nest less deep than this. -/
def nestingLimit : Nat := 80

def number? (cs : List Char) : Option (Toml × List Char) :=
  (moment? cs).or ((fractional? cs).or ((special? cs).or (integer? cs)))

def scalar? (cs : List Char) : Option (Toml × List Char) :=
  match cs with
  | 't' :: 'r' :: 'u' :: 'e' :: rest => some (.boolean true, rest)
  | 'f' :: 'a' :: 'l' :: 's' :: 'e' :: rest => some (.boolean false, rest)
  | '"' :: rest => (string '"' rest).map fun (cs, rest) => (.text (String.ofList cs), rest)
  | '\'' :: rest => (string '\'' rest).map fun (cs, rest) => (.text (String.ofList cs), rest)
  | _ => number? cs

def skipAll (cs : List Char) : List Char := skipLines (cs.length + 1) cs

mutual

def readValue : Nat → Nat → List Char → Option (Toml × List Char)
  | 0, _, _ => none
  | steps + 1, depth, cs =>
    match cs with
    | '[' :: rest =>
      if nestingLimit ≤ depth + 1 then none
      else (readItems steps (depth + 1) (skipAll rest)).map fun (items, rest) => (.array items, rest)
    | '{' :: rest =>
      if nestingLimit ≤ depth + 1 then none
      else
        match skipBlank rest with
        | '}' :: rest => some (.table [], rest)
        | rest => do
          let (assignments, rest) ← readAssignments steps (depth + 1) rest
          let entries ← Entries.assignAll [] assignments
          return (.table (entriesToToml entries), rest)
    | _ => scalar? cs

def readItems : Nat → Nat → List Char → Option (List Toml × List Char)
  | 0, _, _ => none
  | steps + 1, depth, cs =>
    match cs with
    | ']' :: rest => some ([], rest)
    | _ => do
      let (item, rest) ← readValue steps depth cs
      match skipAll rest with
      | ',' :: rest =>
        (readItems steps depth (skipAll rest)).map fun (items, rest) => (item :: items, rest)
      | ']' :: rest => return ([item], rest)
      | _ => none

def readAssignments : Nat → Nat → List Char → Option (List Assignment × List Char)
  | 0, _, _ => none
  | steps + 1, depth, cs => do
    let ((path, name), rest) ← key cs
    let rest ← expect '=' rest
    let (value, rest) ← readValue steps depth (skipBlank rest)
    match skipBlank rest with
    | ',' :: rest =>
      (readAssignments steps depth rest).map fun (others, rest) => (⟨path, name, value⟩ :: others, rest)
    | '}' :: rest => return ([⟨path, name, value⟩], rest)
    | _ => none

end

inductive Statement where
  | header (header : Header)
  | assignment (assignment : Assignment)

def readStatement (cs : List Char) : Option (Statement × List Char) :=
  match cs with
  | '[' :: '[' :: rest => do
    let ((path, name), rest) ← key rest
    let rest ← lineEnd? (← expect ']' (← expect ']' rest))
    return (.header (.element path name), rest)
  | '[' :: rest => do
    let ((path, name), rest) ← key rest
    let rest ← lineEnd? (← expect ']' rest)
    return (.header (.table path name), rest)
  | _ => do
    let ((path, name), rest) ← key cs
    let rest ← expect '=' rest
    let (value, rest) ← readValue (2 * rest.length + 2) 0 (skipBlank rest)
    return (.assignment ⟨path, name, value⟩, ← lineEnd? rest)

def readStatements : Nat → List Char → Option (List Statement)
  | 0, _ => none
  | steps + 1, cs =>
    match skipAll cs with
    | [] => some []
    | cs => do
      let (statement, rest) ← readStatement cs
      return statement :: (← readStatements steps rest)

def Document.addFirst (statement : Statement) (document : Document) : Document :=
  match statement with
  | .assignment a => { document with top := a :: document.top }
  | .header header => ⟨[], ⟨header, document.top⟩ :: document.sections⟩

def Document.ofStatements (statements : List Statement) : Document :=
  statements.foldr Document.addFirst {}

/-- The table that a document describes. A byte order mark before it does not count. -/
def parse? (text : String) : Option Table := do
  let cs := match text.toList with
    | '\uFEFF' :: rest => rest
    | cs => cs
  let statements ← readStatements (cs.length + 1) cs
  (Document.ofStatements statements).table?

end PageTree.Toml
