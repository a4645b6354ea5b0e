import TemplateBindings.Toml.Value

/-!
# TOML documents

A document is a list of statements: a key with its value, or the header of the table that the
following keys belong to. No statement may change what an earlier one has settled: a table is
declared once, a table that keys with dots have made is not declared by a header, and lists and
inline tables are closed for ever.
-/

namespace TemplateBindings
namespace Toml

open Settings

/-- **A document as far as it is read**. -/
structure Document where
  /-- The table of the document. -/
  table : Table := []
  /-- The key of the table that keys belong to. -/
  header : List Text := []
  /-- The keys of the tables that are declared. -/
  declared : List (List Text) := []
  /-- The keys of the lists and inline tables, which are closed with everything below them. -/
  closed : List (List Text) := []
  /-- The keys of the tables made by keys with dots, which the next header declares. -/
  pending : List (List Text) := []

/-- The nonempty proper beginnings of a key, the shorter ones first. -/
def beginnings (key : List Text) : List (List Text) :=
  (List.range (key.length - 1)).map fun n => key.take (n + 1)

/-- The document behind a key with its value. -/
def Document.addPair (document : Document) (key : List Text) (value : Value) : Option Document :=
  let made := (beginnings key).map (document.header ++ ·)
  let whole := document.header ++ key
  if made.any document.declared.contains || coversKey document.closed whole.dropLast then none
  else
    let table? := changeAt true (addNew (key.getLast?.getD []) value) whole.dropLast document.table
    table?.map fun table =>
      { document with
        table
        pending := made ++ document.pending
        closed := if isNested value then whole :: document.closed else document.closed }

/-- The document with the pending tables declared. -/
def Document.settle (document : Document) : Document :=
  { document with declared := document.pending ++ document.declared, pending := [] }

/-- The document behind the header of a table. -/
def Document.openTable (document : Document) (key : List Text) : Option Document :=
  if document.declared.contains key || coversKey document.closed key then none
  else
    (changeAt true some key document.table).map fun table =>
      { document with table, header := key, declared := key :: document.declared }

/-- The document behind the header of one more table of a list. What was settled below the table
before is open again in this one. -/
def Document.openItem (document : Document) (key : List Text) : Option Document :=
  if coversKey document.closed key then none
  else
    (changeAt true (addTable (key.getLast?.getD [])) key.dropLast document.table).map fun table =>
      { document with
        table
        header := key
        declared := key :: document.declared.filter fun way => !key.isPrefixOf way
        closed := document.closed.filter fun way => !key.isPrefixOf way }

/-- A header behind its opening brackets, up to its closing ones. -/
def readHeader (closing : Text) (s : Text) : Reading (List Text) :=
  match readKey (s.length + 1) (skipInline s) with
  | .error fault => .error fault
  | .ok (key, rest) =>
    match Text.after? closing rest with
    | some rest => .ok (key, rest)
    | none => malformed

/-- What a change of a document gives, as a reading. -/
def changed (document : Option Document) (rest : Text) : Reading Document :=
  match document with
  | some document => .ok (document, rest)
  | none => malformed

/-- The document behind the statement at the front of a text. -/
def readStatement (document : Document) (s : Text) : Reading Document :=
  match s with
  | '[' :: '[' :: rest =>
    match readHeader [']', ']'] rest with
    | .error fault => .error fault
    | .ok (key, rest) => changed (document.settle.openItem key) rest
  | '[' :: rest =>
    match readHeader [']'] rest with
    | .error fault => .error fault
    | .ok (key, rest) => changed (document.settle.openTable key) rest
  | _ =>
    match readPair (2 * s.length + 2) nestingRoom s with
    | .error fault => .error fault
    | .ok ((key, value), rest) => changed (document.addPair key value) rest

/-- The document behind all statements of a text. -/
def readStatements : (steps : Nat) → Document → Text → Except Fault Document
  | 0, _, _ => .error .malformed
  | steps + 1, document, s =>
    match skipInline s with
    | [] => .ok document
    | '\n' :: rest => readStatements steps document rest
    | s =>
      let statement : Reading Document :=
        match s with
        | '#' :: _ => .ok (document, s)
        | _ => readStatement document s
      match statement with
      | .error fault => .error fault
      | .ok (document, rest) =>
        match skipComment (skipInline rest) with
        | .error fault => .error fault
        | .ok [] => .ok document
        | .ok ('\n' :: rest) => readStatements steps document rest
        | .ok _ => .error .malformed

/-- The text with each carriage return that stands before a line feed left out. -/
def dropReturns : Text → Text
  | '\r' :: '\n' :: rest => '\n' :: dropReturns rest
  | c :: rest => c :: dropReturns rest
  | [] => []

/-- **The table that a document holds**. -/
def read (s : Text) : Except Fault Table :=
  let s := dropReturns s
  (readStatements (s.length + 1) {} s).map (·.table)

end Toml
end TemplateBindings
