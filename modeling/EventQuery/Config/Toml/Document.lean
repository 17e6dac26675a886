import EventQuery.Config.Toml.Literal

namespace EventQuery

/-!
# TOML documents

A document is read line by line: a header opens a table, a header in double brackets opens one more
table of a list, and a pair adds to the table opened last.  Nothing can be defined twice.
-/

namespace Toml

/-! ## Keys -/

/-- Skip spaces and tabs. -/
def skipBlank (text : List Char) : List Char := text.dropWhile isBlank

/-- One part of a key: a bare word, or a string on one line. -/
def keyPart? : List Char → Option (String × List Char)
  | [] => none
  | char :: rest =>
      if char == '"' || char == '\'' then do
        let (content, after) ← lineString? char (rest.length + 1) rest
        return (String.ofList content, after)
      else
        let word := (char :: rest).takeWhile isKeyChar
        if word.isEmpty then none
        else some (String.ofList word, (char :: rest).drop word.length)

/-- The number of nested arrays and tables in braces, and of parts of a key, that is too great. -/
def depthLimit : Nat := 80

/-- One or more parts of a key with dots between them, and what follows them behind blanks. -/
def keyParts? : Nat → List Char → Option (List String × List Char)
  | 0, _ => none
  | fuel + 1, text => do
      let (first, after) ← keyPart? (skipBlank text)
      match skipBlank after with
      | '.' :: next =>
          let (rest, after) ← keyParts? fuel next
          return (first :: rest, after)
      | after => return ([first], after)

/-- A key, which has fewer parts than the limit, and what follows it behind blanks. -/
def key? (text : List Char) : Option (List String × List Char) := do
  let (parts, after) ← keyParts? (text.length + 1) text
  if parts.length < depthLimit then return (parts, after) else none

/-- The parts of a key before the last one, and the last one. -/
def splitLast? (parts : List String) : Option (List String × String) := do
  let last ← parts.getLast?
  return (parts.dropLast, last)

/-! ## Values -/

/-- Skip a comment, which reaches to the end of its line and holds no control characters. -/
def skipComment? (text : List Char) : Option (List Char) :=
  match text with
  | '#' :: rest =>
      if (rest.takeWhile (· != '\n')).all isPrintable then some (rest.dropWhile (· != '\n'))
      else none
  | _ => some text

/-- Skip blanks, comments and line ends. -/
def skipSpace? : Nat → List Char → Option (List Char)
  | 0, _ => none
  | fuel + 1, text => do
      match ← skipComment? (skipBlank text) with
      | '\n' :: rest => skipSpace? fuel rest
      | rest => return rest

/-- A word that is a value, and what follows it.  A date may have its time behind a space. -/
def word? (text : List Char) : Option (TomlValue × List Char) := do
  let word := text.takeWhile isWordChar
  let rest := text.drop word.length
  let value ← wordValue? word
  match rest with
  | ' ' :: next =>
      let time := next.takeWhile isWordChar
      if afterDate? word == some [] && isOffsetTime time then
        return (.date, next.drop time.length)
      else return (value, rest)
  | _ => return (value, rest)

mutual

/-- A value inside a number of arrays and tables in braces, and what follows it. -/
def value? : Nat → Nat → List Char → Option (TomlValue × List Char)
  | 0, _, _ => none
  | _ + 1, _, [] => none
  | fuel + 1, depth, char :: rest =>
      if char == '"' || char == '\'' then do
        let (content, after) ← string? char (char :: rest)
        return (.text content, after)
      else if char == '[' then do
        if depth + 1 ≥ depthLimit then none
        let (items, after) ← items? fuel (depth + 1) rest
        return (.array items, after)
      else if char == '\x7b' then do
        if depth + 1 ≥ depthLimit then none
        let (table, after) ← inlineTable? fuel (depth + 1) ⟨.inline, []⟩ rest
        return (table.value, after)
      else word? (char :: rest)

/-- The items of an array from behind its bracket or a comma, to its end. -/
def items? : Nat → Nat → List Char → Option (List TomlValue × List Char)
  | 0, _, _ => none
  | fuel + 1, depth, text => do
      match ← skipSpace? (text.length + 1) text with
      | ']' :: rest => return ([], rest)
      | start =>
          let (item, after) ← value? fuel depth start
          match ← skipSpace? (after.length + 1) after with
          | ',' :: rest =>
              let (items, last) ← items? fuel depth rest
              return (item :: items, last)
          | ']' :: rest => return ([item], rest)
          | _ => none

/-- The pairs of a table in braces, added to those read before.  Only an empty one ends at once. -/
def inlineTable? : Nat → Nat → TomlTable → List Char → Option (TomlTable × List Char)
  | 0, _, _, _ => none
  | fuel + 1, depth, table, text => do
      match skipBlank text, table.entries with
      | '\x7d' :: rest, [] => return (table, rest)
      | start, _ =>
          let (parts, after) ← key? start
          let (path, last) ← splitLast? parts
          match after with
          | '=' :: next =>
              let (value, after) ← value? fuel depth (skipBlank next)
              let grown ← TomlTable.addPair path last value table
              match skipBlank after with
              | ',' :: rest => inlineTable? fuel depth grown rest
              | '\x7d' :: rest => return (grown, rest)
              | _ => none
          | _ => none

end

/-! ## Lines -/

/-- What is known while a document is read: all of it so far, and the path of the open table. -/
structure Reading where
  root : TomlTable
  path : List String

/-- A line ends with an optional comment. -/
def lineEnd? (text : List Char) : Option (List Char) := do
  match ← skipComment? (skipBlank text) with
  | [] => return []
  | '\n' :: rest => return rest
  | _ => none

/-- A pair is added to the open table. -/
def addLine (reading : Reading) (path : List String) (key : String) (value : TomlValue) :
    Option Reading := do
  let root ← TomlTable.change false (TomlTable.addPair path key value) reading.path reading.root
  return { reading with root }

/-- A header of a table opens it. -/
def header? (reading : Reading) (text : List Char) : Option (Reading × List Char) := do
  let (parts, after) ← key? text
  let (path, last) ← splitLast? parts
  match after with
  | ']' :: rest =>
      let root ← TomlTable.define path last reading.root
      return (⟨root, parts⟩, ← lineEnd? rest)
  | _ => none

/-- A header in double brackets opens one more table. -/
def repeatedHeader? (reading : Reading) (text : List Char) : Option (Reading × List Char) := do
  let (parts, after) ← key? text
  let (path, last) ← splitLast? parts
  match after with
  | ']' :: ']' :: rest =>
      let root ← TomlTable.defineAnother path last reading.root
      return (⟨root, parts⟩, ← lineEnd? rest)
  | _ => none

/-- A line with a pair. -/
def pair? (reading : Reading) (text : List Char) : Option (Reading × List Char) := do
  let (parts, after) ← key? text
  let (path, last) ← splitLast? parts
  match after with
  | '=' :: next =>
      let (value, after) ← value? (next.length + 1) 0 (skipBlank next)
      return (← addLine reading path last value, ← lineEnd? after)
  | _ => none

/-- The lines of a document. -/
def lines? : Nat → Reading → List Char → Option TomlTable
  | 0, _, _ => none
  | fuel + 1, reading, text => do
      match ← skipSpace? (text.length + 1) text with
      | [] => return reading.root
      | '[' :: '[' :: rest =>
          let (next, after) ← repeatedHeader? reading rest
          lines? fuel next after
      | '[' :: rest =>
          let (next, after) ← header? reading rest
          lines? fuel next after
      | start =>
          let (next, after) ← pair? reading start
          lines? fuel next after

/-- Line ends of two characters become line feeds. -/
def normalize : List Char → List Char
  | '\r' :: '\n' :: rest => '\n' :: normalize rest
  | char :: rest => char :: normalize rest
  | [] => []

/-- Read a document, with an optional byte order mark in front. -/
def read? (text : String) : Option TomlTable :=
  let content := normalize (match text.toList with
    | '\ufeff' :: rest => rest
    | all => all)
  lines? (content.length + 1) ⟨⟨.header, []⟩, []⟩ content

end Toml

end EventQuery
