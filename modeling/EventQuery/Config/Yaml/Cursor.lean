namespace EventQuery

/-!
# Places in a YAML text

A cursor stands at a place of a text and knows its line and column, and the number of bytes in front
of it.  Line ends of one or two characters have become line feeds; the separators of lines and
paragraphs are line ends too.
-/

namespace Yaml

/-- Spaces and tabs. -/
def isBlank (char : Char) : Bool := char == ' ' || char == '\t'

/-- Line ends. -/
def isBreak (char : Char) : Bool := char == '\n' || char == '\u2028' || char == '\u2029'

/-- Whether a text is at a blank, a line end or its own end. -/
def atGap : List Char → Bool
  | [] => true
  | char :: _ => isBlank char || isBreak char

/-- The characters that a text may hold. -/
def isAllowed (char : Char) : Bool :=
  char == '\t' || char == '\n' || char == '\r' || (' ' ≤ char && char ≤ '~') || char == '\u0085' ||
    ('\u00a0' ≤ char && char ≠ '\ufffe' && char ≠ '\uffff')

/-- The characters of the names of anchors. -/
def isWordChar (char : Char) : Bool := char.isAlphanum || char == '_' || char == '-'

/-- A place in a text, with what follows it. -/
structure Cursor where
  rest : List Char
  line : Nat
  column : Nat
  /-- The number of bytes before this place. -/
  offset : Nat
  deriving Repr

namespace Cursor

/-- The beginning of a text. -/
def start (text : List Char) : Cursor := ⟨text, 0, 0, 0⟩

/-- The place behind the next character. -/
def next (cursor : Cursor) : Cursor :=
  match cursor.rest with
  | [] => cursor
  | char :: rest =>
      let offset := cursor.offset + char.utf8Size
      if isBreak char then ⟨rest, cursor.line + 1, 0, offset⟩
      else ⟨rest, cursor.line, cursor.column + 1, offset⟩

/-- The place behind some characters. -/
def skip (cursor : Cursor) : Nat → Cursor
  | 0 => cursor
  | count + 1 => cursor.next.skip count

/-- The characters at the front that belong to a class. -/
def span (cursor : Cursor) (belongs : Char → Bool) : List Char := cursor.rest.takeWhile belongs

/-- The place behind the characters of a class. -/
def skipWhile (cursor : Cursor) (belongs : Char → Bool) : Cursor :=
  cursor.skip (cursor.span belongs).length

/-- Whether the text goes on in a given way. -/
def startsWith (cursor : Cursor) (word : String) : Bool := word.toList.isPrefixOf cursor.rest

/-- The place behind a byte order mark, which may stand at the beginning of a line. -/
def skipByteOrderMark (cursor : Cursor) : Cursor :=
  if cursor.column == 0 && cursor.rest.head? == some '\ufeff' then cursor.next else cursor

/-- Whether a line starts here that begins or ends a document. -/
def atMarker (cursor : Cursor) : Bool :=
  cursor.column == 0 && (cursor.startsWith "---" || cursor.startsWith "...") &&
    atGap (cursor.rest.drop 3)

/-- Whether the text ends here. -/
def atEnd (cursor : Cursor) : Bool := cursor.rest.isEmpty

end Cursor

end Yaml

end EventQuery
