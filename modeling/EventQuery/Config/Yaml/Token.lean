import EventQuery.Config.Yaml.Scalar

namespace EventQuery

/-!
# Tokens of YAML

A text is a list of tokens.  The indentation of lines opens and closes blocks.  A key is known to be
one only at the colon behind it: then its token, and the one that opens a mapping, are put in front
of the key.  Such a key stands on one line.
-/

namespace Yaml

/-- How a scalar was written. -/
inductive ScalarStyle where
  | plain
  | quoted
  | literal
  | folded
  deriving DecidableEq, Repr

/-- A tag as written: the handle of a namespace, and a name in it. -/
structure TagName where
  handle : String
  suffix : String
  deriving DecidableEq, Repr

/-- One token. -/
inductive Token where
  | documentStart
  | documentEnd
  | version (major : Nat) (minor : Nat)
  | tagHandle (handle : String) (space : String)
  | sequenceStart
  | mappingStart
  | blockEnd
  | openBracket
  | closeBracket
  | openBrace
  | closeBrace
  | item
  | comma
  | key
  | value
  | anchor (name : String)
  | reference (name : String)
  | tag (name : TagName)
  | scalar (text : String) (style : ScalarStyle)
  deriving DecidableEq, Repr

/-- A place that may turn out to be the beginning of a key. -/
structure PossibleKey where
  /-- The number of tokens before it. -/
  position : Nat
  /-- Whether nothing but a key can stand there. -/
  isRequired : Bool
  cursor : Cursor

/-- What is known while a text is read. -/
structure Scanner where
  cursor : Cursor
  /-- The column of the innermost block. -/
  indent : Int
  /-- The columns of the blocks around it. -/
  outer : List Int
  /-- Whether a key may begin here. -/
  keyAllowed : Bool
  /-- The possible key outside all brackets, and those inside each open bracket, innermost first. -/
  keys : List (Option PossibleKey)
  tokens : Array Token

namespace Scanner

/-- The scanner at the beginning of a text. -/
def start (text : List Char) : Scanner := ⟨.start text, -1, [], true, [none], #[]⟩

/-- Whether a bracket is open. -/
def isFlow (scanner : Scanner) : Bool := scanner.keys.length > 1

/-- One more token. -/
def push (scanner : Scanner) (token : Token) : Scanner :=
  { scanner with tokens := scanner.tokens.push token }

/-- The scanner at another place. -/
def moveTo (scanner : Scanner) (cursor : Cursor) : Scanner := { scanner with cursor }

/-- Whether a key may begin from now on. -/
def allowKey (scanner : Scanner) (isAllowed : Bool) : Scanner :=
  { scanner with keyAllowed := isAllowed }

/-- A block opens when a column is farther to the right than the innermost block. -/
def roll (scanner : Scanner) (column : Nat) (position : Nat) (token : Token) : Scanner :=
  if scanner.isFlow || column ≤ scanner.indent then scanner
  else
    { scanner with
      indent := column
      outer := scanner.indent :: scanner.outer
      tokens := scanner.tokens.insertIdxIfInBounds position token }

/-- Close the blocks that are farther to the right than a column. -/
def unrollFrom (column : Int) (indent : Int) : List Int → Array Token → Int × List Int × Array Token
  | [], tokens => (indent, [], tokens)
  | next :: rest, tokens =>
      if indent > column then unrollFrom column next rest (tokens.push .blockEnd)
      else (indent, next :: rest, tokens)

/-- Outside brackets, close the blocks that are farther to the right than a column. -/
def unroll (scanner : Scanner) (column : Int) : Scanner :=
  if scanner.isFlow then scanner
  else
    let (indent, outer, tokens) := unrollFrom column scanner.indent scanner.outer scanner.tokens
    { scanner with indent, outer, tokens }

/-- A possible key on this line, not too far back; a required key must not be missed. -/
def refresh? (cursor : Cursor) : Option PossibleKey → Option (Option PossibleKey)
  | none => some none
  | some key =>
      if key.cursor.line < cursor.line || key.cursor.offset + 1024 < cursor.offset then
        if key.isRequired then none else some none
      else some (some key)

/-- Give up the possible keys that are too far back. -/
def refreshKeys? (scanner : Scanner) : Option Scanner := do
  let keys ← scanner.keys.mapM (refresh? scanner.cursor)
  return { scanner with keys }

/-- Give up the innermost possible key, which must not be required. -/
def dropKey? (scanner : Scanner) : Option Scanner :=
  match scanner.keys with
  | some key :: rest => if key.isRequired then none else some { scanner with keys := none :: rest }
  | _ => some scanner

/-- A key may begin here. -/
def saveKey? (scanner : Scanner) : Option Scanner :=
  if scanner.keyAllowed then do
    let isRequired := !scanner.isFlow && scanner.indent == scanner.cursor.column
    let cleared ← scanner.dropKey?
    let key : PossibleKey := ⟨scanner.tokens.size, isRequired, scanner.cursor⟩
    return { cleared with keys := some key :: cleared.keys.drop 1 }
  else some scanner

/-! ## Space -/

/-- Skip byte order marks, blanks, comments and line ends.  A tab is no indentation. -/
def skipSpace : Nat → Scanner → Scanner
  | 0, scanner => scanner
  | fuel + 1, scanner =>
      let tabs := scanner.isFlow || !scanner.keyAllowed
      let begun := scanner.cursor.skipByteOrderMark
      let blank := begun.skipWhile fun char => char == ' ' || (tabs && char == '\t')
      let ended :=
        if blank.rest.head? == some '#' then blank.skipWhile fun char => !isBreak char else blank
      if (ended.rest.head?.map isBreak).getD false then
        skipSpace fuel ((scanner.moveTo ended.next).allowKey (scanner.keyAllowed || !scanner.isFlow))
      else scanner.moveTo ended

/-! ## Directives, tags and names -/

/-- The characters of the names of tags, but for escapes. -/
def isUriChar (isVerbatim : Bool) (char : Char) : Bool :=
  isWordChar char || ";/?:@&=+$.!~*'()".toList.contains char ||
    (isVerbatim && (char == ',' || char == '[' || char == ']'))

/-- An escaped octet: a percent sign and two hexadecimal digits. -/
def octet? (cursor : Cursor) : Option (Nat × Cursor) :=
  match cursor.rest with
  | '%' :: high :: low :: _ => do
      return ((← hexValue? high) * 16 + (← hexValue? low), cursor.skip 3)
  | _ => none

/-- The number of octets that encode a character, by the first of them. -/
def octetCount? (first : Nat) : Option Nat :=
  if first < 0x80 then some 1
  else if 0xC0 ≤ first && first < 0xE0 then some 2
  else if 0xE0 ≤ first && first < 0xF0 then some 3
  else if 0xF0 ≤ first && first < 0xF8 then some 4
  else none

/-- Escaped octets that go on with a character. -/
def furtherOctets? : Nat → Cursor → Option (List Nat × Cursor)
  | 0, cursor => some ([], cursor)
  | count + 1, cursor => do
      let (octet, next) ← octet? cursor
      if octet < 0x80 || 0xC0 ≤ octet then none
      let (octets, last) ← furtherOctets? count next
      return (octet :: octets, last)

/-- The escaped octets of one character. -/
def escapedOctets? (cursor : Cursor) : Option (List Nat × Cursor) := do
  let (first, next) ← octet? cursor
  let count ← octetCount? first
  let (further, last) ← furtherOctets? (count - 1) next
  return (first :: further, last)

/-- The name of a tag, every octet of which is the character of its number. -/
def uri? (isVerbatim : Bool) : Nat → Cursor → Option (List Char × Cursor)
  | 0, _ => none
  | fuel + 1, cursor =>
      match cursor.rest with
      | [] => some ([], cursor)
      | char :: _ =>
          if char == '%' then do
            let (octets, next) ← escapedOctets? cursor
            let (name, last) ← uri? isVerbatim fuel next
            return (octets.map Char.ofNat ++ name, last)
          else if isUriChar isVerbatim char then do
            let (name, last) ← uri? isVerbatim fuel cursor.next
            return (char :: name, last)
          else some ([], cursor)

/-- The text of a name, which ends before the first octet zero. -/
def nameText (octets : List Char) : String := String.ofList (octets.takeWhile (· != '\x00'))

/-- A tag between angle brackets, from behind the first of them. -/
def verbatimTag? (cursor : Cursor) : Option (TagName × Cursor) := do
  let (name, after) ← uri? true (cursor.rest.length + 1) cursor
  if name.isEmpty || after.rest.head? ≠ some '>' then none
  else return (⟨"", nameText name⟩, after.next)

/-- A tag with or without a handle, from its exclamation mark. -/
def shortTag? (cursor : Cursor) : Option (TagName × Cursor) := do
  let word := cursor.next.span isWordChar
  let after := cursor.next.skip word.length
  let fuel := cursor.rest.length + 1
  if after.rest.head? == some '!' then
    let (name, last) ← uri? false fuel after.next
    if name.isEmpty then none
    else return (⟨"!" ++ String.ofList word ++ "!", nameText name⟩, last)
  else
    let (name, last) ← uri? false fuel after
    let suffix := nameText (word ++ name)
    return (if suffix.isEmpty then ⟨"", "!"⟩ else ⟨"!", suffix⟩, last)

/-- A tag, which a gap follows, or a comma inside brackets. -/
def tag? (isFlow : Bool) (cursor : Cursor) : Option (TagName × Cursor) := do
  let (name, after) ←
    if cursor.next.rest.head? == some '<' then verbatimTag? (cursor.skip 2) else shortTag? cursor
  if atGap after.rest || (isFlow && after.rest.head? == some ',') then return (name, after) else none

/-- The name of an anchor or a reference, from behind its mark. -/
def name? (cursor : Cursor) : Option (String × Cursor) :=
  let word := cursor.span isWordChar
  let after := cursor.skip word.length
  let isEnd := atGap after.rest ||
    (after.rest.head?.map fun char => "?:,]\x7d%@`".toList.contains char).getD false
  if word.isEmpty || !isEnd then none else some (String.ofList word, after)

/-- A number in decimal digits. -/
def number? (cursor : Cursor) : Option (Nat × Cursor) :=
  let digits := cursor.span Char.isDigit
  if digits.isEmpty || digits.length > 9 then none
  else
    some (digits.foldl (fun total digit => total * 10 + (digit.toNat - '0'.toNat)) 0,
      cursor.skip digits.length)

/-- The version that a directive names. -/
def version? (cursor : Cursor) : Option (Token × Cursor) := do
  let (major, after) ← number? cursor
  if after.rest.head? ≠ some '.' then none
  let (minor, last) ← number? after.next
  return (.version major minor, last)

/-- The handle that a directive declares, with the names that it stands for. -/
def tagDirective? (cursor : Cursor) : Option (Token × Cursor) := do
  let handle := cursor.span fun char => isWordChar char || char == '!'
  let after := cursor.skip handle.length
  let isHandle := handle.head? == some '!' && handle.getLast? == some '!' &&
    (handle.drop 1).dropLast.all isWordChar
  if !isHandle || !(after.rest.head?.map isBlank).getD false then none
  let (space, last) ← uri? true (cursor.rest.length + 1) (after.skipWhile isBlank)
  if space.isEmpty || !atGap last.rest then none
  else return (.tagHandle (String.ofList handle) (nameText space), last)

/-- A directive, from behind its percent sign, to the end of its line. -/
def directive? (cursor : Cursor) : Option (Token × Cursor) := do
  let word := cursor.span isWordChar
  let behind := cursor.skip word.length
  if !atGap behind.rest then none
  let after := behind.skipWhile isBlank
  let (token, last) ←
    if word == "YAML".toList then version? after
    else if word == "TAG".toList then tagDirective? after
    else none
  let blank := last.skipWhile isBlank
  let ended :=
    if blank.rest.head? == some '#' then blank.skipWhile fun char => !isBreak char else blank
  if ended.atEnd || (ended.rest.head?.map isBreak).getD false then return (token, ended.next)
  else none

/-! ## Single tokens -/

/-- A line that begins or ends a document. -/
def fetchMarker? (scanner : Scanner) : Option Scanner := do
  let token := if scanner.cursor.startsWith "---" then Token.documentStart else .documentEnd
  let closed ← (scanner.unroll (-1)).dropKey?
  return ((closed.allowKey false).push token).moveTo (scanner.cursor.skip 3)

/-- A directive. -/
def fetchDirective? (scanner : Scanner) : Option Scanner := do
  let closed ← (scanner.unroll (-1)).dropKey?
  let (token, after) ← directive? scanner.cursor.next
  return ((closed.allowKey false).push token).moveTo after

/-- An opening bracket. -/
def fetchOpen? (scanner : Scanner) (token : Token) : Option Scanner := do
  let saved ← scanner.saveKey?
  let opened := { saved with keys := none :: saved.keys }
  return ((opened.allowKey true).push token).moveTo scanner.cursor.next

/-- A closing bracket. -/
def fetchClose? (scanner : Scanner) (token : Token) : Option Scanner := do
  let cleared ← scanner.dropKey?
  let closed := if cleared.isFlow then { cleared with keys := cleared.keys.drop 1 } else cleared
  return ((closed.allowKey false).push token).moveTo scanner.cursor.next

/-- A comma. -/
def fetchComma? (scanner : Scanner) : Option Scanner := do
  let cleared ← scanner.dropKey?
  return ((cleared.allowKey true).push .comma).moveTo scanner.cursor.next

/-- The dash of an item.  Outside brackets it may open a sequence. -/
def fetchItem? (scanner : Scanner) : Option Scanner := do
  if !scanner.isFlow && !scanner.keyAllowed then none
  let rolled := scanner.roll scanner.cursor.column scanner.tokens.size .sequenceStart
  let cleared ← rolled.dropKey?
  return ((cleared.allowKey true).push .item).moveTo scanner.cursor.next

/-- The question mark of a key.  Outside brackets it may open a mapping. -/
def fetchKey? (scanner : Scanner) : Option Scanner := do
  if !scanner.isFlow && !scanner.keyAllowed then none
  let rolled := scanner.roll scanner.cursor.column scanner.tokens.size .mappingStart
  let cleared ← rolled.dropKey?
  return ((cleared.allowKey (!scanner.isFlow)).push .key).moveTo scanner.cursor.next

/-- The colon of a value: of a key that is known now, or of one that was marked or is empty. -/
def fetchValue? (scanner : Scanner) : Option Scanner :=
  match scanner.keys with
  | some key :: rest =>
      let marked := { scanner with
        keys := none :: rest
        tokens := scanner.tokens.insertIdxIfInBounds key.position .key }
      let rolled := marked.roll key.cursor.column key.position .mappingStart
      some (((rolled.allowKey false).push .value).moveTo scanner.cursor.next)
  | _ =>
      if !scanner.isFlow && !scanner.keyAllowed then none
      else
        let rolled := scanner.roll scanner.cursor.column scanner.tokens.size .mappingStart
        some (((rolled.allowKey (!scanner.isFlow)).push .value).moveTo scanner.cursor.next)

/-- An anchor, or a reference to one. -/
def fetchName? (scanner : Scanner) (token : String → Token) : Option Scanner := do
  let saved ← scanner.saveKey?
  let (name, after) ← name? scanner.cursor.next
  return ((saved.allowKey false).push (token name)).moveTo after

/-- A tag. -/
def fetchTag? (scanner : Scanner) : Option Scanner := do
  let saved ← scanner.saveKey?
  let (name, after) ← tag? scanner.isFlow scanner.cursor
  return ((saved.allowKey false).push (.tag name)).moveTo after

/-- A scalar in a block. -/
def fetchBlock? (scanner : Scanner) (style : ScalarStyle) : Option Scanner := do
  let cleared ← scanner.dropKey?
  let (content, after) ← block? (style == .literal) scanner.indent scanner.cursor.next
  return ((cleared.allowKey true).push (.scalar (String.ofList content) style)).moveTo after

/-- A scalar in quotes. -/
def fetchQuoted? (scanner : Scanner) (quote : Char) : Option Scanner := do
  let saved ← scanner.saveKey?
  let (content, after) ← quoted? quote (scanner.cursor.rest.length + 1) scanner.cursor.next
  return ((saved.allowKey false).push (.scalar (String.ofList content) .quoted)).moveTo after

/-- A scalar without quotes. -/
def fetchPlain? (scanner : Scanner) : Option Scanner := do
  let saved ← scanner.saveKey?
  let (content, isBroken, after) ←
    plain? scanner.isFlow (scanner.indent + 1) (scanner.cursor.rest.length + 1) .none scanner.cursor
  return ((saved.allowKey isBroken).push (.scalar (String.ofList content) .plain)).moveTo after

/-- Characters that begin no scalar without quotes. -/
def isIndicator (char : Char) : Bool :=
  "-?:,[]\x7b\x7d#&*!|>'\"%@`".toList.contains char

/-- Whether a scalar without quotes can begin with a character. -/
def beginsPlain (isFlow : Bool) (char : Char) (rest : List Char) : Bool :=
  !(isBlank char || isIndicator char) || (char == '-' && !(rest.head?.map isBlank).getD false) ||
    (!isFlow && (char == '?' || char == ':') && !atGap rest)

/-- The next token, at a place that is not the end. -/
def fetchAt? (scanner : Scanner) (char : Char) (rest : List Char) : Option Scanner :=
  if scanner.cursor.column == 0 && char == '%' then scanner.fetchDirective?
  else if scanner.cursor.atMarker then scanner.fetchMarker?
  else if char == '[' then scanner.fetchOpen? .openBracket
  else if char == '\x7b' then scanner.fetchOpen? .openBrace
  else if char == ']' then scanner.fetchClose? .closeBracket
  else if char == '\x7d' then scanner.fetchClose? .closeBrace
  else if char == ',' then scanner.fetchComma?
  else if char == '-' && atGap rest then scanner.fetchItem?
  else if char == '?' && (scanner.isFlow || atGap rest) then scanner.fetchKey?
  else if char == ':' && (scanner.isFlow || atGap rest) then scanner.fetchValue?
  else if char == '*' then scanner.fetchName? .reference
  else if char == '&' then scanner.fetchName? .anchor
  else if char == '!' then scanner.fetchTag?
  else if char == '|' && !scanner.isFlow then scanner.fetchBlock? .literal
  else if char == '>' && !scanner.isFlow then scanner.fetchBlock? .folded
  else if char == '\'' || char == '"' then scanner.fetchQuoted? char
  else if beginsPlain scanner.isFlow char rest then scanner.fetchPlain?
  else none

/-- At the end all blocks close. -/
def finish? (scanner : Scanner) : Option (List Token) := do
  let closed ← (scanner.unroll (-1)).dropKey?
  return closed.tokens.toList

/-- The tokens from a place on. -/
def run? : Nat → Scanner → Option (List Token)
  | 0, _ => none
  | fuel + 1, scanner => do
      let spaced ← (skipSpace (scanner.cursor.rest.length + 1) scanner).refreshKeys?
      let ready := spaced.unroll spaced.cursor.column
      match ready.cursor.rest with
      | [] => ready.finish?
      | char :: rest =>
          let fetched ← ready.fetchAt? char rest
          run? fuel fetched

end Scanner

/-- Line ends of one or two characters become line feeds. -/
def normalize : List Char → List Char
  | '\r' :: '\n' :: rest => '\n' :: normalize rest
  | '\r' :: rest => '\n' :: normalize rest
  | '\u0085' :: rest => '\n' :: normalize rest
  | char :: rest => char :: normalize rest
  | [] => []

/-- The tokens of a text. -/
def tokens? (text : String) : Option (List Token) :=
  if text.toList.all isAllowed then
    let lines := normalize text.toList
    (Scanner.start lines).run? (lines.length + 1)
  else none

end Yaml

end EventQuery
