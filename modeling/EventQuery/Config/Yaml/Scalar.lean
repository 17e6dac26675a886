import EventQuery.Config.Yaml.Cursor

namespace EventQuery

/-!
# Scalars of YAML

A scalar is a text without quotes, between quotes, or in a block of its own lines.  Where a scalar
other than a literal block goes on over several lines, one line end is a space and the line ends
behind it stay.
-/

namespace Yaml

/-- The white space between two parts of a scalar. -/
structure Gap where
  /-- The blanks before the first line end. -/
  blanks : List Char
  /-- Whether there is a line end. -/
  isBroken : Bool
  /-- The first line end, unless it was escaped. -/
  first : Option Char
  /-- The further line ends. -/
  further : List Char

namespace Gap

/-- No white space. -/
def none : Gap := ⟨[], false, .none, []⟩

/-- What a gap contributes to a scalar. -/
def content (gap : Gap) : List Char :=
  if gap.isBroken then
    match gap.first with
    | some '\n' => if gap.further.isEmpty then [' '] else gap.further
    | some char => char :: gap.further
    | .none => gap.further
  else gap.blanks

/-- A gap with one more character. -/
def add (gap : Gap) (char : Char) : Gap :=
  if isBreak char then
    if gap.isBroken then { gap with further := gap.further ++ [char] }
    else ⟨[], true, some char, []⟩
  else if gap.isBroken then gap
  else { gap with blanks := gap.blanks ++ [char] }

end Gap

/--
The white space from a place on.  Below an indentation a line may not be indented by tabs.
-/
def readGap (indent : Int) : Nat → Gap → Cursor → Option (Gap × Cursor)
  | 0, _, _ => none
  | fuel + 1, gap, cursor =>
      match cursor.rest with
      | [] => some (gap, cursor)
      | char :: _ =>
          if isBlank char || isBreak char then
            if gap.isBroken && cursor.column < indent && char == '\t' then none
            else readGap indent fuel (gap.add char) cursor.next
          else some (gap, cursor)

/-! ## Scalars in quotes -/

/-- The value of a hexadecimal digit. -/
def hexValue? (char : Char) : Option Nat :=
  if char.isDigit then some (char.toNat - '0'.toNat)
  else if 'a' ≤ char && char ≤ 'f' then some (char.toNat - 'a'.toNat + 10)
  else if 'A' ≤ char && char ≤ 'F' then some (char.toNat - 'A'.toNat + 10)
  else none

/-- The character of a number in hexadecimal digits. -/
def hexChar? (digits : List Char) : Option Char := do
  let values ← digits.mapM hexValue?
  let code := values.foldl (fun total value => total * 16 + value) 0
  if code.isValidChar then return Char.ofNat code else none

/-- The character of an escape of one letter. -/
def simpleEscape? : Char → Option Char
  | '0' => some '\x00'
  | 'a' => some '\x07'
  | 'b' => some '\x08'
  | 't' | '\t' => some '\t'
  | 'n' => some '\n'
  | 'v' => some '\x0b'
  | 'f' => some '\x0c'
  | 'r' => some '\r'
  | 'e' => some '\x1b'
  | ' ' => some ' '
  | '"' => some '"'
  | '/' => some '/'
  | '\\' => some '\\'
  | 'N' => some '\u0085'
  | '_' => some '\u00a0'
  | 'L' => some '\u2028'
  | 'P' => some '\u2029'
  | _ => none

/-- The number of hexadecimal digits of an escape. -/
def hexLength? : Char → Option Nat
  | 'x' => some 2
  | 'u' => some 4
  | 'U' => some 8
  | _ => none

/-- The character of an escape, from behind its backslash, and the place behind it. -/
def escape? (cursor : Cursor) : Option (Char × Cursor) := do
  let letter ← cursor.rest.head?
  match hexLength? letter with
  | some count =>
      let digits := cursor.next.rest.take count
      if digits.length < count then none
      return (← hexChar? digits, cursor.next.skip count)
  | none => return (← simpleEscape? letter, cursor.next)

/-- A scalar in quotes, from behind the opening one.  Double quotes allow escapes. -/
def quoted? (quote : Char) : Nat → Cursor → Option (List Char × Cursor)
  | 0, _ => none
  | fuel + 1, cursor =>
      if cursor.atMarker then none
      else
        match cursor.rest with
        | [] => none
        | char :: after =>
            if char == quote then
              if quote == '\'' && after.head? == some '\'' then do
                let (content, last) ← quoted? quote fuel (cursor.skip 2)
                return ('\'' :: content, last)
              else some ([], cursor.next)
            else if isBlank char || isBreak char then do
              let (gap, next) ← readGap 0 (cursor.rest.length + 1) .none cursor
              let (content, last) ← quoted? quote fuel next
              return (gap.content ++ content, last)
            else if char == '\\' && quote == '"' then
              if (after.head?.map isBreak).getD false then do
                let escaped : Gap := ⟨[], true, none, []⟩
                let (gap, next) ← readGap 0 (cursor.rest.length + 1) escaped (cursor.skip 2)
                let (content, last) ← quoted? quote fuel next
                return (gap.content ++ content, last)
              else do
                let (escaped, next) ← escape? cursor.next
                let (content, last) ← quoted? quote fuel next
                return (escaped :: content, last)
            else do
              let (content, last) ← quoted? quote fuel cursor.next
              return (char :: content, last)

/-! ## Scalars without quotes -/

/-- The characters that end a scalar without quotes inside brackets. -/
def isFlowMark (char : Char) : Bool :=
  char == ',' || char == '[' || char == ']' || char == '\x7b' || char == '\x7d'

/-- A run of characters of a scalar without quotes, inside brackets or not. -/
def plainRun? (isFlow : Bool) : List Char → Option (List Char)
  | [] => some []
  | char :: rest =>
      if isBlank char || isBreak char then some []
      else if isFlow && char == ':' && (rest.head?.map fun c => isFlowMark c || c == '?').getD false
      then none
      else if char == ':' && atGap rest then some []
      else if isFlow && isFlowMark char then some []
      else (plainRun? isFlow rest).map (char :: ·)

/--
A scalar without quotes, after a gap, whose lines are indented.  Tells also whether a line end
follows it.
-/
def plain? (isFlow : Bool) (indent : Int) : Nat → Gap → Cursor → Option (List Char × Bool × Cursor)
  | 0, _, _ => none
  | fuel + 1, gap, cursor =>
      if cursor.atMarker || cursor.rest.head? == some '#' then some ([], gap.isBroken, cursor)
      else do
        let run ← plainRun? isFlow cursor.rest
        if run.isEmpty then return ([], gap.isBroken, cursor)
        let after := cursor.skip run.length
        let lead := gap.content ++ run
        if !atGap after.rest || after.atEnd then return (lead, false, after)
        let (nextGap, next) ← readGap indent (after.rest.length + 1) .none after
        if !isFlow && next.column < indent then return (lead, nextGap.isBroken, next)
        let (content, isBroken, last) ← plain? isFlow indent fuel nextGap next
        return (lead ++ content, isBroken, last)

/-! ## Scalars in blocks -/

/-- What becomes of the line ends at the end of a block. -/
inductive Chomping where
  | strip
  | clip
  | keep
  deriving DecidableEq

/-- The header of a block: what becomes of its end, and its indentation if it is given. -/
structure BlockHeader where
  chomping : Chomping
  increment : Option Nat

/-- The chomping that a character asks for. -/
def chomping? : Char → Option Chomping
  | '+' => some .keep
  | '-' => some .strip
  | _ => none

/-- The indentation that a character asks for. -/
def increment? (char : Char) : Option Nat :=
  if char.isDigit && char ≠ '0' then some (char.toNat - '0'.toNat) else none

/-- The header that some characters write, with the chomping and the indentation in any order. -/
def blockMarks? : List Char → Option BlockHeader
  | [] => some ⟨.clip, none⟩
  | [mark] =>
      match chomping? mark with
      | some chomping => some ⟨chomping, none⟩
      | none => (increment? mark).map fun count => ⟨.clip, some count⟩
  | [first, second] =>
      match chomping? first with
      | some chomping => (increment? second).map fun count => ⟨chomping, some count⟩
      | none => do
          let count ← increment? first
          let chomping ← chomping? second
          return ⟨chomping, some count⟩
  | _ => none

/-- The header of a block from behind its first character, to the end of its line. -/
def blockHeader? (cursor : Cursor) : Option (BlockHeader × Cursor) := do
  let marks := cursor.span fun char => char.isDigit || char == '+' || char == '-'
  let header ← blockMarks? marks
  let blank := (cursor.skip marks.length).skipWhile isBlank
  let ended :=
    if blank.rest.head? == some '#' then blank.skipWhile fun char => !isBreak char else blank
  if ended.atEnd then return (header, ended)
  if (ended.rest.head?.map isBreak).getD false then return (header, ended.next) else none

/--
The line ends before the next line of a block.  An unknown indentation is that of the first line, or
of the longest blank line before it.
-/
def blockBreaks? (least : Int) (indent : Option Int) :
    Nat → Int → Cursor → Option (List Char × Int × Cursor)
  | 0, _, _ => none
  | fuel + 1, widest, cursor =>
      let indentation := (cursor.span (· == ' ')).length
      let allowed := match indent with
        | some width => min indentation (width - cursor.column).toNat
        | none => indentation
      let here := cursor.skip allowed
      let wider := max widest here.column
      let isInside : Bool := match indent with
        | some width => decide (here.column < width)
        | none => true
      match here.rest with
      | '\t' :: _ => if isInside then none else some ([], indent.getD (max wider least), here)
      | char :: _ =>
          if isBreak char then do
            let (breaks, found, last) ← blockBreaks? least indent fuel wider here.next
            return (char :: breaks, found, last)
          else some ([], indent.getD (max wider least), here)
      | [] => some ([], indent.getD (max wider least), here)

/-- What joins a line of a block to the one before it. -/
def blockJoin (isLiteral : Bool) (lead : Option Char) (breaks : List Char)
    (wasBlank isBlank : Bool) : List Char :=
  match lead with
  | none => breaks
  | some char =>
      if !isLiteral && char == '\n' && !wasBlank && !isBlank then
        if breaks.isEmpty then [' '] else breaks
      else char :: breaks

/-- The lines of a block of a known indentation, with the line ends before each of them. -/
def blockLines? (isLiteral : Bool) (chomping : Chomping) (indent : Int) :
    Nat → Option Char → List Char → Bool → Cursor → Option (List Char × Cursor)
  | 0, _, _, _, _ => none
  | fuel + 1, lead, breaks, wasBlank, cursor =>
      if cursor.column ≠ indent || cursor.atEnd then
        let kept := if chomping = .strip then [] else lead.toList
        some (kept ++ (if chomping = .keep then breaks else []), cursor)
      else do
        let startsBlank := (cursor.rest.head?.map isBlank).getD false
        let line := cursor.span fun char => !isBreak char
        let after := cursor.skip line.length
        let ending := after.rest.head?
        let (following, _, next) ←
          blockBreaks? indent (some indent) (after.rest.length + 1) 0 after.next
        let (content, last) ←
          blockLines? isLiteral chomping indent fuel ending following startsBlank next
        return (blockJoin isLiteral lead breaks wasBlank startsBlank ++ line ++ content, last)

/-- A scalar in a block, from behind its first character, below an indentation. -/
def block? (isLiteral : Bool) (parent : Int) (cursor : Cursor) : Option (List Char × Cursor) := do
  let (header, body) ← blockHeader? cursor
  let given := header.increment.map fun count => if parent ≥ 0 then parent + count else (count : Int)
  let fuel := body.rest.length + 1
  let (breaks, indent, first) ← blockBreaks? (max (parent + 1) 1) given fuel 0 body
  blockLines? isLiteral header.chomping indent fuel none breaks false first

end Yaml

end EventQuery
