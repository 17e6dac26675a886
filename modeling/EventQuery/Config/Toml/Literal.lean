import EventQuery.Config.Toml.Value
import EventQuery.Number.Decimal

namespace EventQuery

/-!
# Words and strings of TOML

Numbers, dates and truth values are single words, and each kind has its own form.  Strings are
between quotes of two kinds, on one line or on several.  Line ends are single line feeds here.
-/

namespace Toml

/-- Characters that comments and strings may hold beside their own quotes: all but control ones. -/
def isPrintable (char : Char) : Bool :=
  char == '\t' || (' ' ≤ char && char ≠ '\x7f')

/-- Spaces and tabs. -/
def isBlank (char : Char) : Bool := char == ' ' || char == '\t'

/-- The characters of keys without quotes. -/
def isKeyChar (char : Char) : Bool := char.isAlphanum || char == '_' || char == '-'

/-- The characters of numbers, dates and truth values. -/
def isWordChar (char : Char) : Bool := isKeyChar char || char == '+' || char == '.' || char == ':'

/-- Hexadecimal digits. -/
def isHexDigit (char : Char) : Bool :=
  char.isDigit || ('a' ≤ char && char ≤ 'f') || ('A' ≤ char && char ≤ 'F')

/-- The value of a digit. -/
def digitValue (char : Char) : Nat :=
  if char.isDigit then char.toNat - '0'.toNat else char.toLower.toNat - 'a'.toNat + 10

/-- The number that digits write in a base. -/
def number (base : Nat) (digits : List Char) : Nat :=
  digits.foldl (fun total digit => total * base + digitValue digit) 0

/-! ## Words -/

/-- Digits with single underscores between them, without the underscores. -/
def digits? (isDigit : Char → Bool) : List Char → Option (List Char)
  | [] => none
  | [last] => if isDigit last then some [last] else none
  | first :: '_' :: rest => if isDigit first then (digits? isDigit rest).map (first :: ·) else none
  | first :: rest => if isDigit first then (digits? isDigit rest).map (first :: ·) else none

/-- A sign and what follows it. -/
def splitSign : List Char → Bool × List Char
  | '-' :: rest => (true, rest)
  | '+' :: rest => (false, rest)
  | word => (false, word)

/-- A decimal number without needless zeros in front. -/
def decimal? (word : List Char) : Option Nat := do
  let digits ← digits? Char.isDigit word
  if digits.length > 1 && digits.head? == some '0' then none
  return number 10 digits

/-- The magnitude of an integer.  Only a number without a sign can be in another base. -/
def magnitude? (isSigned : Bool) : List Char → Option Nat
  | '0' :: 'x' :: rest => if isSigned then none else (digits? isHexDigit rest).map (number 16)
  | '0' :: 'o' :: rest =>
      if isSigned then none
      else (digits? (fun char => '0' ≤ char && char ≤ '7') rest).map (number 8)
  | '0' :: 'b' :: rest =>
      if isSigned then none
      else (digits? (fun char => char == '0' || char == '1') rest).map (number 2)
  | word => decimal? word

/-- An integer in the signed 64-bit range. -/
def integer? (word : List Char) : Option Int := do
  let (negative, rest) := splitSign word
  let magnitude ← magnitude? (rest.length < word.length) rest
  let value : Int := if negative then -magnitude else magnitude
  if Int64.minValue.toInt ≤ value && value ≤ Int64.maxValue.toInt then return value else none

/-- The exponent that a word behind its letter writes. -/
def exponent? (word : List Char) : Option Int := do
  let (negative, rest) := splitSign word
  let magnitude ← (digits? Char.isDigit rest).map (number 10)
  return if negative then -magnitude else magnitude

/-- The decimal number that a word without a sign writes, with a fraction or an exponent. -/
def fractional? (word : List Char) : Option Decimal := do
  let isExponentMark := fun char => char == 'e' || char == 'E'
  let mantissa := word.takeWhile fun char => !isExponentMark char
  let scale := word.drop mantissa.length
  let whole := mantissa.takeWhile (· != '.')
  let fraction := mantissa.drop whole.length
  let before ← decimal? whole
  if fraction.isEmpty && scale.isEmpty then none
  let behind ← if fraction.isEmpty then some [] else digits? Char.isDigit fraction.tail
  let power ← if scale.isEmpty then some 0 else exponent? scale.tail
  return ⟨before * Nat.pow 10 behind.length + number 10 behind, power - behind.length⟩

/-- Whether a word is a floating-point number.  A positive one must not be rounded to infinity. -/
def isFloat (word : List Char) : Bool :=
  let (negative, rest) := splitSign word
  rest == "inf".toList || rest == "nan".toList ||
    ((fractional? rest).map fun decimal => negative || !decimal.overflows).getD false

/-- A number of exactly as many digits as asked for, and what follows it. -/
def fixed? (count : Nat) (word : List Char) : Option (Nat × List Char) :=
  let digits := word.take count
  if digits.length = count && digits.all Char.isDigit then
    some (number 10 digits, word.drop count)
  else none

/-- The number of days of a month. -/
def monthLength (year month : Nat) : Nat :=
  if month = 2 then
    if year % 4 = 0 && (year % 100 ≠ 0 || year % 400 = 0) then 29 else 28
  else if month = 4 || month = 6 || month = 9 || month = 11 then 30
  else 31

/-- What follows a date at the front of a word. -/
def afterDate? (word : List Char) : Option (List Char) := do
  let (year, word) ← fixed? 4 word
  let '-' :: word := word | none
  let (month, word) ← fixed? 2 word
  let '-' :: word := word | none
  let (day, word) ← fixed? 2 word
  if 1 ≤ month && month ≤ 12 && 1 ≤ day && day ≤ monthLength year month then return word else none

/-- What follows a time of the day at the front of a word. -/
def afterTime? (word : List Char) : Option (List Char) := do
  let (hour, word) ← fixed? 2 word
  let ':' :: word := word | none
  let (minute, word) ← fixed? 2 word
  let ':' :: word := word | none
  let (second, word) ← fixed? 2 word
  if !(hour ≤ 23 && minute ≤ 59 && second ≤ 60) then none
  match word with
  | '.' :: rest =>
      if (rest.head?.map Char.isDigit).getD false then return rest.dropWhile Char.isDigit else none
  | _ => return word

/-- Whether a word is an offset from universal time, or nothing. -/
def isOffset : List Char → Bool
  | [] => true
  | ['Z'] => true
  | ['z'] => true
  | sign :: rest =>
      (sign == '+' || sign == '-') &&
        (match fixed? 2 rest with
          | some (hour, ':' :: minutes) =>
              (match fixed? 2 minutes with
                | some (minute, []) => hour ≤ 23 && minute ≤ 59
                | _ => false)
          | _ => false)

/-- Whether a word is a time of the day with or without an offset. -/
def isOffsetTime (word : List Char) : Bool := ((afterTime? word).map isOffset).getD false

/-- Whether a word is a date, a time of the day, or both. -/
def isDate (word : List Char) : Bool :=
  afterTime? word == some [] ||
    (match afterDate? word with
      | some [] => true
      | some (mark :: rest) => (mark == 'T' || mark == 't') && isOffsetTime rest
      | none => false)

/-- The value of a word. -/
def wordValue? (word : List Char) : Option TomlValue :=
  if word == "true".toList then some (.bool true)
  else if word == "false".toList then some (.bool false)
  else
    match integer? word with
    | some number => some (.integer number)
    | none =>
        if isDate word then some .date
        else if isFloat word then some .float
        else none

/-! ## Strings -/

/-- A character by its number in hexadecimal digits, and what follows it. -/
def hexChar? (count : Nat) (text : List Char) : Option (Char × List Char) :=
  let digits := text.take count
  let code := number 16 digits
  if digits.length = count && digits.all isHexDigit && code.isValidChar then
    some (Char.ofNat code, text.drop count)
  else none

/-- The character of an escape behind its backslash, and what follows it. -/
def escape? : List Char → Option (Char × List Char)
  | 'b' :: rest => some ('\x08', rest)
  | 't' :: rest => some ('\t', rest)
  | 'n' :: rest => some ('\n', rest)
  | 'f' :: rest => some ('\x0c', rest)
  | 'r' :: rest => some ('\r', rest)
  | '"' :: rest => some ('"', rest)
  | '\\' :: rest => some ('\\', rest)
  | 'u' :: rest => hexChar? 4 rest
  | 'U' :: rest => hexChar? 8 rest
  | _ => none

/-- What follows a line end and all blanks and line ends behind it, if only blanks stand before it. -/
def afterLineEnd? (text : List Char) : Option (List Char) :=
  match text.dropWhile isBlank with
  | '\n' :: rest => some (rest.dropWhile fun char => isBlank char || char == '\n')
  | _ => none

/-- A string on one line, from behind its opening quote.  Double quotes allow escapes. -/
def lineString? (quote : Char) : Nat → List Char → Option (List Char × List Char)
  | 0, _ => none
  | _ + 1, [] => none
  | fuel + 1, char :: rest =>
      if char == quote then some ([], rest)
      else if char == '\\' && quote == '"' then do
        let (escaped, rest) ← escape? rest
        let (content, rest) ← lineString? quote fuel rest
        return (escaped :: content, rest)
      else if isPrintable char then do
        let (content, rest) ← lineString? quote fuel rest
        return (char :: content, rest)
      else none

/-- The end of a string on several lines: three quotes, with up to two more in the string. -/
def closing? (quote : Char) (text : List Char) : Option (List Char × List Char) :=
  let quotes := text.takeWhile (· == quote)
  if quotes.length < 3 then none
  else
    let inside := min (quotes.length - 3) 2
    some (List.replicate inside quote, text.drop (inside + 3))

/--
A string on several lines, from behind its opening quotes.  Between double quotes a backslash at the
end of a line joins the line to the next one that is not blank.
-/
def blockString? (quote : Char) : Nat → List Char → Option (List Char × List Char)
  | 0, _ => none
  | _ + 1, [] => none
  | fuel + 1, char :: rest =>
      match closing? quote (char :: rest) with
      | some ending => some ending
      | none =>
          if char == '\\' && quote == '"' then
            match afterLineEnd? rest with
            | some next => blockString? quote fuel next
            | none => do
                let (escaped, rest) ← escape? rest
                let (content, rest) ← blockString? quote fuel rest
                return (escaped :: content, rest)
          else if isPrintable char || char == '\n' then do
            let (content, rest) ← blockString? quote fuel rest
            return (char :: content, rest)
          else none

/-- A string of either kind, from its opening quote. -/
def string? (quote : Char) (text : List Char) : Option (String × List Char) := do
  let (content, rest) ←
    match text with
    | first :: second :: third :: rest =>
        if first == quote && second == quote && third == quote then
          blockString? quote (rest.length + 1)
            (match rest with
              | '\n' :: next => next
              | _ => rest)
        else lineString? quote text.length (text.drop 1)
    | _ => lineString? quote text.length (text.drop 1)
  return (String.ofList content, rest)

end Toml

end EventQuery
