import EventQuery.Config.Toml.Document
import EventQuery.Config.Yaml.Node
import EventQuery.Settings

namespace EventQuery

/-!
# Settings in documents

Settings are read from a document section by section.  What is missing keeps its default and what is
unknown is passed over, but a known entry of a wrong kind makes the whole document unusable.  A
format says what counts as a section, a number and a text.
-/

/-- What the values of a format are for settings. -/
structure SettingsFormat (Content : Type) where
  /-- The entries of a section under known names. -/
  entries? : List String → Content → Option (Fields Content)
  number? : Content → Option Nat
  /-- A number that may be declared absent. -/
  optional? : Content → Option (Option Nat)
  text? : Content → Option String

namespace SettingsFormat

variable {Content : Type}

/-- The entries of a section of a document, none of which need be there. -/
def section? (format : SettingsFormat Content) (document : Fields Content) (name : String)
    (known : List String) : Option (Fields Content) :=
  match document.find? name with
  | none => some []
  | some content => format.entries? known content

/-- What an entry holds, or the default. -/
def entry? {α : Type} (read : Content → Option α) (entries : Fields Content) (name : String)
    (standard : α) : Option α :=
  match entries.find? name with
  | none => some standard
  | some content => read content

/-- Read settings from a document. -/
def settings? (format : SettingsFormat Content) (content : Content) : Option Settings := do
  let standard := Settings.standard
  let document ← format.entries? ["pattern", "aggregation", "clock", "logging"] content
  let pattern ← format.section? document "pattern" ["max_partial_matches"]
  let aggregation ← format.section? document "aggregation"
    ["reclaim_group_after_ms", "reclaim_frequency_ms"]
  let clock ← format.section? document "clock" ["tick_interval_ms"]
  let logging ← format.section? document "logging" ["level", "format"]
  let maxPartialMatches ←
    entry? format.number? pattern "max_partial_matches" standard.maxPartialMatches
  let reclaimGroupAfter ←
    entry? format.optional? aggregation "reclaim_group_after_ms" standard.reclaimGroupAfter
  let reclaimFrequency ←
    entry? format.number? aggregation "reclaim_frequency_ms" standard.reclaimFrequency
  let tickInterval ← entry? format.number? clock "tick_interval_ms" standard.tickInterval
  let logLevel ← entry? format.text? logging "level" standard.logLevel
  let logFormat ← entry? format.text? logging "format" standard.logFormat
  return { maxPartialMatches, reclaimGroupAfter, reclaimFrequency, tickInterval, logLevel, logFormat }

end SettingsFormat

/-- A text that was read: its content, and what the values of its format are for settings. -/
structure SettingsDocument where
  Content : Type
  format : SettingsFormat Content
  content : Content

/-! ## TOML -/

namespace TomlValue

/-- A table is a section.  An array is one too and gives its entries in order. -/
def entries? (known : List String) : TomlValue → Option (Fields TomlValue)
  | table _ entries => some entries
  | tables elements => some (known.zip (elements.map (TomlValue.table .header)))
  | array items => some (known.zip items)
  | date => some []
  | _ => none

/-- An integer that is not negative. -/
def number? : TomlValue → Option Nat
  | integer value => if value < 0 then none else some value.toNat
  | _ => none

/-- The text of a string. -/
def text? : TomlValue → Option String
  | text content => some content
  | _ => none

/-- What the values of a TOML document are for settings. -/
def format : SettingsFormat TomlValue where
  entries? := entries?
  number? := number?
  optional? := fun value => (number? value).map some
  text? := text?

end TomlValue

/-! ## YAML -/

namespace YamlNode

/-- The greatest number that fits into 64 bits. -/
def greatest : Nat := UInt64.size - 1

/-- The number that digits write in a base, if it fits into 64 bits. -/
def inBase? (base : Nat) (isDigit : Char → Bool) (digits : List Char) : Option Nat :=
  if !digits.isEmpty && digits.all isDigit then
    let value := Toml.number base digits
    if value ≤ greatest then some value else none
  else none

/-- A number without its sign: in a marked base, or in base ten without needless zeros in front. -/
def magnitude? : List Char → Option Nat
  | '0' :: 'x' :: rest => inBase? 16 Toml.isHexDigit rest
  | '0' :: 'o' :: rest => inBase? 8 (fun char => '0' ≤ char && char ≤ '7') rest
  | '0' :: 'b' :: rest => inBase? 2 (fun char => char == '0' || char == '1') rest
  | digits =>
      if digits.length > 1 && digits.head? == some '0' then none
      else inBase? 10 Char.isDigit digits

/-- A number that is not negative, and has no sign but a plus. -/
def readNumber? (text : String) : Option Nat :=
  match text.toList with
  | '+' :: rest => magnitude? rest
  | word => magnitude? word

/-- Words for nothing. -/
def nullWords : List String := ["~", "null", "Null", "NULL"]

/-- The text of a scalar that can be a number: one without quotes, or a literal one tagged so. -/
def numeral? : YamlNode → Option String
  | scalar text .plain _ => some text
  | scalar text .literal (some tag) =>
      if tag = Yaml.coreTags ++ "int" then some text else none
  | _ => none

/-- A number that is not negative. -/
def number? (node : YamlNode) : Option Nat := node.numeral?.bind readNumber?

/--
A number, or nothing where no word or a word for nothing stands.  Behind a tag, only the tag of
nothing allows such a word, and it allows no other.
-/
def optional? (node : YamlNode) : Option (Option Nat) :=
  match node with
  | scalar text .plain none =>
      if text.isEmpty || nullWords.contains text then some none else node.number?.map some
  | scalar text .plain (some tag) =>
      if tag = Yaml.coreTags ++ "null" then
        if nullWords.contains text then some none else none
      else node.number?.map some
  | _ => node.number?.map some

/-- The text of a scalar, however it is written. -/
def text? : YamlNode → Option String
  | scalar text _ _ => some text
  | _ => none

/-- Whether no name stands twice. -/
def distinct : List String → Bool
  | [] => true
  | name :: rest => !rest.contains name && distinct rest

end YamlNode

namespace YamlDocument

/-- The node that a reference leads to: the last one under its number.  Others are themselves. -/
def resolve? (document : YamlDocument) : YamlNode → Option YamlNode
  | .reference number => document.named.reverse.lookup number
  | node => some node

/-- A mapping is a section, and so is nothing.  Keys are scalars, and known ones stand once. -/
def entries? (document : YamlDocument) (known : List String) :
    YamlNode → Option (Fields YamlNode)
  | .mapping entries => do
      let named ← entries.mapM fun (key, value) =>
        ((document.resolve? key).bind YamlNode.text?).map fun name => (name, value)
      let relevant := named.filter fun entry => known.contains entry.1
      if YamlNode.distinct (relevant.map Prod.fst) then return relevant else none
  | .scalar "" .plain _ => some []
  | _ => none

/-- What the nodes of a YAML document are for settings. -/
def format (document : YamlDocument) : SettingsFormat YamlNode where
  entries? := fun known node => (document.resolve? node).bind (document.entries? known)
  number? := fun node => (document.resolve? node).bind YamlNode.number?
  optional? := fun node => (document.resolve? node).bind YamlNode.optional?
  text? := fun node => (document.resolve? node).bind YamlNode.text?

end YamlDocument

end EventQuery
