import EventQuery.Config.Reading
import EventQuery.Text.Casing

namespace EventQuery

/-!
# Loading settings

Settings are text in one of two formats.  The extension of the name of a file decides which, and for
a file of another name both are tried.  How a text of either format is read is left open: settings
are loaded with any two readers, and a running program passes the ones at the end of this module.
-/

/-- Why settings cannot be loaded. -/
inductive LoadError where
  /-- There is no text. -/
  | unreadable
  /-- The text is not well formed, or an entry is of a wrong kind. -/
  | malformed
  deriving DecidableEq, Repr

/-- The extension of the name of a file: what follows its last dot, unless the name begins there. -/
def Settings.extension (fileName : String) : String :=
  let behind := (fileName.toList.reverse.takeWhile (· != '.')).reverse
  if behind.length + 1 < fileName.length then Casing.lowercase (String.ofList behind) else ""

/-- What reads the texts of the two formats.  A text that is not well formed has no document. -/
structure DocumentReaders where
  toml? : String → Option SettingsDocument
  yaml? : String → Option SettingsDocument

namespace DocumentReaders

/-- The settings in a text, as a reader has read it. -/
def settingsIn (document? : Option SettingsDocument) : Except LoadError Settings :=
  match document?.bind fun document => document.format.settings? document.content with
  | some settings => .ok settings
  | none => .error .malformed

variable (readers : DocumentReaders)

/-- Settings as a TOML document. -/
def ofToml (text : String) : Except LoadError Settings := settingsIn (readers.toml? text)

/-- Settings as a YAML document. -/
def ofYaml (text : String) : Except LoadError Settings := settingsIn (readers.yaml? text)

/-- Settings from a file, if its text can be read. -/
def load (fileName : String) (text : Option String) : Except LoadError Settings :=
  match text with
  | none => .error .unreadable
  | some text =>
      match Settings.extension fileName with
      | "yaml" | "yml" => readers.ofYaml text
      | "toml" => readers.ofToml text
      | _ =>
          match readers.ofYaml text with
          | .ok settings => .ok settings
          | .error _ => readers.ofToml text

end DocumentReaders

/-! ## The readers of a running program -/

/-- A text as a TOML document. -/
def TomlValue.document? (text : String) : Option SettingsDocument :=
  (Toml.read? text).map fun table => ⟨TomlValue, TomlValue.format, table.value⟩

/-- A text as a YAML document.  A text without a document is one of which the node is empty. -/
def YamlDocument.document? (text : String) : Option SettingsDocument :=
  (Yaml.document? text).map fun document? =>
    let document := document?.getD ⟨Yaml.emptyNode, []⟩
    ⟨YamlNode, document.format, document.root⟩

/-- The readers of both formats. -/
def DocumentReaders.standard : DocumentReaders where
  toml? := TomlValue.document?
  yaml? := YamlDocument.document?

namespace Settings

/-- Settings as a TOML document, in a running program. -/
def ofToml (text : String) : Except LoadError Settings := DocumentReaders.standard.ofToml text

/-- Settings as a YAML document, in a running program. -/
def ofYaml (text : String) : Except LoadError Settings := DocumentReaders.standard.ofYaml text

/-- Settings from a file, in a running program. -/
def load (fileName : String) (text : Option String) : Except LoadError Settings :=
  DocumentReaders.standard.load fileName text

end Settings

end EventQuery
