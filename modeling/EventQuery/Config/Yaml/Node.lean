import EventQuery.Config.Yaml.Token

namespace EventQuery

/-!
# Nodes of YAML

A document is one node: a scalar, a sequence or a mapping.  A node can be given a name by an anchor,
and a reference stands for the node of a name, even inside that node.  What a scalar stands for is
decided by the reader of the node, so a node keeps its text and the way in which it was written.
-/

/-- A node of a document. -/
inductive YamlNode where
  | scalar (text : String) (style : Yaml.ScalarStyle) (tag : Option String)
  | sequence (items : List YamlNode)
  | mapping (entries : List (YamlNode × YamlNode))
  /-- The node that is filed under a number. -/
  | reference (number : Nat)
  deriving Repr

/-- A document: its node, and the nodes with anchors under their numbers, in order of beginning. -/
structure YamlDocument where
  root : YamlNode
  named : List (Nat × YamlNode)

namespace Yaml

/-- What is known while nodes are read: the tokens to come, and what has been named. -/
structure Feed where
  tokens : List Token
  /-- What the handles of tags stand for. -/
  handles : List (String × String)
  /-- The numbers of the names that anchors have given. -/
  names : List (String × Nat)
  /-- The nodes with anchors under their numbers, in order of beginning. -/
  named : List (Nat × YamlNode)

/-- The node that is written by nothing. -/
def emptyNode : YamlNode := .scalar "" .plain none

namespace Feed

/-- The next token. -/
def peek (feed : Feed) : Option Token := feed.tokens.head?

/-- The tokens behind the next one. -/
def drop (feed : Feed) : Feed := { feed with tokens := feed.tokens.drop 1 }

/-- The tokens behind an expected one. -/
def expect? (feed : Feed) (token : Token) : Option Feed :=
  if feed.peek = some token then some feed.drop else none

/-- Whether the next token is one of some tokens. -/
def isAt (feed : Feed) (tokens : List Token) : Bool :=
  tokens.any fun token => feed.peek == some token

/--
A node with an anchor begins.  Its number is the number of names given before, so that a name that
is given again shares its new number with the next new name; the later node has the number.
-/
def beginNamed (feed : Feed) : Option String → Feed
  | none => feed
  | some name =>
      let number := feed.names.length
      { feed with
        names := (name, number) :: feed.names.filter fun entry => entry.1 ≠ name
        named := feed.named ++ [(number, emptyNode)] }

/-- A node with an anchor ends, before which some others had begun. -/
def endNamed (feed : Feed) (begun : Nat) (node : YamlNode) : Option String → Feed
  | none => feed
  | some _ => { feed with named := feed.named.modify begun fun entry => (entry.1, node) }

end Feed

/-- The name space of the kinds of scalars. -/
def coreTags : String := "tag:yaml.org,2002:"

/-- What handles stand for unless a directive says otherwise. -/
def standardHandles : List (String × String) := [("!", "!"), ("!!", coreTags)]

/-- The full name of a tag, whose handle must be known. -/
def fullTag? (feed : Feed) (tag : TagName) : Option String :=
  if tag.handle.isEmpty then some tag.suffix
  else (feed.handles.lookup tag.handle).map (· ++ tag.suffix)

/-- The anchor and tag in front of a node, in any order and each at most once. -/
structure Properties where
  anchor : Option String
  tag : Option String

/-- Read the anchor and tag in front of a node. -/
def properties? (feed : Feed) : Option (Properties × Feed) :=
  match feed.tokens with
  | .anchor name :: .tag tag :: rest =>
      (fullTag? feed tag).map fun full => (⟨some name, some full⟩, { feed with tokens := rest })
  | .tag tag :: .anchor name :: rest =>
      (fullTag? feed tag).map fun full => (⟨some name, some full⟩, { feed with tokens := rest })
  | .anchor name :: rest => some (⟨some name, none⟩, { feed with tokens := rest })
  | .tag tag :: rest =>
      (fullTag? feed tag).map fun full => (⟨none, some full⟩, { feed with tokens := rest })
  | _ => some (⟨none, none⟩, feed)

/-- Where a node stands. -/
inductive Place where
  /-- Inside brackets. -/
  | flow
  /-- In a block. -/
  | block
  /-- Behind a key of a block, where a sequence needs no indentation. -/
  | entry
  deriving DecidableEq

mutual

/-- A node. -/
def node? : Nat → Place → Feed → Option (YamlNode × Feed)
  | 0, _, _ => none
  | fuel + 1, place, feed =>
      match feed.tokens with
      | .reference name :: _ =>
          (feed.names.lookup name).map fun number => (.reference number, feed.drop)
      | _ => do
          let (properties, start) ← properties? feed
          let (node, last) ← content? fuel place properties (start.beginNamed properties.anchor)
          return (node, last.endNamed start.named.length node properties.anchor)

/-- A node behind its properties, which alone are a node too. -/
def content? : Nat → Place → Properties → Feed → Option (YamlNode × Feed)
  | 0, _, _, _ => none
  | fuel + 1, place, properties, feed =>
      match feed.peek, place with
      | some (.scalar text style), _ => some (.scalar text style properties.tag, feed.drop)
      | some .openBracket, _ => do
          let (items, last) ← flowItems? fuel true feed.drop
          return (.sequence items, last)
      | some .openBrace, _ => do
          let (entries, last) ← flowEntries? fuel true feed.drop
          return (.mapping entries, last)
      | some .item, .entry => do
          let (items, last) ← looseItems? fuel feed
          return (.sequence items, last)
      | some .sequenceStart, .block | some .sequenceStart, .entry => do
          let (items, last) ← blockItems? fuel feed.drop
          return (.sequence items, last)
      | some .mappingStart, .block | some .mappingStart, .entry => do
          let (entries, last) ← blockEntries? fuel feed.drop
          return (.mapping entries, last)
      | _, _ =>
          if properties.anchor.isSome || properties.tag.isSome then
            some (.scalar "" .plain properties.tag, feed)
          else none

/-- A node, or nothing before one of some tokens. -/
def optional? : Nat → Place → List Token → Feed → Option (YamlNode × Feed)
  | 0, _, _, _ => none
  | fuel + 1, place, stops, feed =>
      if feed.isAt stops then some (emptyNode, feed) else node? fuel place feed

/-- The items of a sequence in a block of its own, to its end. -/
def blockItems? : Nat → Feed → Option (List YamlNode × Feed)
  | 0, _ => none
  | fuel + 1, feed =>
      match feed.peek with
      | some .blockEnd => some ([], feed.drop)
      | some .item => do
          let (item, next) ← optional? fuel .block [.item, .blockEnd] feed.drop
          let (items, last) ← blockItems? fuel next
          return (item :: items, last)
      | _ => none

/-- The items of a sequence that is indented like the key before it. -/
def looseItems? : Nat → Feed → Option (List YamlNode × Feed)
  | 0, _ => none
  | fuel + 1, feed =>
      match feed.peek with
      | some .item => do
          let (item, next) ← optional? fuel .block [.item, .key, .value, .blockEnd] feed.drop
          let (items, last) ← looseItems? fuel next
          return (item :: items, last)
      | _ => some ([], feed)

/-- The entries of a mapping in a block, to its end.  Each has a key, which may be empty. -/
def blockEntries? : Nat → Feed → Option (List (YamlNode × YamlNode) × Feed)
  | 0, _ => none
  | fuel + 1, feed =>
      match feed.peek with
      | some .blockEnd => some ([], feed.drop)
      | some .key => do
          let (key, next) ← optional? fuel .entry [.key, .value, .blockEnd] feed.drop
          let (value, after) ← blockValue? fuel next
          let (entries, last) ← blockEntries? fuel after
          return ((key, value) :: entries, last)
      | _ => none

/-- The value of an entry in a block, which may be missing. -/
def blockValue? : Nat → Feed → Option (YamlNode × Feed)
  | 0, _ => none
  | fuel + 1, feed =>
      if feed.peek = some .value then optional? fuel .entry [.key, .value, .blockEnd] feed.drop
      else some (emptyNode, feed)

/--
The items of a sequence in brackets, from the first or a later one on.  An item with a key is a
mapping of its own; an empty key takes the mark behind it.
-/
def flowItems? : Nat → Bool → Feed → Option (List YamlNode × Feed)
  | 0, _, _ => none
  | fuel + 1, isFirst, feed =>
      if feed.peek = some .closeBracket then some ([], feed.drop)
      else do
        let start ← if isFirst then some feed else feed.expect? .comma
        match start.peek with
        | some .closeBracket => return ([], start.drop)
        | some .key =>
            let (key, next) ←
              if start.drop.isAt [.value, .comma, .closeBracket] then
                some (emptyNode, start.drop.drop)
              else node? fuel .flow start.drop
            let (value, after) ← flowValue? fuel [.comma, .closeBracket] next
            let (items, last) ← flowItems? fuel false after
            return (.mapping [(key, value)] :: items, last)
        | _ =>
            let (item, next) ← node? fuel .flow start
            let (items, last) ← flowItems? fuel false next
            return (item :: items, last)

/-- The entries of a mapping in brackets, from the first or a later one on. -/
def flowEntries? : Nat → Bool → Feed → Option (List (YamlNode × YamlNode) × Feed)
  | 0, _, _ => none
  | fuel + 1, isFirst, feed =>
      if feed.peek = some .closeBrace then some ([], feed.drop)
      else do
        let start ← if isFirst then some feed else feed.expect? .comma
        match start.peek with
        | some .closeBrace => return ([], start.drop)
        | some .key =>
            let (key, next) ← optional? fuel .flow [.value, .comma, .closeBrace] start.drop
            let (value, after) ← flowValue? fuel [.comma, .closeBrace] next
            let (entries, last) ← flowEntries? fuel false after
            return ((key, value) :: entries, last)
        | _ =>
            let (key, next) ← node? fuel .flow start
            let (entries, last) ← flowEntries? fuel false next
            return ((key, emptyNode) :: entries, last)

/-- The value of an entry in brackets, which may be missing. -/
def flowValue? : Nat → List Token → Feed → Option (YamlNode × Feed)
  | 0, _, _ => none
  | fuel + 1, stops, feed =>
      if feed.peek = some .value then optional? fuel .flow stops feed.drop
      else some (emptyNode, feed)

end

/-- The directives in front of a document: at most one version, which is known, and tag handles. -/
def directives? (hasVersion : Bool) : List Token → Option (List Token × List (String × String))
  | .version major minor :: rest =>
      if hasVersion || major ≠ 1 || (minor ≠ 1 && minor ≠ 2) then none
      else directives? true rest
  | .tagHandle handle space :: rest => do
      let (last, handles) ← directives? hasVersion rest
      if (handles.lookup handle).isSome then none else return (last, (handle, space) :: handles)
  | rest => some (rest, [])

/-- Whether a token belongs between documents. -/
def endsDocument : Token → Bool
  | .documentStart | .documentEnd | .version _ _ | .tagHandle _ _ => true
  | _ => false

/-- The only document of a text, if there is one at all. -/
def document? (text : String) : Option (Option YamlDocument) := do
  let tokens ← tokens? text
  let (content, declared) ← directives? false tokens
  let hasDirectives : Bool := content.length < tokens.length
  match content with
  | [] => if hasDirectives then none else return none
  | first :: rest =>
      let isExplicit := first == .documentStart
      if hasDirectives && !isExplicit then none
      let body := if isExplicit then rest else content
      let feed : Feed := ⟨body, declared ++ standardHandles, [], []⟩
      let (root, last) ←
        if isExplicit && (body.head?.map endsDocument).getD true then some (emptyNode, feed)
        else node? (4 * body.length + 4) .block feed
      if last.tokens.all (· == .documentEnd) then return some ⟨root, last.named⟩ else none

end Yaml

end EventQuery
