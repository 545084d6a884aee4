/-
**The node of a YAML document.**

The tokens of a text are read as one document: a scalar, a sequence or a mapping, with tags resolved
through the directives and aliases numbered by the anchor they name.

* `Reader.node`: one node by the grammar of block and flow collections;
* `document?`: the only document of a text.
-/

import Gatehouse.Yaml.Lexer

namespace Gatehouse.Yaml

/-- A node. An alias holds the number of its anchor. -/
inductive Node where
  | scalar (tag : Option String) (style : Style) (text : String)
  | sequence (tag : Option String) (items : List Node)
  | mapping (tag : Option String) (entries : List (Node × Node))
  | alias (anchor : Nat)
deriving Inhabited

/-- A node under an anchor: the anchor's number, how many events come before the node, and the node
itself. -/
structure Anchored where
  number : Nat
  start : Nat
  node : Node

/-- A document: its node, the nodes under anchors, and how many events it is made of. -/
structure Document where
  root : Node
  anchored : List Anchored
  events : Nat

/-- The node an alias stands for: of the nodes under its number the one that begins last. -/
def Document.target? (document : Document) (number : Nat) : Option Node :=
  let found := document.anchored.filter (·.number = number)
  (found.foldl (fun best entry => match best with
    | some (held : Anchored) => if held.start < entry.start then some entry else some held
    | none => some entry) none).map (·.node)

/-- What is carried along while a document is read: the tokens that follow, what the handles of tags
stand for, the number of each anchor name, the nodes under anchors, and the count of events. -/
structure Reader where
  tokens : List Token
  handles : List (String × String)
  names : List (String × Nat)
  anchored : List Anchored
  events : Nat

/-- Reading from the tokens. -/
abbrev Reading := StateT Reader (Except Fault)

namespace Reader

def peek : Reading (Option Token) := return (← get).tokens.head?

def drop : Reading Unit := modify fun reader => { reader with tokens := reader.tokens.drop 1 }

def count (events : Nat) : Reading Unit :=
  modify fun reader => { reader with events := reader.events + events }

/-- A scalar that is not written at all. -/
def emptyNode : Reading Node := do
  count 1
  return .scalar none .plain ""

/-- Number a new anchor: it gets the count of the names known before it. -/
def nameAnchor (name : String) : Reading Nat :=
  modifyGet fun reader =>
    let number := reader.names.length
    (number, { reader with names := (name, number) :: reader.names.filter (·.1 ≠ name) })

/-- Remember the node of an anchor that began after so many events. -/
def remember (number start : Nat) (node : Node) : Reading Unit :=
  modify fun reader => { reader with anchored := ⟨number, start, node⟩ :: reader.anchored }

/-- A tag with its handle replaced by what the handle stands for. -/
def resolveTag (handle suffix : String) : Reading String := do
  if handle = "" then return suffix
  match (← get).handles.find? (·.1 = handle) with
  | some (_, stem) => return stem ++ suffix
  | none => throw .undefinedTagHandle

def anchorName : Reading (Option String) := do
  match ← peek with
  | some (.anchor name) => drop; return some name
  | _ => return none

def tagParts : Reading (Option (String × String)) := do
  match ← peek with
  | some (.tag handle suffix) => drop; return some (handle, suffix)
  | _ => return none

def properties : Reading (Option String × Option (String × String)) := do
  match ← anchorName with
  | some name => return (some name, ← tagParts)
  | none =>
    match ← tagParts with
    | some tag => return (← anchorName, some tag)
    | none => return (none, none)

/-- Whether a token ends an entry of a block mapping. -/
def endsBlockEntry : Option Token → Bool
  | some .key | some .value | some .blockEnd => true
  | _ => false

def endsBlockItem : Option Token → Bool
  | some .blockEntry | some .blockEnd => true
  | _ => false

def endsFlowEntry : Option Token → Bool
  | some .flowEntry | some .flowMappingEnd => true
  | _ => false

def endsFlowItem : Option Token → Bool
  | some .flowEntry | some .flowSequenceEnd => true
  | _ => false

/-- A node without content: an empty scalar after an anchor or a tag. -/
def absent (bare : Bool) (tag : Option String) : Reading Node := do
  if bare then throw .unexpectedToken
  count 1
  return .scalar tag .plain ""

mutual

/-- Read a node. `inBlock` allows block collections, `indentless` a sequence whose hyphens stand no
deeper than the mapping around it. -/
def node (inBlock indentless : Bool) : Nat → Reading Node
  | 0 => throw .unfinished
  | fuel + 1 => do
    match ← peek with
    | some (.alias name) =>
      drop
      count 1
      match (← get).names.find? (·.1 = name) with
      | some (_, number) => return .alias number
      | none => throw .unknownAnchor
    | _ =>
      let (anchor, parts) ← properties
      let tag ← parts.mapM fun (handle, suffix) => resolveTag handle suffix
      let number ← anchor.mapM nameAnchor
      let start := (← get).events
      let read ← content inBlock indentless (anchor.isNone && tag.isNone) tag fuel
      if let some number := number then remember number start read
      return read

/-- Read the content of a node after its anchor and tag; a node without either must have one. A lone
exclamation mark is no tag of a scalar. -/
def content (inBlock indentless bare : Bool) (tag : Option String) : Nat → Reading Node
  | 0 => throw .unfinished
  | fuel + 1 => do
    match ← peek with
    | some (.scalar text style) =>
      drop
      count 1
      return .scalar (tag.filter (· ≠ "!")) style text
    | some .flowSequenceStart =>
      drop
      count 2
      return .sequence tag (← flowItems true fuel)
    | some .flowMappingStart =>
      drop
      count 2
      return .mapping tag (← flowEntries true fuel)
    | some .blockSequenceStart =>
      if inBlock then
        drop
        count 2
        return .sequence tag (← blockItems fuel)
      else absent bare tag
    | some .blockMappingStart =>
      if inBlock then
        drop
        count 2
        return .mapping tag (← blockEntries fuel)
      else absent bare tag
    | some .blockEntry =>
      if indentless then
        count 2
        return .sequence tag (← indentlessItems fuel)
      else absent bare tag
    | _ => absent bare tag

def blockItems : Nat → Reading (List Node)
  | 0 => throw .unfinished
  | fuel + 1 => do
    match ← peek with
    | some .blockEntry =>
      drop
      let item ← if endsBlockItem (← peek) then emptyNode else node true false fuel
      return item :: (← blockItems fuel)
    | some .blockEnd => drop; return []
    | _ => throw .unexpectedToken

def indentlessItems : Nat → Reading (List Node)
  | 0 => throw .unfinished
  | fuel + 1 => do
    match ← peek with
    | some .blockEntry =>
      drop
      let next ← peek
      let item ←
        if endsBlockItem next || endsBlockEntry next then emptyNode else node true false fuel
      return item :: (← indentlessItems fuel)
    | _ => return []

def blockEntries : Nat → Reading (List (Node × Node))
  | 0 => throw .unfinished
  | fuel + 1 => do
    match ← peek with
    | some .blockEnd => drop; return []
    | some .key =>
      drop
      let key ← if endsBlockEntry (← peek) then emptyNode else node true true fuel
      let value ← match ← peek with
        | some .value =>
          drop
          if endsBlockEntry (← peek) then emptyNode else node true true fuel
        | _ => emptyNode
      return (key, value) :: (← blockEntries fuel)
    | _ => throw .unexpectedToken

/-- Read the items of a flow sequence up to its end, with commas between them. -/
def flowItems (first : Bool) : Nat → Reading (List Node)
  | 0 => throw .unfinished
  | fuel + 1 => do
    if (← peek) = some .flowSequenceEnd then
      drop
      return []
    if !first then
      if (← peek) ≠ some .flowEntry then throw .unexpectedToken
      drop
    match ← peek with
    | some .flowSequenceEnd => drop; return []
    | some .key =>
      drop
      count 2
      let pair ← flowPair fuel
      return pair :: (← flowItems false fuel)
    | _ =>
      let item ← node false false fuel
      return item :: (← flowItems false fuel)

/-- Read a mapping of one entry inside a flow sequence, after its key token. Where the key is not
written, the token in its place is passed over. -/
def flowPair : Nat → Reading Node
  | 0 => throw .unfinished
  | fuel + 1 => do
    let next ← peek
    let key ←
      if next = some .value || endsFlowItem next then
        drop
        emptyNode
      else node false false fuel
    let value ← match ← peek with
      | some .value =>
        drop
        if endsFlowItem (← peek) then emptyNode else node false false fuel
      | _ => emptyNode
    return .mapping none [(key, value)]

/-- Read the entries of a flow mapping up to its end, with commas between them. -/
def flowEntries (first : Bool) : Nat → Reading (List (Node × Node))
  | 0 => throw .unfinished
  | fuel + 1 => do
    if (← peek) = some .flowMappingEnd then
      drop
      return []
    if !first then
      if (← peek) ≠ some .flowEntry then throw .unexpectedToken
      drop
    match ← peek with
    | some .flowMappingEnd => drop; return []
    | some .key =>
      drop
      let next ← peek
      let key ←
        if next = some .value || endsFlowEntry next then emptyNode else node false false fuel
      let value ← match ← peek with
        | some .value =>
          drop
          if endsFlowEntry (← peek) then emptyNode else node false false fuel
        | _ => emptyNode
      return (key, value) :: (← flowEntries false fuel)
    | _ =>
      let key ← node false false fuel
      let value ← emptyNode
      return (key, value) :: (← flowEntries false fuel)

end

/-- Read the directives in front of a document: at most one version, 1.1 or 1.2, and handles for
tags, each once. -/
def directives (versioned : Bool) (handles : List (String × String)) :
    List Token → Except Fault (List (String × String) × List Token)
  | .versionDirective major minor :: rest =>
    if versioned || major ≠ 1 || (minor ≠ 1 && minor ≠ 2) then .error .badDirective
    else directives true handles rest
  | .tagDirective handle stem :: rest =>
    if handles.any (·.1 = handle) then .error .badDirective
    else directives versioned ((handle, stem) :: handles) rest
  | rest => .ok (handles, rest)

/-- The handles that need no directive. -/
def defaultHandles : List (String × String) := [("!", "!"), ("!!", "tag:yaml.org,2002:")]

end Reader

/-- Whether the content of a document is over before the next token. -/
def endsDocument : List Token → Bool
  | [] => true
  | .documentStart :: _ | .documentEnd :: _ => true
  | .versionDirective _ _ :: _ | .tagDirective _ _ :: _ => true
  | _ => false

/-- The only document of a text; `none` when the text has no document. A document begins with its
directives and a marker or, without directives, at once with its content; end markers may follow. -/
def document? (text : String) : Except Fault (Option Document) := do
  let all ← tokens text.toList
  if all.isEmpty then return none
  let (handles, rest) ← Reader.directives false [] all
  let reader (tokens : List Token) : Reader :=
    ⟨tokens, handles ++ Reader.defaultHandles, [], [], 0⟩
  let (root, reader) ← match rest with
    | .documentStart :: rest =>
      if endsDocument rest then Reader.emptyNode.run (reader rest)
      else (Reader.node true false (4 * rest.length + 4)).run (reader rest)
    | rest =>
      if endsDocument all then throw Fault.unexpectedToken
      (Reader.node true false (4 * rest.length + 4)).run (reader rest)
  if reader.tokens.all (· = .documentEnd) then
    return some ⟨root, reader.anchored, reader.events⟩
  else throw Fault.tooManyDocuments

end Gatehouse.Yaml
