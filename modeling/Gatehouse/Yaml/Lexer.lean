/-
**From YAML text to tokens.**

The lexer reads one token after another. Two things make it more than a cut of the text: the
indentation opens and closes block collections, which have tokens of their own, and a value
indicator turns what was read on its line before it into a key, whose token is put in afterwards.

* `Lexer.step`: reading one token with the tokens it brings along;
* `tokens`: all tokens of a text.
-/

import Gatehouse.Yaml.Property

namespace Gatehouse.Yaml

/-- A token that may yet turn out to be a key: how many tokens stood before it, where it began, and
whether it must be one. -/
structure PendingKey where
  number : Nat
  place : Place
  required : Bool

/-- How far a text has been read. Tokens are kept in reverse; `pending` has an entry for the block
context and one for every open flow collection, innermost first. -/
structure Lexer where
  rest : List Char
  place : Place
  tokens : List Token
  indent : Int
  outerIndents : List Int
  pending : List (Option PendingKey)
  keyAllowed : Bool

namespace Lexer

def start (text : List Char) : Lexer := ⟨text, Place.start, [], -1, [], [none], true⟩

def inFlow (lexer : Lexer) : Bool := 1 < lexer.pending.length

def emit (lexer : Lexer) (token : Token) : Lexer := { lexer with tokens := token :: lexer.tokens }

/-- Pass over some characters of the line. -/
def skip (lexer : Lexer) (count : Nat) : Lexer :=
  { lexer with rest := lexer.rest.drop count, place := lexer.place.forward count }

/-- Put a token in where `number` tokens stand before it. -/
def insertAt (lexer : Lexer) (number : Nat) (token : Token) : Lexer :=
  let later := lexer.tokens.length - number
  { lexer with tokens := lexer.tokens.take later ++ token :: lexer.tokens.drop later }

/-- Pass over blanks, comments and line breaks. Tabs count as blanks where no key can begin. A line
break in the block context allows a key. -/
def skipSpaceFrom (inFlow keyAllowed inComment : Bool) (place : Place) :
    List Char → Place × List Char × Bool
  | [] => (place, [], keyAllowed)
  | '\r' :: '\n' :: rest =>
    skipSpaceFrom inFlow (keyAllowed || !inFlow) false (place.nextLine 2) rest
  | c :: rest =>
    if isBreak c then
      skipSpaceFrom inFlow (keyAllowed || !inFlow) false (place.nextLine 1) rest
    else if inComment || c == ' ' || (c == '\t' && (inFlow || !keyAllowed)) ||
        (c == '\uFEFF' && place.column == 0) then
      skipSpaceFrom inFlow keyAllowed inComment (place.forward 1) rest
    else if c == '#' then skipSpaceFrom inFlow keyAllowed true (place.forward 1) rest
    else (place, c :: rest, keyAllowed)

/-- Pass over what separates tokens. -/
def skipSpace (lexer : Lexer) : Lexer :=
  let (place, rest, keyAllowed) :=
    skipSpaceFrom lexer.inFlow lexer.keyAllowed false lexer.place lexer.rest
  { lexer with place := place, rest := rest, keyAllowed := keyAllowed }

/-! ### Keys that are recognised late -/

/-- Whether a pending key is too far back to be one: a key is on one line and has at most 1024
characters. -/
def PendingKey.isStale (key : PendingKey) (place : Place) : Bool :=
  key.place.line < place.line || key.place.index + 1024 < place.index

/-- Give up the pending keys that are too far back. -/
def dropStale (place : Place) :
    List (Option PendingKey) → Except Fault (List (Option PendingKey))
  | [] => .ok []
  | none :: outer => (dropStale place outer).map (none :: ·)
  | some key :: outer =>
    if PendingKey.isStale key place then
      if key.required then .error .missingColon else (dropStale place outer).map (none :: ·)
    else (dropStale place outer).map (some key :: ·)

/-- Give up the pending key of the innermost context. -/
def dropKey (lexer : Lexer) : Except Fault Lexer :=
  match lexer.pending with
  | some key :: outer =>
    if key.required then .error .missingColon else .ok { lexer with pending := none :: outer }
  | _ => .ok lexer

/-- The next token may turn out to be a key. -/
def saveKey (lexer : Lexer) : Except Fault Lexer := do
  if lexer.keyAllowed then
    let lexer ← lexer.dropKey
    let required := !lexer.inFlow && lexer.indent == lexer.place.column
    return { lexer with
      pending := some ⟨lexer.tokens.length, lexer.place, required⟩ :: lexer.pending.drop 1 }
  else return lexer

/-! ### Indentation -/

/-- Open a block collection at a column, if the column is deeper than the block around it. -/
def openBlock (lexer : Lexer) (column : Nat) (number : Nat) (token : Token) : Lexer :=
  if !lexer.inFlow && lexer.indent < column then
    { lexer.insertAt number token with
      indent := column, outerIndents := lexer.indent :: lexer.outerIndents }
  else lexer

/-- Close the block collections that are deeper than a column. -/
def closeBlocksFrom (column : Int) : Int → List Int → List Token → Int × List Int × List Token
  | indent, [], tokens => (indent, [], tokens)
  | indent, outer :: others, tokens =>
    if column < indent then closeBlocksFrom column outer others (.blockEnd :: tokens)
    else (indent, outer :: others, tokens)

/-- Close the block collections that are deeper than a column. -/
def closeBlocks (lexer : Lexer) (column : Int) : Lexer :=
  if lexer.inFlow then lexer
  else
    let (indent, outer, tokens) :=
      closeBlocksFrom column lexer.indent lexer.outerIndents lexer.tokens
    { lexer with indent := indent, outerIndents := outer, tokens := tokens }

/-! ### The tokens -/

def directive (lexer : Lexer) : Except Fault Lexer := do
  let lexer ← (lexer.closeBlocks (-1)).dropKey
  let (token, place, rest) ← readDirective (lexer.place.forward 1) (lexer.rest.drop 1)
  return { lexer.emit token with place := place, rest := rest, keyAllowed := false }

def documentMarker (lexer : Lexer) (token : Token) : Except Fault Lexer := do
  let lexer ← (lexer.closeBlocks (-1)).dropKey
  return { (lexer.skip 3).emit token with keyAllowed := false }

def openFlow (lexer : Lexer) (token : Token) : Except Fault Lexer := do
  let lexer ← lexer.saveKey
  return { (lexer.skip 1).emit token with pending := none :: lexer.pending, keyAllowed := true }

def closeFlow (lexer : Lexer) (token : Token) : Except Fault Lexer := do
  let lexer ← lexer.dropKey
  let pending := if lexer.inFlow then lexer.pending.drop 1 else lexer.pending
  return { (lexer.skip 1).emit token with pending := pending, keyAllowed := false }

def flowEntry (lexer : Lexer) : Except Fault Lexer := do
  let lexer ← lexer.dropKey
  return { (lexer.skip 1).emit .flowEntry with keyAllowed := true }

def blockEntry (lexer : Lexer) : Except Fault Lexer := do
  if !lexer.inFlow && !lexer.keyAllowed then throw Fault.misplacedEntry
  let lexer := lexer.openBlock lexer.place.column lexer.tokens.length .blockSequenceStart
  let lexer ← lexer.dropKey
  return { (lexer.skip 1).emit .blockEntry with keyAllowed := true }

def explicitKey (lexer : Lexer) : Except Fault Lexer := do
  if !lexer.inFlow && !lexer.keyAllowed then throw Fault.misplacedKey
  let lexer := lexer.openBlock lexer.place.column lexer.tokens.length .blockMappingStart
  let lexer ← lexer.dropKey
  return { (lexer.skip 1).emit .key with keyAllowed := !lexer.inFlow }

/-- Read the colon of a value; a pending key becomes a key, in a mapping that begins with it. -/
def valueIndicator (lexer : Lexer) : Except Fault Lexer := do
  match lexer.pending with
  | some key :: outer =>
    let lexer := lexer.insertAt key.number .key
    let lexer := lexer.openBlock key.place.column key.number .blockMappingStart
    return { (lexer.skip 1).emit .value with pending := none :: outer, keyAllowed := false }
  | _ =>
    if !lexer.inFlow && !lexer.keyAllowed then throw Fault.misplacedValue
    let lexer := lexer.openBlock lexer.place.column lexer.tokens.length .blockMappingStart
    return { (lexer.skip 1).emit .value with keyAllowed := !lexer.inFlow }

def named (lexer : Lexer) (token : String → Token) : Except Fault Lexer := do
  let lexer ← lexer.saveKey
  let (name, place, rest) ← readName (lexer.place.forward 1) (lexer.rest.drop 1)
  return { lexer.emit (token name) with place := place, rest := rest, keyAllowed := false }

def tagged (lexer : Lexer) : Except Fault Lexer := do
  let lexer ← lexer.saveKey
  let (handle, suffix, place, rest) ← readTag lexer.inFlow lexer.place lexer.rest
  return { lexer.emit (.tag handle suffix) with place := place, rest := rest, keyAllowed := false }

def withScalar (lexer : Lexer) (scanned : Scanned) (style : Style) (keyAllowed : Bool) : Lexer :=
  { lexer.emit (.scalar scanned.text style) with
    place := scanned.place, rest := scanned.rest, keyAllowed := keyAllowed }

def block (lexer : Lexer) (folded : Bool) : Except Fault Lexer := do
  let lexer ← lexer.dropKey
  let scanned ← blockScalar folded lexer.indent (lexer.place.forward 1) (lexer.rest.drop 1)
  return lexer.withScalar scanned (if folded then .folded else .literal) true

def quoted (lexer : Lexer) (double : Bool) : Except Fault Lexer := do
  let lexer ← lexer.saveKey
  let scanned ← quotedFrom double (lexer.place.forward 1) [] none none (lexer.rest.drop 1)
  return lexer.withScalar scanned (if double then .doubleQuoted else .singleQuoted) false

/-- Read a plain scalar; a key may begin after it if it ended with its line. -/
def plain (lexer : Lexer) : Except Fault Lexer := do
  let lexer ← lexer.saveKey
  let scanned ← plainFrom lexer.inFlow (lexer.indent + 1) lexer.place [] none lexer.rest
  return lexer.withScalar scanned .plain scanned.lineEnded

/-- Close everything that is open at the end of the text. -/
def finish (lexer : Lexer) : Except Fault Lexer := (lexer.closeBlocks (-1)).dropKey

/-- Read the token that begins with a character, which is given with what follows it. -/
def readToken (lexer : Lexer) (c : Char) (rest : List Char) : Except Fault Lexer :=
  let spaced := endsWord rest
  let atStart := lexer.place.column == 0
  if atStart && c == '%' then lexer.directive
  else if atStart && isDocumentMarker (c :: rest) then
    lexer.documentMarker (if c == '-' then .documentStart else .documentEnd)
  else if c == '[' then lexer.openFlow .flowSequenceStart
  else if c == '{' then lexer.openFlow .flowMappingStart
  else if c == ']' then lexer.closeFlow .flowSequenceEnd
  else if c == '}' then lexer.closeFlow .flowMappingEnd
  else if c == ',' then lexer.flowEntry
  else if c == '-' && spaced then lexer.blockEntry
  else if c == '?' && (lexer.inFlow || spaced) then lexer.explicitKey
  else if c == ':' && (lexer.inFlow || spaced) then lexer.valueIndicator
  else if c == '*' then lexer.named .alias
  else if c == '&' then lexer.named .anchor
  else if c == '!' then lexer.tagged
  else if c == '|' && !lexer.inFlow then lexer.block false
  else if c == '>' && !lexer.inFlow then lexer.block true
  else if c == '\x27' then lexer.quoted false
  else if c == '\x22' then lexer.quoted true
  else if !isIndicator c || (c == '-' && !rest.head?.any isBlank) ||
      (!lexer.inFlow && (c == '?' || c == ':') && !spaced) then lexer.plain
  else .error .strayCharacter

/-- Read one token; `none` at the end of the text. -/
def step (lexer : Lexer) : Except Fault (Option Lexer) := do
  let lexer := lexer.skipSpace
  let pending ← dropStale lexer.place lexer.pending
  let lexer := { lexer with pending := pending }.closeBlocks lexer.place.column
  match lexer.rest with
  | [] => return none
  | c :: rest => return some (← lexer.readToken c rest)

/-- Read at most `fuel` tokens, then close what is open. -/
def run : Nat → Lexer → Except Fault Lexer
  | 0, lexer => lexer.finish
  | fuel + 1, lexer => do
    match ← lexer.step with
    | none => lexer.finish
    | some next => run fuel next

end Lexer

/-- The tokens of a text. Every token takes a character at least, so a text has no more tokens than
characters besides those that indentation brings along. -/
def tokens (text : List Char) : Except Fault (List Token) := do
  if text.all isAllowed then
    let lexer ← (Lexer.start text).run (text.length + 1)
    return lexer.tokens.reverse
  else throw Fault.forbiddenCharacter

end Gatehouse.Yaml
