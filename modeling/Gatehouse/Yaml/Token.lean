/-
**Tokens of YAML.**

What a YAML text is cut into, the classes of characters that the cut depends on, and the reasons why
a text is refused.
-/

import Gatehouse.Text.Utf8

namespace Gatehouse.Yaml

/-- Why a text is no document. -/
inductive Fault where
  | forbiddenCharacter
  | strayCharacter
  | missingColon
  | misplacedEntry
  | misplacedKey
  | misplacedValue
  | badDirective
  | badAnchor
  | badTag
  | badEscape
  | badIndentation
  | unclosedScalar
  | badBlockHeader
  | unexpectedToken
  | unknownAnchor
  | undefinedTagHandle
  | tooManyDocuments
  | tooDeep
  | tooManyAliases
  | taggedValue
  | badKey
  | badScalar
  | integerOutOfRange
  | unfinished
deriving DecidableEq, Repr

def Fault.message : Fault → String
  | .forbiddenCharacter => "control characters are not allowed"
  | .strayCharacter => "found character that cannot start any token"
  | .missingColon => "could not find expected ':'"
  | .misplacedEntry => "block sequence entries are not allowed in this context"
  | .misplacedKey => "mapping keys are not allowed in this context"
  | .misplacedValue => "mapping values are not allowed in this context"
  | .badDirective => "malformed directive"
  | .badAnchor => "did not find expected alphabetic or numeric character"
  | .badTag => "malformed tag"
  | .badEscape => "malformed escape sequence"
  | .badIndentation => "found a tab character where indentation is expected"
  | .unclosedScalar => "found unexpected end of a quoted scalar"
  | .badBlockHeader => "did not find expected comment or line break"
  | .unexpectedToken => "did not find expected node content"
  | .unknownAnchor => "unknown anchor"
  | .undefinedTagHandle => "found undefined tag handle"
  | .tooManyDocuments => "more than one document"
  | .tooDeep => "recursion limit exceeded"
  | .tooManyAliases => "repetition limit exceeded"
  | .taggedValue => "unexpected tagged value"
  | .badKey => "invalid type of a key"
  | .badScalar => "invalid value of a tagged scalar"
  | .integerOutOfRange => "integer out of range"
  | .unfinished => "unfinished document"

/-- How a scalar is written. -/
inductive Style where
  | plain
  | singleQuoted
  | doubleQuoted
  | literal
  | folded
deriving DecidableEq, Repr

/-- A token. -/
inductive Token where
  | versionDirective (major minor : Nat)
  | tagDirective (handle stem : String)
  | documentStart
  | documentEnd
  | blockSequenceStart
  | blockMappingStart
  | blockEnd
  | flowSequenceStart
  | flowSequenceEnd
  | flowMappingStart
  | flowMappingEnd
  | blockEntry
  | flowEntry
  | key
  | value
  | alias (name : String)
  | anchor (name : String)
  | tag (handle suffix : String)
  | scalar (text : String) (style : Style)
deriving DecidableEq, Repr

/-! ### Classes of characters -/

/-- The characters a document may consist of. -/
def isAllowed (c : Char) : Bool :=
  let n := c.toNat
  n == 0x9 || n == 0xA || n == 0xD || (0x20 ≤ n && n ≤ 0x7E) || n == 0x85 ||
    (0xA0 ≤ n && n ≤ 0xD7FF) || (0xE000 ≤ n && n ≤ 0xFFFD) ||
    (0x10000 ≤ n && n ≤ 0x10FFFF)

/-- Carriage return, line feed, next line, line separator, paragraph separator. -/
def isBreak (c : Char) : Bool :=
  c == '\r' || c == '\n' || c == '\u0085' || c == '\u2028' || c == '\u2029'

def isBlank (c : Char) : Bool := c == ' ' || c == '\t'

def isBlankOrBreak (c : Char) : Bool := isBlank c || isBreak c

def endsWord : List Char → Bool
  | [] => true
  | c :: _ => isBlankOrBreak c

def isNameChar (c : Char) : Bool := c.isAlphanum || c == '-' || c == '_'

def isFlowIndicator (c : Char) : Bool :=
  c == ',' || c == '[' || c == ']' || c == '{' || c == '}'

/-- The characters that cannot begin a plain scalar. -/
def isIndicator (c : Char) : Bool :=
  isFlowIndicator c || c ∈ ['-', '?', ':', '#', '&', '*', '!', '|', '>', '\'', '"', '%', '@',
    '\x60']

/-- Whether a line that begins here is a document marker. -/
def isDocumentMarker : List Char → Bool
  | '-' :: '-' :: '-' :: rest => endsWord rest
  | '.' :: '.' :: '.' :: rest => endsWord rest
  | _ => false

end Gatehouse.Yaml
