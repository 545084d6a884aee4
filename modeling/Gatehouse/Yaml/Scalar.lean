/-
**Scalars of YAML.**

Reading the three kinds of scalars, each by one pass over the characters.

* `plainFrom`: words up to an indicator, a comment, a document marker or a lesser indentation;
* `quotedFrom`: text between quotes, with escapes between double quotes;
* `blockScalar`: the indented lines under a literal or folded header.
-/

import Gatehouse.Yaml.Place

namespace Gatehouse.Yaml

/-- What reading a scalar leaves: its text, the place after it, the characters that follow, and
whether line breaks were passed over at its end. -/
structure Scanned where
  text : String
  place : Place
  rest : List Char
  lineEnded : Bool

/-! ### Plain scalars -/

/-- Read a plain scalar. `indent` is the least column of its further lines; `read` is its text so
far in reverse and `gap` what was passed over since. -/
def plainFrom (inFlow : Bool) (indent : Int) (place : Place) (read : List Char)
    (gap : Option Gap) : List Char → Except Fault Scanned
  | [] => finish []
  | '\r' :: '\n' :: rest =>
    plainFrom inFlow indent (place.nextLine 2) read (some (Gap.addBreak gap ['\n'])) rest
  | c :: rest =>
    if isBreak c then
      plainFrom inFlow indent (place.nextLine 1) read (some (Gap.addBreak gap (breakText c))) rest
    else if isBlank c then
      if c == '\t' && atLineStart && place.column < indent then .error .badIndentation
      else plainFrom inFlow indent (place.forward 1) read (some (Gap.addBlank gap c)) rest
    else if gap.isSome && !inFlow && place.column < indent then finish (c :: rest)
    else if gap.isSome && place.column == 0 && isDocumentMarker (c :: rest) then finish (c :: rest)
    else if gap.isSome && c == '#' then finish (c :: rest)
    else if inFlow && c == ':' && rest.head?.any (fun d => isFlowIndicator d || d == '?') then
      .error .strayCharacter
    else if c == ':' && endsWord rest then finish (c :: rest)
    else if inFlow && isFlowIndicator c then finish (c :: rest)
    else
      plainFrom inFlow indent (place.forward 1) (c :: ((foldedGap gap).reverse ++ read)) none rest
where
  /-- Whether only blanks stand before this place in its line. -/
  atLineStart : Bool := gap.any Gap.spansLines
  /-- The scalar ends before the given characters. -/
  finish (rest : List Char) : Except Fault Scanned :=
    .ok ⟨String.ofList read.reverse, place, rest, atLineStart⟩

/-! ### Quoted scalars -/

def hexDigit? (c : Char) : Option Nat :=
  if '0' ≤ c ∧ c ≤ '9' then some (c.toNat - '0'.toNat)
  else if 'a' ≤ c ∧ c ≤ 'f' then some (c.toNat - 'a'.toNat + 10)
  else if 'A' ≤ c ∧ c ≤ 'F' then some (c.toNat - 'A'.toNat + 10)
  else none

/-- What the character after a backslash asks for: a character, or hexadecimal digits. -/
inductive Escape where
  | char (c : Char)
  | digits (count : Nat)

def escape? : Char → Option Escape
  | '0' => some (.char '\x00')
  | 'a' => some (.char '\x07')
  | 'b' => some (.char '\x08')
  | 't' => some (.char '\t')
  | '\t' => some (.char '\t')
  | 'n' => some (.char '\n')
  | 'v' => some (.char '\x0b')
  | 'f' => some (.char '\x0c')
  | 'r' => some (.char '\r')
  | 'e' => some (.char '\x1b')
  | ' ' => some (.char ' ')
  | '\x22' => some (.char '\x22')
  | '/' => some (.char '/')
  | '\\' => some (.char '\\')
  | 'N' => some (.char '\u0085')
  | '_' => some (.char '\u00a0')
  | 'L' => some (.char '\u2028')
  | 'P' => some (.char '\u2029')
  | 'x' => some (.digits 2)
  | 'u' => some (.digits 4)
  | 'U' => some (.digits 8)
  | _ => none

/-- The character with a code point; surrogates and numbers beyond the last one have none. -/
def charOfPoint? (point : Nat) : Option Char :=
  if 0xD800 ≤ point ∧ point ≤ 0xDFFF ∨ 0x10FFFF < point then none else some (Char.ofNat point)

/-- Read a quoted scalar after its opening quote. `digits` are the hexadecimal digits still to come
and the value of those read. -/
def quotedFrom (double : Bool) (place : Place) (read : List Char) (gap : Option Gap)
    (digits : Option (Nat × Nat)) : List Char → Except Fault Scanned
  | [] => .error .unclosedScalar
  | c :: rest =>
    match digits with
    | some (count, value) =>
      match hexDigit? c with
      | none => .error .badEscape
      | some digit =>
        let value := value * 16 + digit
        if 1 < count then
          quotedFrom double (place.forward 1) read none (some (count - 1, value)) rest
        else match charOfPoint? value with
          | none => .error .badEscape
          | some d => quotedFrom double (place.forward 1) (d :: read) none none rest
    | none =>
      let joined := (foldedGap gap).reverse ++ read
      match c, rest with
      | '\r', '\n' :: rest =>
        quotedFrom double (place.nextLine 2) read (some (Gap.addBreak gap ['\n'])) none rest
      | c, rest =>
        if isBreak c then
          quotedFrom double (place.nextLine 1) read (some (Gap.addBreak gap (breakText c))) none
            rest
        else if isBlank c then
          quotedFrom double (place.forward 1) read (some (Gap.addBlank gap c)) none rest
        else if place.column == 0 && isDocumentMarker (c :: rest) then .error .unclosedScalar
        else if double then
          if c == '\x22' then finish joined rest
          else if c == '\\' then
            match rest with
            | [] => .error .badEscape
            | '\r' :: '\n' :: rest =>
              quotedFrom double (place.nextLine 3) joined (some (.breaks [] [])) none rest
            | d :: rest =>
              if isBreak d then
                quotedFrom double (place.nextLine 2) joined (some (.breaks [] [])) none rest
              else match escape? d with
                | none => .error .badEscape
                | some (.char e) => quotedFrom double (place.forward 2) (e :: joined) none none rest
                | some (.digits count) =>
                  quotedFrom double (place.forward 2) joined none (some (count, 0)) rest
          else quotedFrom double (place.forward 1) (c :: joined) none none rest
        else if c == '\x27' then
          match rest with
          | '\x27' :: rest => quotedFrom double (place.forward 2) ('\x27' :: joined) none none rest
          | rest => finish joined rest
        else quotedFrom double (place.forward 1) (c :: joined) none none rest
where
  /-- The scalar ends with the quote before the given characters. -/
  finish (joined rest : List Char) : Except Fault Scanned :=
    .ok ⟨String.ofList joined.reverse, place.forward 1, rest, false⟩

/-! ### Block scalars -/

/-- Which of the line breaks at the end of a block scalar are kept. -/
inductive Chomping where
  | strip
  | clip
  | keep
deriving DecidableEq, Repr

/-- How far the lines of a block scalar have been read: its text in reverse, the break of the last
line and the breaks of the empty lines since, and whether the last line began with a blank. -/
structure BlockText where
  read : List Char
  lastBreak : List Char
  emptyLines : List Char
  lastWasBlank : Bool

/-- Begin a line whose first character is given: in a folded scalar a single break between two lines
that begin with no blank becomes a space, or nothing before empty lines. -/
def BlockText.beginLine (block : BlockText) (folded : Bool) (c : Char) : BlockText :=
  let joins := folded && block.lastBreak == ['\n'] && !block.lastWasBlank && !isBlank c
  let between :=
    if joins then (if block.emptyLines = [] then [' '] else block.emptyLines)
    else block.lastBreak ++ block.emptyLines
  ⟨between.reverse ++ block.read, [], [], isBlank c⟩

/-- The text of a block scalar whose lines are read. -/
def BlockText.chomped (block : BlockText) (chomping : Chomping) : String :=
  let tail := match chomping with
    | .strip => []
    | .clip => block.lastBreak
    | .keep => block.lastBreak ++ block.emptyLines
  String.ofList (block.read.reverse ++ tail)

/-- Read the lines of a block scalar. `least` is the least indentation; `indent` is the indentation
once it is known, and before that `widest` the widest line of blanks. `inLine` tells whether the
place is inside a line's text. -/
def blockFrom (folded : Bool) (chomping : Chomping) (least : Nat) (indent : Option Nat)
    (widest : Nat) (inLine : Bool) (place : Place) (block : BlockText) :
    List Char → Except Fault Scanned
  | [] => .ok ⟨block.chomped chomping, place, [], false⟩
  | c :: rest =>
    if inLine then
      if isBreak c then
        match c, rest with
        | '\r', '\n' :: rest =>
          blockFrom folded chomping least indent widest false (place.nextLine 2)
            { block with lastBreak := ['\n'] } rest
        | c, rest =>
          blockFrom folded chomping least indent widest false (place.nextLine 1)
            { block with lastBreak := breakText c } rest
      else
        blockFrom folded chomping least indent widest true (place.forward 1)
          { block with read := c :: block.read } rest
    else
      let short := indent.all fun indent => place.column < indent
      if c == ' ' && short then
        blockFrom folded chomping least indent (max widest (place.column + 1)) false
          (place.forward 1) block rest
      else if c == '\t' && short then .error .badIndentation
      else if isBreak c then
        match c, rest with
        | '\r', '\n' :: rest =>
          blockFrom folded chomping least indent widest false (place.nextLine 2)
            { block with emptyLines := block.emptyLines ++ ['\n'] } rest
        | c, rest =>
          blockFrom folded chomping least indent widest false (place.nextLine 1)
            { block with emptyLines := block.emptyLines ++ breakText c } rest
      else
        let known := indent.getD (max widest (max least 1))
        if place.column == known then
          let begun := block.beginLine folded c
          blockFrom folded chomping least (some known) widest true (place.forward 1)
            { begun with read := c :: begun.read } rest
        else .ok ⟨block.chomped chomping, place, c :: rest, false⟩

/-- Skip blanks and a comment; a line break or the end must follow, and the break is skipped. -/
def skipLineEnd (place : Place) (rest : List Char) : Option (Place × List Char) :=
  let blanks := (rest.takeWhile isBlank).length
  let place := place.forward blanks
  let rest := rest.drop blanks
  let comment := if rest.head? == some '#' then (rest.takeWhile (!isBreak ·)).length else 0
  let place := place.forward comment
  match rest.drop comment with
  | [] => some (place, [])
  | '\r' :: '\n' :: rest => some (place.nextLine 2, rest)
  | c :: rest => if isBreak c then some (place.nextLine 1, rest) else none

def blockHeader (place : Place) (rest : List Char) :
    Option (Chomping × Option Nat × Place × List Char) :=
  let chomping? : Char → Option Chomping
    | '+' => some .keep
    | '-' => some .strip
    | _ => none
  let takeDigit (place : Place) (rest : List Char) : Option (Option Nat × Place × List Char) :=
    match rest with
    | c :: others =>
      if c == '0' then none
      else if c.isDigit then some (some (c.toNat - '0'.toNat), place.forward 1, others)
      else some (none, place, rest)
    | [] => some (none, place, rest)
  match rest with
  | [] => some (.clip, none, place, [])
  | c :: others =>
    match chomping? c with
    | some chomping =>
      (takeDigit (place.forward 1) others).map fun (digit, place, rest) =>
        (chomping, digit, place, rest)
    | none =>
      match takeDigit place (c :: others) with
      | some (some digit, place, d :: rest) =>
        match chomping? d with
        | some chomping => some (chomping, some digit, place.forward 1, rest)
        | none => some (.clip, some digit, place, d :: rest)
      | some (digit, place, rest) => some (.clip, digit, place, rest)
      | none => none

/-- Read a block scalar after its indicator, inside a block that is indented by `outer`. -/
def blockScalar (folded : Bool) (outer : Int) (place : Place) (rest : List Char) :
    Except Fault Scanned :=
  match blockHeader place rest with
  | none => .error .badBlockHeader
  | some (chomping, increment, place, rest) =>
    match skipLineEnd place rest with
    | none => .error .badBlockHeader
    | some (place, rest) =>
      let indent := increment.map fun increment => (max outer 0).toNat + increment
      blockFrom folded chomping (outer + 1).toNat indent 0 false place ⟨[], [], [], false⟩ rest

end Gatehouse.Yaml
