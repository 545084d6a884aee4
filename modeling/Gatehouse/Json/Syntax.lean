/-
**JSON values as they are written.**

A value keeps everything its text says: the order of an object's members, members with one key, and
the content of string literals before decoding. Reading is a machine that takes one token after
another and keeps the arrays and objects it is inside of.

* `State.advance`: what one token does;
* `Json.parse?`: the value of a byte string that holds exactly one.
-/

import Gatehouse.Json.Token
import Gatehouse.Json.Number

namespace Gatehouse

open Text (Bytes)

/-- A JSON value as written; string literals are kept undecoded. -/
inductive Json where
  | null
  | bool (value : Bool)
  | number (value : Json.Number)
  | string (content : Bytes)
  | array (items : List Json)
  | object (members : List (Bytes × Json))
deriving Inhabited

namespace Json

/-- An array or object whose end has not been read; its members are kept in reverse. -/
inductive Frame where
  | array (items : List Json)
  | object (members : List (Bytes × Json)) (key : Bytes)

/-- What the next token may be. -/
inductive Expected where
  /-- A value. -/
  | value
  /-- A value, or the end of an array without items. -/
  | item
  /-- A key, or the end of an object without members. -/
  | member (members : List (Bytes × Json))
  /-- A key after a comma. -/
  | key (members : List (Bytes × Json))
  /-- The colon after a key. -/
  | colon (members : List (Bytes × Json)) (key : Bytes)
  /-- A comma, or the end of the innermost array or object, after its last value. -/
  | next (last : Json)

/-- The frames around the place reached, innermost first, and what may come. -/
structure State where
  frames : List Frame
  expected : Expected

def ofWord? (letters : Bytes) : Option Json :=
  if letters = Text.encode "null" then some .null
  else if letters = Text.encode "true" then some (.bool true)
  else if letters = Text.encode "false" then some (.bool false)
  else (Number.parse? letters).map .number

def State.begin (frames : List Frame) : Token → Option State
  | .string content => some ⟨frames, .next (.string content)⟩
  | .word letters => (ofWord? letters).map fun value => ⟨frames, .next value⟩
  | .openArray => some ⟨.array [] :: frames, .item⟩
  | .openObject => some ⟨frames, .member []⟩
  | _ => none

def State.advance (state : State) (token : Token) : Option State :=
  match state.expected, token with
  | .value, token => State.begin state.frames token
  | .item, .closeArray =>
    match state.frames with
    | .array _ :: outer => some ⟨outer, .next (.array [])⟩
    | _ => none
  | .item, token => State.begin state.frames token
  | .member _, .closeObject => some ⟨state.frames, .next (.object [])⟩
  | .member members, .string key => some ⟨state.frames, .colon members key⟩
  | .key members, .string key => some ⟨state.frames, .colon members key⟩
  | .colon members key, .colon => some ⟨.object members key :: state.frames, .value⟩
  | .next last, .comma =>
    match state.frames with
    | .array items :: outer => some ⟨.array (last :: items) :: outer, .value⟩
    | .object members key :: outer => some ⟨outer, .key ((key, last) :: members)⟩
    | [] => none
  | .next last, .closeArray =>
    match state.frames with
    | .array items :: outer => some ⟨outer, .next (.array (last :: items).reverse)⟩
    | _ => none
  | .next last, .closeObject =>
    match state.frames with
    | .object members key :: outer =>
      some ⟨outer, .next (.object ((key, last) :: members).reverse)⟩
    | _ => none
  | _, _ => none

def State.run (state : State) (tokens : List Token) : Option State :=
  tokens.foldlM State.advance state

/-- The value of a byte string that holds exactly one value. -/
def parse? (bytes : Bytes) : Option Json := do
  let tokens ← tokens? bytes
  let state ← State.run ⟨[], .value⟩ tokens
  match state with
  | ⟨[], .next value⟩ => some value
  | _ => none

end Json

end Gatehouse
