/-
**Token headers.**

The first part of a token names the algorithm of its signature. Other parameters do not matter, but
those that are known must have values of their kinds.

* `Header.algorithm`: the algorithm that a header names.
-/

import Gatehouse.Bearer.Key
import Gatehouse.Json.Tree

namespace Gatehouse.Bearer

open Text (Bytes)

/-- Why a part of a token cannot be read as JSON. -/
inductive PartFault where
  | notJson
  | notRecord
  | repeated (name : String)
  | missing (name : String)
  | unfit (name : String)
deriving DecidableEq, Repr

/-- The fault in words. -/
def PartFault.message : PartFault → String
  | .notJson => "malformed value"
  | .notRecord => "not a record"
  | .repeated name => "duplicate field '" ++ name ++ "'"
  | .missing name => "missing field '" ++ name ++ "'"
  | .unfit name => "invalid value for '" ++ name ++ "'"

namespace Header

/-- The text of a value. -/
def text? : Json → Option String
  | .string content => Json.decodeLiteral? content
  | _ => none

/-- Texts. -/
def isText (value : Json) : Bool := (text? value).isSome

/-- Lists of texts. -/
def isTextList : Json → Bool
  | .array items => items.all isText
  | _ => false

/-- A value of a kind, or none. -/
def isOptional (test : Json → Bool) : Json → Bool
  | .null => true
  | value => test value

/-- Members with decoded names. -/
def members? (members : List (Bytes × Json)) : Option (List (String × Json)) :=
  members.mapM fun (key, value) => (Json.decodeLiteral? key).map fun name => (name, value)

/-- The value of the first member with a name. -/
def member? (members : List (String × Json)) (name : String) : Option Json :=
  (members.find? fun entry => entry.1 = name).map (·.2)

/-- The first of the given names that two members have. -/
def repeated? (members : List (String × Json)) (names : List String) : Option String :=
  names.find? fun name => 1 < (members.filter fun entry => entry.1 = name).length

/-! ### Embedded keys -/

/-- The names of algorithms that embedded keys may be for. -/
def keyAlgorithms : List String :=
  Algorithm.named.map (·.1) ++ ["RSA1_5", "RSA-OAEP", "RSA-OAEP-256"]

/-- The curves of embedded keys. -/
def keyCurves : List String := ["P-256", "P-384", "P-521", "Ed25519"]

/-- The members that any embedded key may have. -/
def keyMembers : List (String × (Json → Bool)) :=
  [("use", isText), ("key_ops", isTextList),
   ("alg", fun value => (text? value).any fun name => name ∈ keyAlgorithms),
   ("kid", isText), ("x5u", isText), ("x5c", isTextList), ("x5t", isText), ("x5t#S256", isText)]

/-- The members that an embedded key must have, by its type. -/
def keyParts (type : String) : Option (List String) :=
  if type = "EC" then some ["crv", "x", "y"]
  else if type = "RSA" then some ["n", "e"]
  else if type = "oct" then some ["k"]
  else if type = "OKP" then some ["crv", "x"]
  else none

/-- Whether a part of an embedded key is there. -/
def hasPart (members : List (String × Json)) (name : String) : Bool :=
  (member? members name).any fun value =>
    if name = "crv" then (text? value).any fun curve => curve ∈ keyCurves else isText value

/-- Embedded keys. -/
def isKey : Json → Bool
  | .object raw =>
    ((Json.toTree? (Json.maxDepth - 1) (.object raw)).bind fun _ => members? raw).any fun members =>
      (repeated? members (keyMembers.map (·.1))).isNone &&
      keyMembers.all (fun (name, test) => (member? members name).all (isOptional test)) &&
      (((member? members "kty").bind text?).bind keyParts).any fun parts =>
        (repeated? members ("kty" :: parts)).isNone && parts.all (hasPart members)
  | _ => false

/-! ### Headers -/

/-- The parameters of a header besides the algorithm, and the kinds of their values. -/
def parameters : List (String × (Json → Bool)) :=
  [("typ", isText), ("cty", isText), ("jku", isText), ("jwk", isKey), ("kid", isText),
   ("x5u", isText), ("x5c", isTextList), ("x5t", isText), ("x5t#S256", isText)]

/-- The parameter that names the algorithm. -/
def algorithmName : String := "alg"

/-- The algorithm that a value names: by a text, or as the only member of an object, without
value. -/
def algorithmOf? : Json → Option Algorithm
  | .string content => (Json.decodeLiteral? content).bind Algorithm.ofName?
  | .object [(key, .null)] => (Json.decodeLiteral? key).bind Algorithm.ofName?
  | _ => none

/-- The algorithm of a header with named members. -/
def ofMembers (members : List (String × Json)) : Except PartFault Algorithm :=
  match repeated? members (algorithmName :: parameters.map (·.1)) with
  | some name => .error (.repeated name)
  | none =>
    match parameters.find? fun entry =>
        (member? members entry.1).any fun value => !isOptional entry.2 value with
    | some (name, _) => .error (.unfit name)
    | none =>
      match member? members algorithmName with
      | none => .error (.missing algorithmName)
      | some value =>
        match algorithmOf? value with
        | some algorithm => .ok algorithm
        | none => .error (.unfit algorithmName)

/-- The names of the values of a header that is written as a list. -/
def positions : List String :=
  ["typ", algorithmName, "cty", "jku", "jwk", "kid", "x5u", "x5c", "x5t", "x5t#S256"]

/-- The algorithm that a header names. -/
def algorithm (bytes : Bytes) : Except PartFault Algorithm :=
  match Json.parse? bytes with
  | none => .error .notJson
  | some (.object raw) =>
    match members? raw with
    | some members => ofMembers members
    | none => .error .notJson
  | some (.array items) =>
    if items.length = positions.length then ofMembers (positions.zip items) else .error .notRecord
  | some _ => .error .notRecord

end Header

end Gatehouse.Bearer
