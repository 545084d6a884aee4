/-
**Hash strings in fields.**

A hash string has an algorithm name and, each after a dollar sign and each optional, a version,
parameters, a salt and an output.

* `Phc.toChars`: the written form;
* `Phc.parse?`: reads a written form with the character sets and limits of every field.
-/

import Gatehouse.Text.Base64
import Gatehouse.Text.Split

namespace Gatehouse

open Text (Bytes)

/-- A hash string in its fields. The salt is still in symbols. -/
structure Phc where
  algorithm : List Char
  version : Option Nat
  parameters : List (List Char × List Char)
  salt : Option (List Char)
  output : Option Bytes
deriving DecidableEq

namespace Phc

/-! ### Character sets -/

/-- Small letters, digits and the hyphen, which make names. -/
def isNameChar (c : Char) : Bool :=
  ('a' ≤ c && c ≤ 'z') || ('0' ≤ c && c ≤ '9') || c = '-'

def isValueChar (c : Char) : Bool := c.isAlphanum || c = '/' || c = '+' || c = '.' || c = '-'

/-- A name has one to thirty-two characters. -/
def isName (text : List Char) : Bool :=
  !text.isEmpty && text.length ≤ 32 && text.all isNameChar

/-- A value has at most sixty-four characters. -/
def isValue (text : List Char) : Bool := text.length ≤ 64 && text.all isValueChar

/-- A salt has four to sixty-four characters. -/
def isSalt (text : List Char) : Bool :=
  4 ≤ text.length && text.length ≤ 64 && text.all isValueChar

/-- The number of decimal digits without a leading zero, in thirty-two bits. -/
def decimal? (text : List Char) : Option Nat :=
  if text.isEmpty || !text.all Char.isDigit || (text.head? = some '0' && 1 < text.length) then none
  else
    let value := text.foldl (fun value digit => value * 10 + (digit.toNat - 48)) 0
    if value < Nat.pow 2 32 then some value else none

/-! ### Bytes in symbols -/

def bytes? (text : List Char) : Option Bytes :=
  match Base64.decode Base64.standard false (Text.encode (String.ofList text)) with
  | .ok bytes => some bytes
  | .error _ => none

/-- The bytes of symbols, if they are at most so many. -/
def bytesUpTo? (limit : Nat) (text : List Char) : Option Bytes :=
  (bytes? text).filter fun bytes => bytes.length ≤ limit

def symbols (bytes : Bytes) : List Char :=
  (Base64.encode Base64.standard false bytes).map fun byte => Char.ofNat byte.toNat

/-- The bytes of an output field: ten to sixty-four. -/
def output? (text : List Char) : Option Bytes :=
  (bytes? text).filter fun bytes => 10 ≤ bytes.length && bytes.length ≤ 64

/-! ### Fields -/

/-- A parameter: a name, an equals sign and a value. -/
def parameter? (text : List Char) : Option (List Char × List Char) :=
  match Text.splitAll '=' text with
  | [name, value] => if isName name && isValue value then some (name, value) else none
  | _ => none

def parameters? (text : List Char) : Option (List (List Char × List Char)) :=
  if text.length ≤ 127 then (Text.splitAll ',' text).mapM parameter? else none

/-- Take the version from the front of the fields, if one is there. -/
def takeVersion? : List (List Char) → Option (Option Nat × List (List Char))
  | [] => some (none, [])
  | field :: rest =>
    match Text.dropPrefix? ['v', '='] field with
    | some value =>
      if field.contains ',' then some (none, field :: rest)
      else if isValue value then (decimal? value).map fun version => (some version, rest)
      else none
    | none => some (none, field :: rest)

/-- Take the parameters from the front of the fields, if they are there. -/
def takeParameters? : List (List Char) → Option (List (List Char × List Char) × List (List Char))
  | [] => some ([], [])
  | field :: rest =>
    if field.contains '=' then (parameters? field).map fun parameters => (parameters, rest)
    else some ([], field :: rest)

def takeSalted? : List (List Char) → Option (Option (List Char) × Option Bytes)
  | [] => some (none, none)
  | [salt] => if isSalt salt then some (some salt, none) else none
  | [salt, output] =>
    if isSalt salt then (output? output).map fun output => (some salt, some output) else none
  | _ => none

def parse? (text : List Char) : Option Phc :=
  match Text.splitAll '$' text with
  | [] :: algorithm :: fields => do
    if !isName algorithm then none
    let (version, fields) ← takeVersion? fields
    let (parameters, fields) ← takeParameters? fields
    let (salt, output) ← takeSalted? fields
    return ⟨algorithm, version, parameters, salt, output⟩
  | _ => none

/-! ### Writing -/

def field (text : List Char) : List Char := '$' :: text

def parameterChars : List (List Char × List Char) → List Char
  | [] => []
  | [(name, value)] => name ++ '=' :: value
  | (name, value) :: rest => name ++ '=' :: value ++ ',' :: parameterChars rest

def toChars (phc : Phc) : List Char :=
  field phc.algorithm ++
    (phc.version.map fun version => field ('v' :: '=' :: Nat.toDigits 10 version)).getD [] ++
    (if phc.parameters.isEmpty then [] else field (parameterChars phc.parameters)) ++
    (phc.salt.map field).getD [] ++ (phc.output.map fun output => field (symbols output)).getD []

end Phc

end Gatehouse
