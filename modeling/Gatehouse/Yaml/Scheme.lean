/-
**What plain scalars mean.**

A plain scalar is null, a truth value, an integer, a floating point number or a text, in this order
of preference.

* `isNull`, `truth?`, `integer`, `float`: the written forms;
* `plainTree`: the meaning of a plain scalar;
* `scalarTree`: the meaning of any scalar, with its tag.
-/

import Gatehouse.Yaml.Token
import Gatehouse.Settings.Tree

namespace Gatehouse.Yaml

def isNull (text : String) : Bool := text ∈ ["null", "Null", "NULL", "~"]

def truth? (text : String) : Option Bool :=
  if text ∈ ["true", "True", "TRUE"] then some true
  else if text ∈ ["false", "False", "FALSE"] then some false
  else none

def digitIn? (base : Nat) (c : Char) : Option Nat :=
  let value :=
    if '0' ≤ c ∧ c ≤ '9' then c.toNat - '0'.toNat
    else if 'a' ≤ c ∧ c ≤ 'f' then c.toNat - 'a'.toNat + 10
    else if 'A' ≤ c ∧ c ≤ 'F' then c.toNat - 'A'.toNat + 10
    else base
  if value < base then some value else none

/-- The number written by digits of a base; at least one digit. -/
def natIn? (base : Nat) : List Char → Option Nat
  | [] => none
  | digits => digits.foldlM (fun value c => (digitIn? base c).map (value * base + ·)) 0

/-- Digits that begin with a zero and go on, after a sign at most: no number but a text. -/
def isZeroPadded (text : List Char) : Bool :=
  let digits := match text with
    | '-' :: rest => rest
    | '+' :: rest => rest
    | rest => rest
  1 < digits.length && digits.head? == some '0' && digits.all Char.isDigit

/-- The base announced by two characters, and the digits after them. -/
def prefixed? : List Char → Option (Nat × List Char)
  | '0' :: 'x' :: rest => some (16, rest)
  | '0' :: 'o' :: rest => some (8, rest)
  | '0' :: 'b' :: rest => some (2, rest)
  | _ => none

/-- The value of an integer without a minus sign. -/
def unsigned? (text : List Char) : Option Nat :=
  let digits := match text with
    | '+' :: rest => rest
    | rest => rest
  match prefixed? digits with
  | some (base, rest) => natIn? base rest
  | none => if isZeroPadded text then none else natIn? 10 digits

def negative? (text : List Char) : Option Nat :=
  match text with
  | '-' :: rest =>
    match prefixed? rest with
    | some (base, digits) => natIn? base digits
    | none => if isZeroPadded text then none else natIn? 10 rest
  | _ => none

/-- What a text says as an integer. -/
inductive IntegerForm where
  /-- An integer of 64 bits, unsigned or signed. -/
  | value (value : Int)
  /-- An integer that only 128 bits hold. -/
  | tooWide
  /-- No integer of 128 bits. -/
  | none
deriving DecidableEq, Repr

def integer (text : String) : IntegerForm :=
  match unsigned? text.toList with
  | some value =>
    if value < Nat.pow 2 64 then .value value
    else if value < Nat.pow 2 128 then .tooWide
    else .none
  | Option.none =>
    match negative? text.toList with
    | some value =>
      if value ≤ Nat.pow 2 63 then .value (-(value : Int))
      else if value ≤ Nat.pow 2 127 then .tooWide
      else .none
    | Option.none => .none

/-- What a text says as a floating point number. -/
inductive FloatForm where
  | finite (value : Binary64)
  /-- An infinity or the value that is no number. -/
  | special
  | none
deriving DecidableEq, Repr

/-- A decimal: digits with a point at most, and an exponent at most. -/
def decimal? (text : List Char) : Option (Nat × Int) :=
  let (whole, rest) := text.span Char.isDigit
  let (fraction, rest) := match rest with
    | '.' :: rest => rest.span Char.isDigit
    | rest => ([], rest)
  if whole.isEmpty && fraction.isEmpty then none
  else do
    let exponent : Int ← match rest with
      | [] => some 0
      | mark :: rest =>
        if mark == 'e' || mark == 'E' then
          match rest with
          | '-' :: digits => (natIn? 10 digits).map fun value => -(value : Int)
          | '+' :: digits => (natIn? 10 digits).map fun value => (value : Int)
          | digits => (natIn? 10 digits).map fun value => (value : Int)
        else none
    let digits ← natIn? 10 (whole ++ fraction)
    return (digits, exponent - fraction.length)

/-- Read a floating point number; one beyond the largest is none. -/
def float (text : String) : FloatForm :=
  let read (negative : Bool) (digits : List Char) : FloatForm :=
    match decimal? digits with
    | some (digits, exponent) =>
      match Binary64.ofDecimal? negative digits exponent with
      | some value => .finite value
      | Option.none => .none
    | Option.none => .none
  if text ∈ [".inf", ".Inf", ".INF", "+.inf", "+.Inf", "+.INF", "-.inf", "-.Inf", "-.INF",
      ".nan", ".NaN", ".NAN"] then .special
  else match text.toList with
    | '+' :: rest => read false rest
    | '-' :: rest => read true rest
    | rest => read false rest

/-- The tree of a floating point number; the special values have none but null. -/
def FloatForm.tree? : FloatForm → Option Tree
  | .finite value => some (.float value)
  | .special => some .null
  | .none => Option.none

def plainTree (text : String) : Except Fault Tree :=
  if text = "" || isNull text then .ok .null
  else match truth? text with
    | some value => .ok (.bool value)
    | none =>
      match integer text with
      | .value value => .ok (.int value)
      | .tooWide => .error .integerOutOfRange
      | .none =>
        if isZeroPadded text.toList then .ok (.text text)
        else .ok ((float text).tree?.getD (.text text))

/-- The tags of the core scheme that a scalar must fit. -/
def coreTag (name : String) : String := "tag:yaml.org,2002:" ++ name

/-- The tree of a scalar with a tag: the tags of truth values, integers, floating point numbers and
null must fit, a tag that begins with an exclamation mark stands for a value of another kind, and
any other tag makes it a text. -/
def taggedTree (tag text : String) : Except Fault Tree :=
  if tag = coreTag "bool" then
    match truth? text with
    | some value => .ok (.bool value)
    | none => .error .badScalar
  else if tag = coreTag "int" then
    match integer text with
    | .value value => .ok (.int value)
    | .tooWide => .error .integerOutOfRange
    | .none => .error .badScalar
  else if tag = coreTag "float" then
    match (float text).tree? with
    | some tree => .ok tree
    | none => .error .badScalar
  else if tag = coreTag "null" then
    if isNull text then .ok .null else .error .badScalar
  else .ok (.text text)

def scalarTree (tag : Option String) (style : Style) (text : String) : Except Fault Tree :=
  match tag with
  | some tag => if tag.startsWith "!" then .error .taggedValue else taggedTree tag text
  | none => if style = .plain then plainTree text else .ok (.text text)

end Gatehouse.Yaml
