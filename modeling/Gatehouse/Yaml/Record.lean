/-
**Records in YAML documents.**

A mapping read as a record: some of its keys are fields with values of known types, and all others
are passed over.

* `Document.fields`: the nodes of the fields of a record;
* `Document.text`, `Document.truth`, `Document.natural`: the values of nodes.
-/

import Gatehouse.Yaml.Node
import Gatehouse.Yaml.Scheme
import Gatehouse.Table

namespace Gatehouse.Yaml

/-- Why a document is no record of the expected form. -/
inductive RecordFault where
  | malformed (fault : Fault)
  | notRecord
  | badKey
  | duplicateField (name : String)
  | missingField (name : String)
  | badValue (name : String)
deriving DecidableEq, Repr

def RecordFault.message : RecordFault → String
  | .malformed fault => fault.message
  | .notRecord => "expected a mapping"
  | .badKey => "expected a text as key"
  | .duplicateField name => "duplicate field '" ++ name ++ "'"
  | .missingField name => "missing field '" ++ name ++ "'"
  | .badValue name => "invalid value of field '" ++ name ++ "'"

namespace Document

/-- What a node stands for: an alias stands for the node under its anchor. -/
def follow (document : Document) : Node → Option Node
  | .alias number => document.target? number
  | node => some node

def collect (document : Document) (known : List String) :
    List (Node × Node) → Table Node → Except RecordFault (Table Node)
  | [], found => .ok found
  | (key, value) :: rest, found =>
    match document.follow key with
    | some (.scalar _ _ name) =>
      if !known.contains name then collect document known rest found
      else if found.contains name then .error (.duplicateField name)
      else collect document known rest (found.put name value)
    | _ => .error .badKey

/-- The nodes of the known fields of a record. Nothing at all is a record without fields. -/
def fields (document : Document) (known : List String) (node : Node) :
    Except RecordFault (Table Node) :=
  match document.follow node with
  | some (.mapping _ entries) => document.collect known entries .empty
  | some (.scalar _ .plain "") => .ok .empty
  | _ => .error .notRecord

/-- Whether a scalar may be read as a value that is no text: it is plain, or a literal block with
the tag of the value. -/
def isBare (tagName : String) (tag : Option String) (style : Style) : Bool :=
  style = .plain || (style = .literal && tag = some (coreTag tagName))

/-- The value of a node as a text; every scalar has one. -/
def text (document : Document) (name : String) (node : Node) : Except RecordFault String :=
  match document.follow node with
  | some (.scalar _ _ text) => .ok text
  | _ => .error (.badValue name)

def truth (document : Document) (name : String) (node : Node) : Except RecordFault Bool :=
  match document.follow node with
  | some (.scalar tag style text) =>
    match if isBare "bool" tag style then truth? text else none with
    | some value => .ok value
    | none => .error (.badValue name)
  | _ => .error (.badValue name)

def natural (document : Document) (name : String) (node : Node) : Except RecordFault Nat :=
  match document.follow node with
  | some (.scalar tag style text) =>
    match if isBare "int" tag style then unsigned? text.toList else none with
    | some value => if value < Nat.pow 2 64 then .ok value else .error (.badValue name)
    | none => .error (.badValue name)
  | _ => .error (.badValue name)

/-- The value of a field that must be there. -/
def required {α : Type} (fields : Table Node) (name : String)
    (read : String → Node → Except RecordFault α) :
    Except RecordFault α :=
  match fields.find? name with
  | some node => read name node
  | none => .error (.missingField name)

def optional {α : Type} (fields : Table Node) (name : String) (default : α)
    (read : String → Node → Except RecordFault α) : Except RecordFault α :=
  match fields.find? name with
  | some node => read name node
  | none => .ok default

end Document

end Gatehouse.Yaml
