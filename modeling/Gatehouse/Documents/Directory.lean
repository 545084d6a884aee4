/-
**A store in a directory.**

Each document is a file of the directory, named by its type and one of three extensions. The
directory itself is the index: it must exist for reads to be served.

* `DirectoryStore.lookUp`: what one type gives, with the names that are asked for on the way; a type
  that is no plain file name is refused, and any other type looks at three children of the directory
  only.
-/

import Gatehouse.Documents.Store
import Gatehouse.Text.Utf8

namespace Gatehouse

open Text (Bytes)

/-- What a name in a directory stands for. -/
inductive FileEntry where
  | file (content : Bytes)
  | directory
  /-- Something that is there and cannot be read, for a reason. -/
  | unreadable (reason : String)
deriving DecidableEq

/-- What stands at the root path of a store. -/
inductive FileRoot where
  | missing
  | file
  | directory (children : Table FileEntry)
  /-- A directory whose children can be reached, but not listed. -/
  | unlisted (children : Table FileEntry)

/-- A store over a directory. -/
structure DirectoryStore where
  path : String
  root : FileRoot

namespace DirectoryStore

/-- Types that are no plain file name: empty, hidden, or with a path separator. -/
def isRefused (type : String) : Bool :=
  type = "" || type.toList.any (fun c => c = '/' || c = '\\') || type.toList.head? == some '.'

/-- The children that may hold the document of a type, in the order in which they are tried. -/
def candidates (type : String) : List String := [type ++ ".yml", type ++ ".yaml", type ++ ".json"]

def child? (store : DirectoryStore) (name : String) : Option FileEntry :=
  match store.root with
  | .directory children | .unlisted children => children.find? name
  | .missing | .file => none

/-- The path of a child. It is joined to the root with a separator, unless the root ends with one or
is empty. -/
def pathOf (store : DirectoryStore) (name : String) : String :=
  if store.path = "" || store.path.toList.getLast? == some '/' then store.path ++ name
  else store.path ++ "/" ++ name

/-- What a look at a directory gives, with the names that it asks for, one after another. -/
structure Look (α : Type) where
  asked : List String
  result : α

/-- Ask for names until one exists. -/
def locate (store : DirectoryStore) : List String → Look (Option (String × FileEntry))
  | [] => ⟨[], none⟩
  | name :: rest =>
    match store.child? name with
    | some entry => ⟨[name], some (name, entry)⟩
    | none =>
      let later := store.locate rest
      ⟨name :: later.asked, later.result⟩

/-- The text of a file, or why it cannot be read. -/
def content : FileEntry → Except String String
  | .file bytes =>
    match Text.decode? bytes with
    | some text => .ok text
    | none => .error "stream did not contain valid UTF-8"
  | .directory => .error "Is a directory (os error 21)"
  | .unreadable reason => .error reason

/-- What the child that was found gives. -/
def documentOf (store : DirectoryStore) : Option (String × FileEntry) → StoredDocument
  | none => .missing
  | some (name, entry) =>
    match content entry with
    | .ok text => .found text
    | .error reason => .failed (store.pathOf name ++ ": " ++ reason)

/-- Look for the document of a type. -/
def lookUp (store : DirectoryStore) (type : String) : Look StoredDocument :=
  if isRefused type then ⟨[], .failed ("invalid configuration type '" ++ type ++ "'")⟩
  else
    let located := store.locate (candidates type)
    ⟨located.asked, store.documentOf located.result⟩

/-- The document of a type. -/
def read (store : DirectoryStore) (type : String) : StoredDocument := (store.lookUp type).result

def isDirectory (store : DirectoryStore) : Bool :=
  match store.root with
  | .directory _ | .unlisted _ => true
  | .missing | .file => false

def isListed (store : DirectoryStore) : Bool :=
  match store.root with
  | .directory _ => true
  | .unlisted _ | .missing | .file => false

end DirectoryStore

instance : DocumentStore DirectoryStore where
  lifecycle store := (.started, store)
  indexExists store := (store.isDirectory, store)
  health store := (if store.isListed then .green else .red, store)
  multiGet types store := (.ok (types.map fun type => (type, store.read type)), store)

end Gatehouse
