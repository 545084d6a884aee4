/-
**Token claims.**

The second part of a token says whom it is about, until when it holds, and who issued it to whom.
Whatever else it says is kept by name.

* `Claims.ofBytes`: reads the claims of a payload;
* `Claims.check`: whether claims hold at a time, for an issuer and an audience.
-/

import Gatehouse.Bearer.Header

namespace Gatehouse.Bearer

open Text (Bytes)

/-- The claims of a token. -/
structure Claims where
  subject : Option String
  /-- When the token expires, in seconds since 1970. -/
  expires : Nat
  issuer : Option String
  /-- Whom the token is for: a text or a list of texts, but any value is kept. -/
  audience : Tree
  others : Table Tree

namespace Claims

/-- The claims that have a meaning of their own. -/
def knownNames : List String := ["sub", "exp", "iat", "iss", "aud"]

/-- The claim that says from when a token holds. -/
def notBefore : String := "nbf"

/-- The value under a name; the value of a missing claim is null. -/
def valueOf (entries : Entries Tree) (name : String) : Tree := (entries.find? name).getD .null

/-- How many entries have a name. -/
def countOf (entries : Entries Tree) (name : String) : Nat :=
  (entries.filter fun entry => entry.1 = name).length

/-- A claim that is a text, if it is there at all. -/
def optionalText (entries : Entries Tree) (name : String) : Except PartFault (Option String) :=
  match valueOf entries name with
  | .null => .ok none
  | .text value => .ok (some value)
  | _ => .error (.unfit name)

/-- The bound on points in time. -/
def timeBound : Nat := Nat.pow 2 64

/-- A point in time. -/
def time? : Tree → Option Nat
  | .int value => if 0 ≤ value ∧ value.toNat < timeBound then some value.toNat else none
  | _ => none

/-- When the token expires. -/
def expiry (entries : Entries Tree) : Except PartFault Nat :=
  if countOf entries "exp" = 0 then .error (.missing "exp")
  else match time? (valueOf entries "exp") with
    | some value => .ok value
    | none => .error (.unfit "exp")

/-- When the token was issued must be a point in time, if it is said. -/
def checkIssued (entries : Entries Tree) : Except PartFault Unit :=
  match valueOf entries "iat" with
  | .null => .ok ()
  | value => if (time? value).isSome then .ok () else .error (.unfit "iat")

/-- The claim that says from when a token holds is not looked at, but it may neither be written
twice nor have members. -/
def checkNotBefore (entries : Entries Tree) : Except PartFault Unit :=
  if 1 < countOf entries notBefore then .error (.repeated notBefore)
  else match valueOf entries notBefore with
    | .list (_ :: _) | .object (_ :: _) => .error (.unfit notBefore)
    | _ => .ok ()

/-- The claims of the entries of a payload; of other claims with one name the last one counts. -/
def ofEntries (entries : Entries Tree) : Except PartFault Claims := do
  match knownNames.find? fun name => 1 < countOf entries name with
  | some name => throw (.repeated name)
  | none =>
    let subject ← optionalText entries "sub"
    let expires ← expiry entries
    checkIssued entries
    let issuer ← optionalText entries "iss"
    checkNotBefore entries
    let others := entries.filter fun entry => entry.1 ∉ knownNames
    return {
      subject := subject
      expires := expires
      issuer := issuer
      audience := valueOf entries "aud"
      others := Table.ofList (others.map fun entry => (entry.1, entry.2.canonical)) }

/-- The claims of a payload. -/
def ofBytes (bytes : Bytes) : Except PartFault Claims :=
  match (Json.parse? bytes).bind (Json.toTree? Json.maxDepth) with
  | none => .error .notJson
  | some (.object entries) => ofEntries entries
  | some _ => .error .notRecord

/-! ### Checking -/

/-- For how many seconds an expired token still holds. -/
def leeway : Nat := 60

/-- Whether a token has expired. -/
def isExpired (now : Nat) (claims : Claims) : Bool := claims.expires + leeway < now

/-- The texts of a list that holds nothing else. -/
def allTexts? (items : List Tree) : Option (List String) :=
  items.mapM fun
    | .text value => some value
    | _ => none

/-- Whether an audience is the given one or a list with it; a value that is neither a text nor a
list of texts is not compared. -/
def admitsAudience (audience : String) : Tree → Bool
  | .text value => value = audience
  | .list items => (allTexts? items).all fun members => members.contains audience
  | _ => true

/-- Whether claims hold: not expired, and from the issuer and for the audience that are asked for. A
claim that is missing is not compared. -/
def check (now : Nat) (issuer audience : Option String) (claims : Claims) :
    Except AccessError Claims :=
  if claims.isExpired now then .error .tokenExpired
  else if !(issuer.all fun expected => claims.issuer.all fun given => given = expected) then
    .error (.invalidToken .issuer)
  else if !(audience.all fun expected => admitsAudience expected claims.audience) then
    .error (.invalidToken .audience)
  else .ok claims

/-! ### What claims say of the user -/

/-- The usual claim that names the user. -/
def subjectName : String := "sub"

/-- The usual claim that lists the roles. -/
def rolesName : String := "roles"

/-- The user that claims name, under the given name. -/
def user? (name : String) (claims : Claims) : Option String :=
  let named :=
    if name = subjectName then claims.subject
    else match claims.others.find? name with
      | some (.text value) => some value
      | _ => none
  named.filter fun user => user ≠ ""

/-- The text of a tree that is one. -/
def textOf? : Tree → Option String
  | .text value => some value
  | _ => none

/-- The roles that claims list under the given name: the texts of a list, or the parts of a text. -/
def roles (name : String) (claims : Claims) : List String :=
  match claims.others.find? name with
  | some (.list items) => items.filterMap textOf?
  | some (.text value) => Text.commaList value
  | _ => []

/-- The audience as one text. -/
def audienceText? (claims : Claims) : Option String :=
  let text? := match claims.audience with
    | .text value => some value
    | .list items => some (",".intercalate (items.filterMap textOf?))
    | _ => none
  text?.filter fun text => text ≠ ""

end Claims

end Gatehouse.Bearer
