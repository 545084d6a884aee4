/-
**Settings for forwarded addresses.**

Which proxies may be passed over when the address of a client is looked for, as patterns of address
texts, and which headers carry the addresses.

* `Forwarding.wholeText`: the pattern that stands between the tests for both ends of a text;
* `Forwarding.ofSettings`: the settings of a document.
-/

import Gatehouse.Pattern.Syntax
import Gatehouse.Settings.Basic

namespace Gatehouse

/-- Why the address of a client cannot be found. -/
inductive ForwardingError where
  | addressUnresolvable (entry : String)
  | invalidPattern (pattern : String) (detail : String)
deriving DecidableEq, Repr

/-- The error in words. -/
def ForwardingError.message : ForwardingError → String
  | .addressUnresolvable entry => "Cannot resolve address '" ++ entry ++ "'"
  | .invalidPattern pattern detail => "Invalid proxy pattern '" ++ pattern ++ "': " ++ detail

/-- How forwarded addresses are read. -/
structure Forwarding where
  enabled : Bool
  /-- Proxies that are passed over. -/
  internal : Pattern
  /-- Proxies that are passed over and recorded. -/
  trusted : Option Pattern
  /-- The header in which trusted proxies are recorded. -/
  proxiesHeader : String
  /-- The header that lists the addresses. -/
  remoteHeader : String
deriving DecidableEq, Repr

namespace Forwarding

/-- The pattern of one decimal part of an address. -/
def part : String := "\\d{1,3}"

/-- The pattern of an address with the given parts. -/
def dotted (parts : List String) : String := "\\.".intercalate parts

/-- The addresses of private networks, of the local link and of the node itself. -/
def privateAddresses : String :=
  "|".intercalate [
    dotted ["10", part, part, part], dotted ["192", "168", part, part],
    dotted ["169", "254", part, part], dotted ["127", part, part, part],
    dotted ["172", "1[6-9]", part, part], dotted ["172", "2[0-9]", part, part],
    dotted ["172", "3[0-1]", part, part], "0:0:0:0:0:0:0:1", "::1"]

/-- The header that lists the addresses unless another one is configured. -/
def defaultRemoteHeader : String := "x-forwarded-for"

/-- The header in which trusted proxies are recorded unless another one is configured. -/
def defaultProxiesHeader : String := "x-forwarded-by"

/-- A pattern between the tests for both ends of a text. The text of the pattern is set into the
text around it before it is read. -/
def wholeText (pattern : String) : Except ForwardingError Pattern :=
  (Pattern.parse ("^(?:" ++ pattern ++ ")$")).mapError fun fault =>
    .invalidPattern pattern fault.message

/-- The pattern of internal proxies unless another one is configured. -/
def privatePattern : Pattern := ((wholeText privateAddresses).toOption).getD .empty

/-- The settings when a document says nothing. -/
def standard : Forwarding :=
  ⟨true, privatePattern, none, defaultProxiesHeader, defaultRemoteHeader⟩

/-- Forwarded addresses are not read at all. -/
def disabled : Forwarding := { standard with enabled := false }

/-- The pattern of trusted proxies; a blank text is none. -/
def trustedOf (pattern : Option String) : Except ForwardingError (Option Pattern) :=
  match pattern with
  | none => .ok none
  | some text => if Text.trim text = "" then .ok none else (wholeText text).map some

/-- The settings with the given patterns. -/
def ofPatterns (internal : String) (trusted : Option String) :
    Except ForwardingError Forwarding := do
  let internal ← wholeText internal
  let trusted ← trustedOf trusted
  return { standard with internal := internal, trusted := trusted }

/-- Where a document holds a setting. -/
def path (name : String) : String := "dynamic.http.xff." ++ name

/-- The alternative that a pattern is, by itself. -/
def alternative (pattern : String) : String := "(?:" ++ pattern ++ ")"

/-- The pattern that settings give as one text or as a list of alternatives. -/
def pattern? (settings : Settings) (path : String) : Option String :=
  match settings.get? path with
  | some (.list _) =>
    match settings.texts path with
    | [] => none
    | patterns => some ("|".intercalate (patterns.map alternative))
  | _ => settings.text? path

/-- The header that settings name, in small letters. -/
def headerAt (settings : Settings) (path default : String) : String :=
  ((settings.text? path).map Text.lowerAscii).getD default

/-- The settings of a document. -/
def ofSettings (settings : Settings) : Except ForwardingError Forwarding := do
  if !settings.flag (path "enabled") true then return disabled
  let internal ← match pattern? settings (path "internalProxies") with
    | some pattern => wholeText pattern
    | none => .ok privatePattern
  let trusted ← trustedOf (pattern? settings (path "trustedProxies"))
  return {
    enabled := true
    internal := internal
    trusted := trusted
    proxiesHeader := headerAt settings (path "proxiesHeader") defaultProxiesHeader
    remoteHeader := headerAt settings (path "remoteIpHeader") defaultRemoteHeader }

/-- Whether an address text is that of an internal proxy. -/
def isInternal (forwarding : Forwarding) (address : String) : Bool :=
  forwarding.internal.isMatch address

/-- Whether an address text is that of a trusted proxy. -/
def isTrusted (forwarding : Forwarding) (address : String) : Bool :=
  forwarding.trusted.any fun pattern => pattern.isMatch address

/-- Whether an address text is that of a proxy. -/
def isProxy (forwarding : Forwarding) (address : String) : Bool :=
  forwarding.isInternal address || forwarding.isTrusted address

end Forwarding

end Gatehouse
