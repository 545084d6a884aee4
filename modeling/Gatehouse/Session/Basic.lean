/-
**Sessions.**

A session is a user name with a token. A client presents it in a header instead of credentials.

* `Session.headerValue`: name, colon and token;
* `Session.ofHeader?`: reads a header value; the token stands after the last colon.
-/

import Gatehouse.Session.Token
import Gatehouse.Text.Blank
import Gatehouse.Text.Quoted

namespace Gatehouse

/-- The handle of a session. Two sessions are the same when name and token are. -/
structure Session where
  username : String
  token : Token
deriving DecidableEq

namespace Session

/-- The request header that carries a session. -/
def headerName : String := "x-auth-session"

/-- The characters of the header value. -/
def toChars (session : Session) : List Char :=
  session.username.toList ++ ':' :: session.token.toChars

/-- The header value of a session. -/
def headerValue (session : Session) : String := String.ofList session.toChars

/-- The session in a header value; blanks around it do not count. -/
def ofHeader? (value : String) : Option Session :=
  match Text.splitLast? ':' (Text.trimBoth value.toList) with
  | none => none
  | some (username, token) =>
    if username.isEmpty then none
    else (Token.ofChars? token).map fun token => ⟨String.ofList username, token⟩

/-- The session for diagnostics, without its token. -/
def describe (session : Session) : String :=
  "Session \x7b username: " ++ Text.quote session.username ++ ", token: \"<redacted>\" \x7d"

end Session

end Gatehouse
