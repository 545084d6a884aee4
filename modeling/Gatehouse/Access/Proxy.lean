/-
**Users named by a proxy.**

A proxy in front of the node has authenticated the user and names it, with its roles, in headers.

* `Proxy.extract`: the user and roles of the configured headers.
-/

import Gatehouse.Access.Mechanism

namespace Gatehouse.Proxy

def typeName : String := "proxy"

/-- The header of the user unless another one is configured. -/
def defaultUserHeader : String := "x-proxy-user"

/-- The header of the roles unless another one is configured. -/
def defaultRolesHeader : String := "x-proxy-roles"

/-- The credentials of a request; none when the header of the user is missing or blank. -/
def extract (userHeader rolesHeader : String) (request : Request) : Option Credentials :=
  match (request.header? userHeader).map Text.trim with
  | none => none
  | some user =>
    if user = "" then none
    else
      let roles := ((request.header? rolesHeader).map Text.commaList).getD []
      some ((Credentials.established user).addRoles roles)

/-- The extractor over two headers. The proxy does the asking, so there is no challenge. -/
def extractor (userHeader rolesHeader : String) : Extractor where
  typeName := typeName
  extract _ request := .ok (extract userHeader rolesHeader request)
  challenge _ := none

end Gatehouse.Proxy
