import SecurityOAuth2Jwt.Common.Outcome
import SecurityOAuth2Jwt.Spring.Security

/-!
# The entities `SecurityPermission`, `SecurityRole` and `SecurityUser`

Every column is nullable. The flags are boxed, so reading a null one throws. The iteration order of
a set of entities is not specified; the model goes through some list of its elements.
-/

namespace AuthorizationServer

open Java Spring

structure SecurityPermission where
  title : Option String
  deriving DecidableEq, Repr

structure SecurityRole where
  title : Option String
  permissionSet : List SecurityPermission
  deriving DecidableEq, Repr

structure SecurityUser where
  username : Option String
  password : Option String
  email : Option String
  accountExpired : Option Bool
  accountLocked : Option Bool
  credentialExpired : Option Bool
  enabled : Option Bool
  roleSet : List SecurityRole
  deriving DecidableEq, Repr

/-- Unboxing a `Boolean`. -/
def unbox : Option Bool → Result Bool
  | some b => .ok b
  | none => .error (.ofClass .nullPointer)

namespace SecurityUser

section Authorities

variable (S : SpringSecurity)

/-- `grantedAuthoritySet.add(new SimpleGrantedAuthority(title))`. -/
def addAuthority (set : LinkedHashSet GrantedAuthority) (title : Option String) :
    Result (LinkedHashSet GrantedAuthority) := do
  let authority ← S.simpleGrantedAuthority title
  return set.add authority

/-- The title of the role, then the titles of its permissions. -/
def addRole (set : LinkedHashSet GrantedAuthority) (role : SecurityRole) :
    Result (LinkedHashSet GrantedAuthority) := do
  let set ← addAuthority S set role.title
  role.permissionSet.foldlM (fun set permission => addAuthority S set permission.title) set

def getAuthorities (u : SecurityUser) : Result (LinkedHashSet GrantedAuthority) :=
  u.roleSet.foldlM (addRole S) ∅

end Authorities

def isAccountNonExpired (u : SecurityUser) : Result Bool := do
  let accountExpired ← unbox u.accountExpired
  return !accountExpired

def isAccountNonLocked (u : SecurityUser) : Result Bool := do
  let accountLocked ← unbox u.accountLocked
  return !accountLocked

def isCredentialsNonExpired (u : SecurityUser) : Result Bool := do
  let credentialExpired ← unbox u.credentialExpired
  return !credentialExpired

def isEnabled (u : SecurityUser) : Result Bool := unbox u.enabled

end SecurityUser

end AuthorizationServer
