import SecurityOAuth2Jwt.Spring.Security

/-!
# Spring's authentication and token objects

`π` is the class of the user principal, which differs between the two servers.
-/

namespace Spring

open Java

variable {π : Type}

/-! ## The names of the claims, from `AccessTokenConverter` and `UserAuthenticationConverter` -/

namespace Claim

def exp : String := "exp"
def aud : String := "aud"
def jti : String := "jti"
def scope : String := "scope"
def clientId : String := "client_id"
def grantType : String := "grant_type"
def username : String := "user_name"
def authorities : String := "authorities"

end Claim

structure OAuth2Authentication (π : Type) where
  storedRequest : OAuth2Request
  userAuthentication : Option (UserAuthentication π)

/-- The principal of an `OAuth2Authentication`: the user's, or the client id. -/
inductive Principal (π : Type) where
  | user (p : π)
  | client (clientId : Option String)
  deriving DecidableEq, Repr

namespace OAuth2Authentication

def isClientOnly (a : OAuth2Authentication π) : Bool := a.userAuthentication.isNone

/-- The authorities are the user's if there is one, and the stored request's otherwise. -/
def getAuthorities (a : OAuth2Authentication π) : List GrantedAuthority :=
  match a.userAuthentication with
  | some user => user.authorities.getD []
  | none => (a.storedRequest.authorities.getD ∅).toList

def getPrincipal (a : OAuth2Authentication π) : Principal π :=
  match a.userAuthentication with
  | some user => .user user.principal
  | none => .client a.storedRequest.clientId

/-- `hasAnyAuthority(names)`. -/
def hasAnyAuthority (a : OAuth2Authentication π) (names : List String) : Bool :=
  names.any fun n => decide (⟨n⟩ ∈ a.getAuthorities)

theorem hasAnyAuthority_iff {a : OAuth2Authentication π} {names : List String} :
    a.hasAnyAuthority names = true ↔ ∃ n ∈ names, ⟨n⟩ ∈ a.getAuthorities := by
  simp [hasAnyAuthority]

/-- `getName()` for a user principal that is a string: the principal, or the client id. -/
def getName (a : OAuth2Authentication String) : String :=
  match a.getPrincipal with
  | .user name => name
  | .client clientId => clientId.getD ""

/-- The authorities of a client-only authentication are those its request was built with. -/
theorem mem_getAuthorities_of_client {S : SpringSecurity} (hS : S.Documented)
    {requestParameters : JavaMap String (Option String)} {clientId : Option String}
    {authorities : Option (List GrantedAuthority)} {approved : Bool}
    {scope resourceIds : LinkedHashSet Elem} {a : GrantedAuthority} :
    a ∈ @getAuthorities π
        ⟨S.oauth2Request requestParameters clientId authorities approved scope resourceIds, none⟩ ↔
      a ∈ authorities.getD [] := by
  simp only [getAuthorities, (hS.request ..).authorities, Option.getD_some]
  exact LinkedHashSet.mem_ofList

end OAuth2Authentication

/-- A `DefaultOAuth2AccessToken`; the expiration is a `Date`, in milliseconds. -/
structure OAuth2AccessToken where
  value : String
  expiration : Option Int64
  scope : Option (LinkedHashSet Elem)
  additionalInformation : ClaimsMap

/-- `isExpired()` at the time `now`, in milliseconds. -/
def OAuth2AccessToken.isExpired (token : OAuth2AccessToken) (now : Int64) : Bool :=
  match token.expiration with
  | some time => decide (time < now)
  | none => false

end Spring
