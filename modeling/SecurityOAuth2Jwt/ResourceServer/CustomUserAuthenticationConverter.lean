import SecurityOAuth2Jwt.Common.Outcome
import SecurityOAuth2Jwt.Spring.Authentication

/-!
# `CustomUserAuthenticationConverter` and `CustomPrincipal`

The conversion between the claims of a user and the user's authentication.
-/

namespace ResourceServer

open Java Spring

structure CustomPrincipal where
  username : String
  email : String
  deriving DecidableEq, Repr

/-- `CustomUserAuthenticationConverter.EMAIL`. -/
def email : String := "email"

structure CustomUserAuthenticationConverter where
  defaultAuthorities : Option (List GrantedAuthority) := none

namespace CustomUserAuthenticationConverter

variable {π : Type} (S : SpringSecurity) (conv : CustomUserAuthenticationConverter)

/-- The setter of the only field, over Spring's `StringUtils.arrayToCommaDelimitedString`. -/
def setDefaultAuthorities (arrayToCommaDelimitedString : List (Option String) → String)
    (defaultAuthorities : List (Option String)) : Result CustomUserAuthenticationConverter := do
  let authorities ←
    S.commaSeparatedStringToAuthorityList (arrayToCommaDelimitedString defaultAuthorities)
  return { defaultAuthorities := some authorities }

/-- `nameOf` is `getName()` as a function of the principal. -/
def convertUserAuthentication (nameOf : π → Option String)
    (userAuthentication : UserAuthentication π) : ClaimsMap :=
  let response : ClaimsMap := ∅
  let response := response.put Claim.username (.ofString (nameOf userAuthentication.principal))
  match userAuthentication.authorities with
  | some (a :: as) =>
    response.put Claim.authorities (.ofStringSet (S.authorityListToSet (a :: as)))
  | _ => response

def getAuthorities (map : ClaimsMap) : Result (Option (List GrantedAuthority)) :=
  if map.containsKey Claim.authorities then
    match map.get Claim.authorities with
    | .str authorities => some <$> S.commaSeparatedStringToAuthorityList authorities
    | .coll authorities =>
      some <$> S.commaSeparatedStringToAuthorityList
        (S.collectionToCommaDelimitedString authorities)
    | _ => .error ⟨.illegalArgument, some "Authorities must be either a String or a Collection"⟩
  else .ok conv.defaultAuthorities

def extractAuthentication (map : ClaimsMap) :
    Result (Option (UserAuthentication CustomPrincipal)) :=
  if map.containsKey Claim.username then do
    let username ← (map.get Claim.username).text
    let email ← (map.get email).text
    let authorities ← conv.getAuthorities S map
    return some
      (S.usernamePasswordAuthenticationToken ⟨username, email⟩ (some "N/A") authorities)
  else return none

end CustomUserAuthenticationConverter

end ResourceServer
