import SecurityOAuth2Jwt.Java.Text
import SecurityOAuth2Jwt.Java.Value

/-!
# The Spring functions both servers call

Spring is not part of the repository. Its functions are the fields of `SpringSecurity`, a parameter
of the model; `SpringSecurity.Documented` lists the documented behaviour that the theorems rely on,
and `SpringSecurity.reference` is a set of functions that behaves so. In particular the iteration
order of the set built by `authorityListToSet` is not specified, and the constructors store what
they are given only as far as is said there.
-/

namespace Spring

open Java

/-- A `GrantedAuthority`: its authority string. -/
structure GrantedAuthority where
  getAuthority : String
  deriving DecidableEq, Repr

/-- An `Authentication` of a user; `π` is the class of the principal. -/
structure UserAuthentication (π : Type) where
  principal : π
  credentials : Option String
  authorities : Option (List GrantedAuthority)
  deriving DecidableEq, Repr

/-- An optional set is a reference that may be null. -/
structure OAuth2Request where
  requestParameters : JavaMap String (Option String)
  clientId : Option String
  authorities : Option (LinkedHashSet GrantedAuthority)
  approved : Bool
  scope : LinkedHashSet Elem
  resourceIds : Option (LinkedHashSet Elem)

/-- The request holds what it was built from, whatever became of the scope; null authorities become
the empty set. -/
structure OAuth2Request.Holds (request : OAuth2Request)
    (requestParameters : JavaMap String (Option String)) (clientId : Option String)
    (authorities : Option (List GrantedAuthority)) (approved : Bool)
    (resourceIds : LinkedHashSet Elem) : Prop where
  requestParameters : request.requestParameters = requestParameters
  clientId : request.clientId = clientId
  authorities : request.authorities = some (LinkedHashSet.ofList (authorities.getD []))
  approved : request.approved = approved
  resourceIds : request.resourceIds = some resourceIds

/-- What separates the scopes in a parameter: white space or a plus sign. -/
def isScopeSeparator (c : Char) : Bool :=
  c == ' ' || (0x9 ≤ c.toNat && c.toNat ≤ 0xD) || c == '+'

/-- A request stores these scopes as they are. Of a single one it makes several, as of a parameter,
if that has a blank or a comma in it. -/
def isStoredAsGiven (scope : LinkedHashSet Elem) : Bool :=
  match scope.toList with
  | [.str s] => decide (' ' ∉ s.toList) &&
      (decide (',' ∉ s.toList) || s.toList.all fun c => !isScopeSeparator c)
  | [_] => false
  | _ => true

/-- `StringUtils.tokenizeToStringArray(s, ",")`: cut at commas, trim, drop empty tokens. -/
def tokenizeToStringArray (s : String) : List String :=
  (Pieces.tokens ',' isTrimmed s.toList).map String.ofList

/-- The Spring functions. -/
structure SpringSecurity where
  /-- `new SimpleGrantedAuthority(role)`. -/
  simpleGrantedAuthority : Option String → Result GrantedAuthority
  /-- `AuthorityUtils.createAuthorityList(roles)`. -/
  createAuthorityList : List (Option String) → Result (List GrantedAuthority)
  /-- `AuthorityUtils.commaSeparatedStringToAuthorityList(s)`. -/
  commaSeparatedStringToAuthorityList : String → Result (List GrantedAuthority)
  /-- `AuthorityUtils.authorityListToSet(authorities)`. -/
  authorityListToSet : List GrantedAuthority → LinkedHashSet String
  /-- `StringUtils.collectionToCommaDelimitedString(coll)`. -/
  collectionToCommaDelimitedString : List Elem → String
  /-- `OAuth2Request.getGrantType()`, as a function of the request parameters. -/
  getGrantType : JavaMap String (Option String) → Option String
  /-- `new UsernamePasswordAuthenticationToken(principal, credentials, authorities)`. -/
  usernamePasswordAuthenticationToken {π : Type} (principal : π) (credentials : Option String)
    (authorities : Option (List GrantedAuthority)) : UserAuthentication π
  /-- `new OAuth2Request(...)`; it is taken to return. -/
  oauth2Request (requestParameters : JavaMap String (Option String)) (clientId : Option String)
    (authorities : Option (List GrantedAuthority)) (approved : Bool) (scope : LinkedHashSet Elem)
    (resourceIds : LinkedHashSet Elem) : OAuth2Request

/-- A request that is built with this scope stores it as it is. -/
def SpringSecurity.StoresScope (S : SpringSecurity) (scope : LinkedHashSet Elem) : Prop :=
  ∀ requestParameters clientId authorities approved resourceIds,
    (S.oauth2Request requestParameters clientId authorities approved scope resourceIds).scope =
      scope

/-- The request was built with this scope. -/
def SpringSecurity.BuiltWith (S : SpringSecurity) (scope : LinkedHashSet Elem)
    (request : OAuth2Request) : Prop :=
  ∃ requestParameters clientId authorities approved resourceIds,
    request =
      S.oauth2Request requestParameters clientId authorities approved scope resourceIds

/-- The documented behaviour of the Spring functions. -/
structure SpringSecurity.Documented (S : SpringSecurity) : Prop where
  simple_text : ∀ s, HasText s → S.simpleGrantedAuthority (some s) = .ok ⟨s⟩
  simple_no_text : ∀ r, ¬ TextPresent r →
    ∃ e, S.simpleGrantedAuthority r = .error e ∧ e.cls = .illegalArgument
  createAuthorityList_text : ∀ ss : List String, (∀ s ∈ ss, HasText s) →
    S.createAuthorityList (ss.map some) = .ok (ss.map GrantedAuthority.mk)
  createAuthorityList_no_text : ∀ rs : List (Option String), (∃ r ∈ rs, ¬ TextPresent r) →
    ∃ e, S.createAuthorityList rs = .error e ∧ e.cls = .illegalArgument
  commaSeparated : ∀ s, S.commaSeparatedStringToAuthorityList s =
    S.createAuthorityList ((tokenizeToStringArray s).map some)
  mem_authorityListToSet : ∀ as x, x ∈ S.authorityListToSet as ↔ ∃ a ∈ as, a.getAuthority = x
  commaDelimited : ∀ xs, S.collectionToCommaDelimitedString xs = ",".intercalate (xs.map Elem.text)
  grantType_param : ∀ ps g, ps.find? "grant_type" = some g → S.getGrantType ps = g
  grantType_none : ∀ ps, ps.find? "grant_type" = none → ps.find? "response_type" = none →
    S.getGrantType ps = none
  /-- The token stores what it is given; null authorities become the empty list. -/
  userToken : ∀ {π : Type} (principal : π) credentials authorities,
    S.usernamePasswordAuthenticationToken principal credentials authorities =
      ⟨principal, credentials, some (authorities.getD [])⟩
  /-- A request stores what it is given, but for a scope that it parses again. -/
  request : ∀ requestParameters clientId authorities approved scope resourceIds,
    (S.oauth2Request requestParameters clientId authorities approved scope resourceIds).Holds
      requestParameters clientId authorities approved resourceIds
  scope : ∀ scope, isStoredAsGiven scope = true → S.StoresScope scope

namespace SpringSecurity

/-- A request that was built with a scope has it, if it stores it as it is. -/
theorem BuiltWith.scope_eq {S : SpringSecurity} {scope : LinkedHashSet Elem}
    {request : OAuth2Request} (h : S.BuiltWith scope request) (hstores : S.StoresScope scope) :
    request.scope = scope := by
  obtain ⟨requestParameters, clientId, authorities, approved, resourceIds, rfl⟩ := h
  exact hstores ..

/-- The message of the assertion in the constructor of `SimpleGrantedAuthority`. -/
def noTextMessage : String := "A granted authority textual representation is required"

/-- The scopes that a request makes of a single one. -/
def parseAgain (scope : LinkedHashSet Elem) : LinkedHashSet Elem :=
  match scope.toList with
  | [.str s] => LinkedHashSet.ofList
      ((s.toList.splitOnP isScopeSeparator).map fun piece => .str (String.ofList piece))
  | _ => scope

/-- Functions that behave as documented; `authorityListToSet` keeps the order of the list. -/
def reference : SpringSecurity where
  simpleGrantedAuthority
    | some s => if HasText s then .ok ⟨s⟩ else .error ⟨.illegalArgument, some noTextMessage⟩
    | none => .error ⟨.illegalArgument, some noTextMessage⟩
  createAuthorityList rs :=
    if ∀ r ∈ rs, TextPresent r then .ok (rs.map fun r => ⟨r.getD ""⟩)
    else .error ⟨.illegalArgument, some noTextMessage⟩
  commaSeparatedStringToAuthorityList s :=
    if ∀ t ∈ tokenizeToStringArray s, HasText t then
      .ok ((tokenizeToStringArray s).map GrantedAuthority.mk)
    else .error ⟨.illegalArgument, some noTextMessage⟩
  authorityListToSet as := LinkedHashSet.ofList (as.map GrantedAuthority.getAuthority)
  collectionToCommaDelimitedString xs := ",".intercalate (xs.map Elem.text)
  getGrantType ps := ((ps.find? "grant_type").getD none)
  usernamePasswordAuthenticationToken principal credentials authorities :=
    ⟨principal, credentials, some (authorities.getD [])⟩
  oauth2Request requestParameters clientId authorities approved scope resourceIds :=
    { requestParameters, clientId, approved
      scope := if isStoredAsGiven scope then scope else parseAgain scope
      authorities := some (LinkedHashSet.ofList (authorities.getD []))
      resourceIds := some resourceIds }

theorem reference_documented : reference.Documented where
  simple_text s h := by simp [reference, h]
  simple_no_text r h := by
    cases r with
    | none => exact ⟨_, rfl, rfl⟩
    | some s =>
      have hs : ¬ HasText s := h
      exact ⟨⟨.illegalArgument, some noTextMessage⟩, by simp [reference, hs], rfl⟩
  createAuthorityList_text ss h := by
    have hall : ∀ r ∈ ss.map some, TextPresent r := by
      intro r hr
      obtain ⟨s, hs, rfl⟩ := List.mem_map.mp hr
      exact h s hs
    simp only [reference, if_pos hall, List.map_map]
    rfl
  createAuthorityList_no_text rs h := by
    obtain ⟨r, hr, hn⟩ := h
    have hall : ¬ ∀ r ∈ rs, TextPresent r := fun hall => hn (hall r hr)
    exact ⟨⟨.illegalArgument, some noTextMessage⟩, by simp only [reference, if_neg hall], rfl⟩
  commaSeparated s := by
    have hiff : (∀ t ∈ tokenizeToStringArray s, HasText t) ↔
        ∀ r ∈ (tokenizeToStringArray s).map some, TextPresent r := by
      simp [TextPresent]
    by_cases h : ∀ t ∈ tokenizeToStringArray s, HasText t
    · simp only [reference, if_pos h, if_pos (hiff.mp h), List.map_map]
      rfl
    · simp only [reference, if_neg h, if_neg (mt hiff.mpr h)]
  mem_authorityListToSet as x := by simp [reference]
  commaDelimited xs := rfl
  grantType_param ps g h := by simp [reference, h]
  grantType_none ps h _ := by simp [reference, h]
  userToken principal credentials authorities := rfl
  request requestParameters clientId authorities approved scope resourceIds :=
    ⟨rfl, rfl, rfl, rfl, rfl⟩
  scope scope h requestParameters clientId authorities approved resourceIds := if_pos h

end SpringSecurity

end Spring
