import SecurityOAuth2Jwt.ResourceServer.Proofs.RequestProofs

/-!
# Proofs: requests that end in an exception

The converter casts and dereferences the claims of a token without a check, and its exceptions pass
the filter, which handles the exceptions of the protocol only. A signed token therefore ends a
request with an exception exactly when its claims have classes that the converter cannot read, or
when it is a client's token with the authority of a user.
-/

namespace ResourceServer

open Java Spring

/-! ## The exceptions of the converter -/

/-- The classes of the exceptions that the virtual machine and the assertions of Spring raise. -/
def runtimeExceptions : List ExceptionClass :=
  [.nullPointer, .classCast, .arrayStore, .illegalArgument]

def IsRuntime (e : JavaException) : Prop := e.cls ∈ runtimeExceptions

theorem IsRuntime.not_oauth2 {e : JavaException} (h : IsRuntime e) : e.cls ∉ oauth2Exceptions := by
  have hall : ∀ cls ∈ runtimeExceptions, cls ∉ oauth2Exceptions := by decide
  exact hall e.cls h

theorem errorsIn_ofClass {α : Type} {cls : ExceptionClass} (h : cls ∈ runtimeExceptions) :
    Outcome.ErrorsIn IsRuntime (.error (.ofClass cls) : Result α) :=
  Outcome.errorsIn_error_iff.mpr h

theorem errorsIn_nullPointer {α : Type} :
    Outcome.ErrorsIn IsRuntime (.error (.ofClass .nullPointer) : Result α) :=
  errorsIn_ofClass (by simp [runtimeExceptions])

theorem errorsIn_classCast {α : Type} :
    Outcome.ErrorsIn IsRuntime (.error (.ofClass .classCast) : Result α) :=
  errorsIn_ofClass (by simp [runtimeExceptions])

variable {S : SpringSecurity}

theorem errorsIn_castString (v : JavaValue) : Outcome.ErrorsIn IsRuntime v.castString := by
  cases v with
  | null => exact Outcome.errorsIn_ok _
  | str s => exact Outcome.errorsIn_ok _
  | long n => exact errorsIn_classCast
  | coll xs => exact errorsIn_classCast
  | obj id text => exact errorsIn_classCast

theorem errorsIn_castLong (v : JavaValue) : Outcome.ErrorsIn IsRuntime v.castLong := by
  cases v with
  | null => exact errorsIn_nullPointer
  | str s => exact errorsIn_classCast
  | long n => exact Outcome.errorsIn_ok _
  | coll xs => exact errorsIn_classCast
  | obj id text => exact errorsIn_classCast

theorem errorsIn_text (v : JavaValue) : Outcome.ErrorsIn IsRuntime v.text := by
  cases v with
  | null => exact errorsIn_nullPointer
  | str s => exact Outcome.errorsIn_ok _
  | long n => exact Outcome.errorsIn_ok _
  | coll xs => exact Outcome.errorsIn_ok _
  | obj id text => exact Outcome.errorsIn_ok _

theorem errorsIn_toStringArray (xs : List Elem) :
    Outcome.ErrorsIn IsRuntime (toStringArray xs) := by
  induction xs with
  | nil => exact Outcome.errorsIn_ok _
  | cons x xs ih =>
    cases x with
    | null => exact Outcome.errorsIn_bind_iff.mpr ⟨ih, fun _ _ => Outcome.errorsIn_ok _⟩
    | str s => exact Outcome.errorsIn_bind_iff.mpr ⟨ih, fun _ _ => Outcome.errorsIn_ok _⟩
    | obj id text => exact errorsIn_ofClass (by simp [runtimeExceptions])

/-- An authority list that cannot be created ends in an assertion. -/
theorem errorsIn_createAuthorityList (hS : S.Documented) (rs : List (Option String)) :
    Outcome.ErrorsIn IsRuntime (S.createAuthorityList rs) := by
  intro e he
  by_cases htext : ∀ r ∈ rs, TextPresent r
  · obtain ⟨ss, rfl, hss⟩ := exists_map_some_of_textPresent htext
    rw [hS.createAuthorityList_text ss hss] at he
    cases he
  · push Not at htext
    obtain ⟨e', he', hcls⟩ := hS.createAuthorityList_no_text rs htext
    rw [he] at he'
    cases he'
    unfold IsRuntime
    rw [hcls]
    decide

theorem errorsIn_map {α β : Type} {x : Result α} {f : α → β} (h : Outcome.ErrorsIn IsRuntime x) :
    Outcome.ErrorsIn IsRuntime (f <$> x) := by
  cases x with
  | ok a => exact Outcome.errorsIn_ok _
  | error e => exact Outcome.errorsIn_error_iff.mpr (Outcome.errorsIn_error_iff.mp h)

namespace CustomUserAuthenticationConverter

theorem errorsIn_getAuthorities (hS : S.Documented) (conv : CustomUserAuthenticationConverter)
    (m : ClaimsMap) : Outcome.ErrorsIn IsRuntime (conv.getAuthorities S m) := by
  have hillegal : ∀ message, IsRuntime ⟨.illegalArgument, message⟩ := by
    intro message
    show ExceptionClass.illegalArgument ∈ runtimeExceptions
    decide
  unfold getAuthorities
  split_ifs
  · cases m.get Claim.authorities with
    | str text =>
      refine errorsIn_map ?_
      rw [hS.commaSeparated]
      exact errorsIn_createAuthorityList hS _
    | coll elems =>
      refine errorsIn_map ?_
      rw [hS.commaSeparated]
      exact errorsIn_createAuthorityList hS _
    | null => exact Outcome.errorsIn_error_iff.mpr (hillegal _)
    | long n => exact Outcome.errorsIn_error_iff.mpr (hillegal _)
    | obj id text => exact Outcome.errorsIn_error_iff.mpr (hillegal _)
  · exact Outcome.errorsIn_ok _

theorem errorsIn_extractAuthentication (hS : S.Documented)
    (conv : CustomUserAuthenticationConverter) (m : ClaimsMap) :
    Outcome.ErrorsIn IsRuntime (conv.extractAuthentication S m) := by
  unfold extractAuthentication
  split_ifs
  · refine Outcome.errorsIn_bind_iff.mpr ⟨errorsIn_text _, fun username _ => ?_⟩
    refine Outcome.errorsIn_bind_iff.mpr ⟨errorsIn_text _, fun mail _ => ?_⟩
    exact Outcome.errorsIn_bind_iff.mpr
      ⟨errorsIn_getAuthorities hS conv m, fun _ _ => Outcome.errorsIn_ok _⟩
  · exact Outcome.errorsIn_ok _

end CustomUserAuthenticationConverter

namespace CustomAccessTokenConverter

variable {conv : CustomAccessTokenConverter}

theorem errorsIn_extractScope (m : ClaimsMap) : Outcome.ErrorsIn IsRuntime (extractScope m) := by
  unfold extractScope
  split_ifs
  · cases m.get Claim.scope with
    | null => exact errorsIn_nullPointer
    | str s => exact Outcome.errorsIn_ok _
    | long n => exact Outcome.errorsIn_ok _
    | coll xs => exact Outcome.errorsIn_ok _
    | obj id text => exact Outcome.errorsIn_ok _
  · exact Outcome.errorsIn_ok _

theorem errorsIn_extractAccessToken (value : String) (m : ClaimsMap) :
    Outcome.ErrorsIn IsRuntime (extractAccessToken value m) := by
  refine Outcome.errorsIn_bind_iff.mpr ⟨?_, fun expiration _ => ?_⟩
  · unfold extractExpiration
    split_ifs
    · exact Outcome.errorsIn_bind_iff.mpr
        ⟨errorsIn_castLong _, fun _ _ => Outcome.errorsIn_ok _⟩
    · exact Outcome.errorsIn_ok _
  · exact Outcome.errorsIn_bind_iff.mpr
      ⟨errorsIn_extractScope m, fun _ _ => Outcome.errorsIn_ok _⟩

theorem errorsIn_extractParameters (clientId : Option String) (m : ClaimsMap) :
    Outcome.ErrorsIn IsRuntime (conv.extractParameters clientId m) := by
  unfold extractParameters
  split_ifs
  · exact Outcome.errorsIn_bind_iff.mpr
      ⟨errorsIn_castString _, fun _ _ => Outcome.errorsIn_ok _⟩
  · exact Outcome.errorsIn_ok _

theorem errorsIn_getAudience (m : ClaimsMap) : Outcome.ErrorsIn IsRuntime (getAudience m) := by
  unfold getAudience
  cases m.get Claim.aud with
  | coll auds => exact Outcome.errorsIn_ok _
  | null => exact Outcome.errorsIn_ok _
  | str aud => exact Outcome.errorsIn_ok _
  | long n => exact errorsIn_classCast
  | obj id text => exact errorsIn_classCast

theorem errorsIn_extractResourceIds (m : ClaimsMap) :
    Outcome.ErrorsIn IsRuntime (extractResourceIds m) := by
  unfold extractResourceIds
  split_ifs
  · exact errorsIn_map (errorsIn_getAudience m)
  · exact Outcome.errorsIn_ok _

theorem errorsIn_extractClientAuthorities (hS : S.Documented)
    (user : Option (UserAuthentication CustomPrincipal)) (m : ClaimsMap) :
    Outcome.ErrorsIn IsRuntime (extractClientAuthorities S user m) := by
  unfold extractClientAuthorities
  split_ifs
  · cases m.get Claim.authorities with
    | coll elems =>
      exact Outcome.errorsIn_bind_iff.mpr ⟨errorsIn_toStringArray elems, fun roles _ =>
        errorsIn_map (errorsIn_createAuthorityList hS roles)⟩
    | null => exact errorsIn_nullPointer
    | str s => exact errorsIn_classCast
    | long n => exact errorsIn_classCast
    | obj id text => exact errorsIn_classCast
  · exact Outcome.errorsIn_ok _

theorem errorsIn_extractAuthentication (hS : S.Documented) (m : ClaimsMap) :
    Outcome.ErrorsIn IsRuntime (conv.extractAuthentication S m) := by
  refine Outcome.errorsIn_bind_iff.mpr ⟨errorsIn_extractScope m, fun scope _ => ?_⟩
  refine Outcome.errorsIn_bind_iff.mpr
    ⟨CustomUserAuthenticationConverter.errorsIn_extractAuthentication hS _ m, fun user _ => ?_⟩
  refine Outcome.errorsIn_bind_iff.mpr ⟨errorsIn_castString _, fun clientId _ => ?_⟩
  refine Outcome.errorsIn_bind_iff.mpr ⟨errorsIn_extractParameters clientId m, fun _ _ => ?_⟩
  refine Outcome.errorsIn_bind_iff.mpr ⟨errorsIn_extractResourceIds m, fun _ _ => ?_⟩
  exact Outcome.errorsIn_bind_iff.mpr
    ⟨errorsIn_extractClientAuthorities hS user m, fun _ _ => Outcome.errorsIn_ok _⟩

theorem neverOAuth2 (hS : S.Documented) : (conv.toAccessTokenConverter S).NeverOAuth2 where
  token value m e he := (errorsIn_extractAccessToken value m e he).not_oauth2
  authentication m e he := (errorsIn_extractAuthentication hS m e he).not_oauth2

end CustomAccessTokenConverter

/-! ## What can be read from the claims -/

namespace CustomAccessTokenConverter

variable {conv : CustomAccessTokenConverter} {m : ClaimsMap}

/-- The claims of which a token is made have classes that the converter can read. -/
structure TokenReadable (m : ClaimsMap) : Prop where
  exp : ExpReadable m
  scope : m.find? Claim.scope ≠ some .null

/-- A collection of strings with text, as the authorities of a client. -/
def ClientAuthorities (m : ClaimsMap) (names : List String) : Prop :=
  m.find? Claim.authorities = some (.coll (names.map Elem.str)) ∧ ∀ s ∈ names, HasText s

/-- The claims of which an authentication is made can be read: those of the user if there is one,
the authorities of the client otherwise, and the rest. -/
structure AuthenticationReadable (conv : CustomAccessTokenConverter) (m : ClaimsMap) : Prop where
  rest : RestReadable conv m
  user : m.containsKey Claim.username = true → m.get Claim.username ≠ .null ∧
    m.get email ≠ .null ∧
    ∃ as, CustomUserAuthenticationConverter.ReadAuthorities conv.userTokenConverter m as
  client : m.find? Claim.username = none →
    m.find? Claim.authorities = none ∨ ∃ names, ClientAuthorities m names

theorem extractAuthentication_returns_user_iff (hS : S.Documented)
    (hkey : m.containsKey Claim.username = true) :
    (∃ user, conv.userTokenConverter.extractAuthentication S m = .ok (some user)) ↔
      m.get Claim.username ≠ .null ∧ m.get email ≠ .null ∧
        ∃ as, CustomUserAuthenticationConverter.ReadAuthorities conv.userTokenConverter m as := by
  simp only [CustomUserAuthenticationConverter.extractAuthentication_ok_some_iff hS,
    ← CustomUserAuthenticationConverter.getAuthorities_ok_iff hS]
  constructor
  · rintro ⟨user, -, username, mail, as, hu, he, has, -⟩
    refine ⟨?_, ?_, as.getD [], as, has, rfl⟩
    · intro hnull
      rw [hnull] at hu
      cases hu
    · intro hnull
      rw [hnull] at he
      cases he
  · rintro ⟨hu, he, -, as, has, -⟩
    obtain ⟨username, hu⟩ := JavaValue.text_of_ne_null hu
    obtain ⟨mail, he⟩ := JavaValue.text_of_ne_null he
    exact ⟨_, hkey, username, mail, as, hu, he, has, rfl⟩

theorem authenticationReadable_iff (hS : S.Documented) :
    (∃ a, conv.extractAuthentication S m = .ok a) ↔ AuthenticationReadable conv m := by
  cases husername : m.find? Claim.username with
  | none =>
    have hkey : m.containsKey Claim.username = false := JavaMap.containsKey_eq_false.mpr husername
    have hnoUser : conv.userTokenConverter.extractAuthentication S m = .ok none :=
      CustomUserAuthenticationConverter.extractAuthentication_of_none husername
    constructor
    · rintro ⟨a, ha⟩
      obtain ⟨hextract, l, hl, -⟩ := parts_of_extracted hS ha
      have hrest := (extractAuthentication_returns_iff hextract hl).mp ⟨a, ha⟩
      rw [← Except.ok.inj (hnoUser.symm.trans hextract)] at hl
      refine ⟨hrest, fun htrue => ?_, fun _ => ?_⟩
      · rw [hkey] at htrue
        cases htrue
      · rcases (extractClientAuthorities_ok_iff hS).mp hl with ⟨hnone, -⟩ | ⟨ss, hss, htext, -⟩
        · exact Or.inl hnone
        · exact Or.inr ⟨ss, hss, htext⟩
    · rintro ⟨hrest, -, hclient⟩
      rcases hclient husername with hnone | ⟨ss, hss, htext⟩
      · have hl := (extractClientAuthorities_ok_iff hS).mpr (Or.inl ⟨hnone, rfl⟩)
        exact (extractAuthentication_returns_iff hnoUser hl).mpr hrest
      · have hl := (extractClientAuthorities_ok_iff hS).mpr (Or.inr ⟨ss, hss, htext, rfl⟩)
        exact (extractAuthentication_returns_iff hnoUser hl).mpr hrest
  | some v =>
    have hkey : m.containsKey Claim.username = true :=
      JavaMap.containsKey_eq_true.mpr ⟨v, husername⟩
    constructor
    · rintro ⟨a, ha⟩
      obtain ⟨hextract, l, hl, -⟩ := parts_of_extracted hS ha
      have hrest := (extractAuthentication_returns_iff hextract hl).mp ⟨a, ha⟩
      cases huser : a.userAuthentication with
      | none =>
        rw [huser] at hextract
        have hnone :=
          CustomUserAuthenticationConverter.extractAuthentication_ok_none_iff.mp hextract
        rw [hkey] at hnone
        cases hnone
      | some user =>
        rw [huser] at hextract
        refine ⟨hrest, fun _ =>
          (extractAuthentication_returns_user_iff hS hkey).mp ⟨user, hextract⟩, fun hnone => ?_⟩
        rw [husername] at hnone
        cases hnone
    · rintro ⟨hrest, huser, -⟩
      obtain ⟨user, hextract⟩ := (extractAuthentication_returns_user_iff hS hkey).mpr (huser hkey)
      exact (extractAuthentication_returns_iff hextract rfl).mpr hrest

/-- The authorities of a client are the names of its claim. -/
theorem mem_getAuthorities_of_client_iff (hS : S.Documented)
    {a : OAuth2Authentication CustomPrincipal} (ha : conv.extractAuthentication S m = .ok a)
    (hclient : a.userAuthentication = none) {role : String} :
    ⟨role⟩ ∈ a.getAuthorities ↔ ∃ names, ClientAuthorities m names ∧ role ∈ names := by
  obtain ⟨-, l, hl, hrequest⟩ := parts_of_extracted hS ha
  have hmem : ⟨role⟩ ∈ a.getAuthorities ↔ ⟨role⟩ ∈ l.getD [] := by
    simp only [OAuth2Authentication.getAuthorities, hclient, hrequest, Option.getD_some]
    exact LinkedHashSet.mem_ofList
  rw [hmem]
  rw [hclient] at hl
  rcases (extractClientAuthorities_ok_iff hS).mp hl with ⟨hnone, rfl⟩ | ⟨ss, hss, htext, rfl⟩
  · refine iff_of_false List.not_mem_nil ?_
    rintro ⟨names, ⟨hnames, -⟩, -⟩
    rw [hnone] at hnames
    cases hnames
  · constructor
    · intro h
      exact ⟨ss, ⟨hss, htext⟩, by simpa using h⟩
    · rintro ⟨names, ⟨hnames, -⟩, hrole⟩
      rw [names_eq_of_find? hss hnames]
      simpa using hrole

end CustomAccessTokenConverter

/-! ## The handlers -/

namespace ResourceController

variable {authentication : OAuth2Authentication CustomPrincipal} {endpoint : Endpoint}

theorem errorsIn_describe (principal : Option CustomPrincipal) :
    Outcome.ErrorsIn IsRuntime (describe principal) := by
  cases principal with
  | none => exact errorsIn_nullPointer
  | some principal => exact Outcome.errorsIn_ok _

theorem errorsIn_context : Outcome.ErrorsIn IsRuntime (context authentication) := by
  refine Outcome.errorsIn_bind_iff.mpr ⟨?_, fun principal _ => errorsIn_describe principal⟩
  cases authentication.getPrincipal with
  | user principal => exact Outcome.errorsIn_ok _
  | client clientId =>
    cases clientId with
    | none => exact Outcome.errorsIn_ok _
    | some id => exact errorsIn_classCast

theorem errorsIn_secured (principal : Option CustomPrincipal) :
    Outcome.ErrorsIn IsRuntime (secured principal) :=
  Outcome.errorsIn_bind_iff.mpr ⟨errorsIn_describe principal, fun _ _ => Outcome.errorsIn_ok _⟩

/-- An exception of a handler is one of the handler itself, behind the check. -/
theorem preAuthorize_failed {roles : List String} {handler : Result String} {e : JavaException}
    (h : preAuthorize authentication roles handler = .failed e) : handler = .error e := by
  unfold preAuthorize at h
  split_ifs at h
  cases handler with
  | ok text => cases h
  | error e' =>
    cases h
    rfl

theorem isRuntime_of_get_failed {e : JavaException} (h : get authentication endpoint = .failed e) :
    IsRuntime e := by
  cases endpoint with
  | admins => exact errorsIn_context e (preAuthorize_failed h)
  | users => exact errorsIn_secured _ e (preAuthorize_failed h)
  | common => cases h

/-- A handler ends in an exception exactly for a client with an authority that it requires. -/
theorem get_failed_iff :
    (∃ e, get authentication endpoint = .failed e) ↔
      authentication.userAuthentication = none ∧
        ∃ role ∈ requiredRoles endpoint, ⟨role⟩ ∈ authentication.getAuthorities := by
  constructor
  · rintro ⟨e, he⟩
    have hpass : ∃ role ∈ requiredRoles endpoint, ⟨role⟩ ∈ authentication.getAuthorities := by
      by_contra hnone
      push Not at hnone
      cases endpoint with
      | admins =>
        rw [show get authentication .admins = .denied from preAuthorize_denied hnone] at he
        cases he
      | users =>
        rw [show get authentication .users = .denied from preAuthorize_denied hnone] at he
        cases he
      | common => cases he
    refine ⟨?_, hpass⟩
    cases huser : authentication.userAuthentication with
    | none => rfl
    | some user =>
      obtain ⟨hcontext, hsecured⟩ := handlers_of_user huser
      cases endpoint with
      | admins =>
        have herror := preAuthorize_failed he
        rw [hcontext] at herror
        cases herror
      | users =>
        have herror := preAuthorize_failed he
        rw [hsecured] at herror
        cases herror
      | common => cases he
  · rintro ⟨hclient, role, hrole, hmem⟩
    obtain ⟨⟨e₁, hcontext⟩, e₂, hsecured⟩ := handlers_of_client hclient
    cases endpoint with
    | admins =>
      refine ⟨e₁, (preAuthorize_passed hrole hmem).trans ?_⟩
      rw [hcontext]
      rfl
    | users =>
      refine ⟨e₂, (preAuthorize_passed hrole hmem).trans ?_⟩
      rw [hsecured]
      rfl
    | common => cases hrole

end ResourceController

/-! ## The reply to a request -/

/-- The claims are those of an access token that is not expired at the time `now`. -/
structure Live (now : Int64) (m : ClaimsMap) : Prop where
  access : m.find? Claim.ati = none
  current : m.find? Claim.exp = none ∨ ∃ e, m.find? Claim.exp = some (.long e) ∧ now ≤ e * 1000

theorem acceptable_iff {resourceId : String} {now : Int64} {m : ClaimsMap} :
    Acceptable resourceId now m ↔ Live now m ∧ AudienceFor resourceId m := by
  constructor
  · rintro ⟨haccess, hcurrent, haudience⟩
    exact ⟨⟨haccess, hcurrent⟩, haudience⟩
  · rintro ⟨⟨haccess, hcurrent⟩, haudience⟩
    exact ⟨haccess, hcurrent, haudience⟩

namespace ResourceServerConfiguration

open CustomAccessTokenConverter ResourceController

section Documented

variable {R : ResourceServerConfiguration} (hR : R.Documented) {decode : String → Option ClaimsMap}
  {now : Int64} {value : String} {endpoint : Endpoint}

include hR

/-- The token services throw exactly when the claims of a token, or those of the authentication in a
live token, cannot be read. -/
theorem authenticate_failed_iff :
    (∃ e, R.manager.authenticate (R.tokenConverter.toAccessTokenConverter R.spring) resourceId
        decode now value = .failed e) ↔
      ∃ m, decode value = some m ∧ (¬ TokenReadable m ∨
        TokenReadable m ∧ Live now m ∧ ¬ AuthenticationReadable R.tokenConverter m) := by
  simp only [hR.manager.failed_iff (neverOAuth2 hR.spring)]
  constructor
  · rintro ⟨e, m, hm, htoken | ⟨token, htoken, hkind, hexpired, ha⟩⟩
    · refine ⟨m, hm, Or.inl fun hread => ?_⟩
      obtain ⟨token, hok⟩ := (@extractAccessToken_returns_iff m value).mpr ⟨hread.exp, hread.scope⟩
      rw [show extractAccessToken value m = .error e from htoken] at hok
      cases hok
    · obtain ⟨hexp, hscope⟩ := (@extractAccessToken_returns_iff m value).mp ⟨token, htoken⟩
      rw [isRefreshToken_iff htoken, Bool.not_eq_true] at hkind
      refine ⟨m, hm, Or.inr ⟨⟨hexp, hscope⟩, ⟨JavaMap.containsKey_eq_false.mp hkind,
        (isExpired_eq_false_iff htoken).mp hexpired⟩, fun hread => ?_⟩⟩
      obtain ⟨a, hok⟩ := (authenticationReadable_iff hR.spring).mpr hread
      rw [show R.tokenConverter.extractAuthentication R.spring m = .error e from ha] at hok
      cases hok
  · rintro ⟨m, hm, hunread | ⟨hread, hlive, hunread⟩⟩
    · have hnot : ¬ ∃ token, extractAccessToken value m = .ok token := fun h =>
        have h' := extractAccessToken_returns_iff.mp h
        hunread ⟨h'.1, h'.2⟩
      obtain ⟨e, he⟩ := Outcome.error_iff_not_ok.mpr hnot
      exact ⟨e, m, hm, Or.inl he⟩
    · obtain ⟨token, htoken⟩ := (@extractAccessToken_returns_iff m value).mpr
        ⟨hread.exp, hread.scope⟩
      have hnot : ¬ ∃ a, R.tokenConverter.extractAuthentication R.spring m = .ok a := fun h =>
        hunread ((authenticationReadable_iff hR.spring).mp h)
      obtain ⟨e, he⟩ := Outcome.error_iff_not_ok.mpr hnot
      refine ⟨e, m, hm, Or.inr ⟨token, htoken, ?_, (isExpired_eq_false_iff htoken).mpr
        hlive.current, he⟩⟩
      rw [isRefreshToken_iff htoken, Bool.not_eq_true]
      exact JavaMap.containsKey_eq_false.mpr hlive.access

theorem isRuntime_of_authenticate_failed {e : JavaException}
    (h : R.manager.authenticate (R.tokenConverter.toAccessTokenConverter R.spring) resourceId
      decode now value = .failed e) : IsRuntime e := by
  obtain ⟨m, -, htoken | ⟨token, -, -, -, ha⟩⟩ :=
    (hR.manager.failed_iff (neverOAuth2 hR.spring)).mp h
  · exact errorsIn_extractAccessToken value m e htoken
  · exact errorsIn_extractAuthentication hR.spring m e ha

/-- A request ends in an exception exactly when the claims of its token cannot be read, or when it
is the token of a client with an authority that the handler requires; and the exception is one of
the virtual machine or of an assertion. -/
theorem request_failed_iff :
    ((∃ e, R.request decode now (some value) endpoint = .answered (.failed e)) ↔
      ∃ m, decode value = some m ∧ (¬ TokenReadable m ∨
        (TokenReadable m ∧ Live now m ∧ ¬ AuthenticationReadable R.tokenConverter m) ∨
        (Acceptable resourceId now m ∧ AuthenticationReadable R.tokenConverter m ∧
          m.containsKey Claim.username = false ∧
          ∃ role ∈ requiredRoles endpoint, ∃ names, ClientAuthorities m names ∧ role ∈ names))) ∧
    ∀ e, R.request decode now (some value) endpoint = .answered (.failed e) → IsRuntime e := by
  have hfailed := @authenticate_failed_iff R hR decode now value
  have haccepted := @authenticated_iff R hR decode now value
  have hruntime := @isRuntime_of_authenticate_failed R hR decode now value
  unfold request
  simp only
  cases hresult : R.manager.authenticate (R.tokenConverter.toAccessTokenConverter R.spring)
      resourceId decode now value with
  | failed e =>
    obtain ⟨m, hm, hunread⟩ := hfailed.mp ⟨e, hresult⟩
    refine ⟨iff_of_true ⟨e, rfl⟩ ⟨m, hm, hunread.imp_right Or.inl⟩, fun e' he' => ?_⟩
    cases he'
    exact hruntime hresult
  | refused =>
    refine ⟨iff_of_false (by simp) ?_, by simp⟩
    rintro ⟨m, hm, hunread | hunread | ⟨hacceptable, hread, -⟩⟩
    · obtain ⟨e, he⟩ := hfailed.mpr ⟨m, hm, Or.inl hunread⟩
      rw [hresult] at he
      cases he
    · obtain ⟨e, he⟩ := hfailed.mpr ⟨m, hm, Or.inr hunread⟩
      rw [hresult] at he
      cases he
    · obtain ⟨a, ha⟩ := (authenticationReadable_iff hR.spring).mpr hread
      rw [haccepted.mpr ⟨m, hm, hacceptable, ha⟩] at hresult
      cases hresult
  | authenticated a =>
    obtain ⟨m, hm, hacceptable, ha⟩ := haccepted.mp hresult
    have hnoUser : m.containsKey Claim.username = false ↔ a.userAuthentication = none := by
      rw [← CustomUserAuthenticationConverter.extractAuthentication_ok_none_iff,
        (parts_of_extracted hR.spring ha).1, Except.ok.injEq]
    have hget : (∃ e, Reply.answered (ResourceController.get a endpoint) = .answered (.failed e)) ↔
        ∃ e, ResourceController.get a endpoint = .failed e := by
      simp
    refine ⟨?_, fun e he => isRuntime_of_get_failed (Reply.answered.inj he)⟩
    rw [hget, get_failed_iff, ← hnoUser]
    constructor
    · rintro ⟨hclient, role, hrole, hmem⟩
      obtain ⟨names, hnames, hname⟩ :=
        (mem_getAuthorities_of_client_iff hR.spring ha (hnoUser.mp hclient)).mp hmem
      exact ⟨m, hm, Or.inr (Or.inr ⟨hacceptable, (authenticationReadable_iff hR.spring).mp ⟨a, ha⟩,
        hclient, role, hrole, names, hnames, hname⟩)⟩
    · rintro ⟨m', hm', hunread | hunread | ⟨-, -, hclient, role, hrole, names, hnames, hname⟩⟩
      · obtain ⟨e, he⟩ := hfailed.mpr ⟨m', hm', Or.inl hunread⟩
        rw [hresult] at he
        cases he
      · obtain ⟨e, he⟩ := hfailed.mpr ⟨m', hm', Or.inr hunread⟩
        rw [hresult] at he
        cases he
      · rw [hm] at hm'
        cases hm'
        exact ⟨hclient, role, hrole,
          (mem_getAuthorities_of_client_iff hR.spring ha (hnoUser.mp hclient)).mpr
            ⟨names, hnames, hname⟩⟩

/-- Claims that can be read, but are not those of a live access token for the resource, are
refused. -/
theorem refused_of_claims (h : ∀ m, decode value = some m → TokenReadable m ∧ (Live now m →
      AuthenticationReadable R.tokenConverter m ∧ ¬ AudienceFor resourceId m)) :
    R.request decode now (some value) endpoint = .refused := by
  have hfailed := @authenticate_failed_iff R hR decode now value
  have haccepted := @authenticated_iff R hR decode now value
  unfold request
  simp only
  cases hresult : R.manager.authenticate (R.tokenConverter.toAccessTokenConverter R.spring)
      resourceId decode now value with
  | refused => rfl
  | failed e =>
    obtain ⟨m, hm, hunread | ⟨-, hlive, hunread⟩⟩ := hfailed.mp ⟨e, hresult⟩
    · exact absurd (h m hm).1 hunread
    · exact absurd ((h m hm).2 hlive).1 hunread
  | authenticated a =>
    obtain ⟨m, hm, hacceptable, -⟩ := haccepted.mp hresult
    obtain ⟨hlive, haudience⟩ := acceptable_iff.mp hacceptable
    exact absurd haudience ((h m hm).2 hlive).2

/-- The filter refuses a token exactly when its signature is wrong, when it is no live access token,
or when it is meant for another resource; the last two only if the claims can be read so far. -/
theorem request_refused_iff :
    R.request decode now (some value) endpoint = .refused ↔
      ∀ m, decode value = some m → TokenReadable m ∧ (Live now m →
        AuthenticationReadable R.tokenConverter m ∧ ¬ AudienceFor resourceId m) := by
  refine ⟨fun hrefused m hm => ?_, refused_of_claims hR⟩
  have hfailed := @authenticate_failed_iff R hR decode now value
  have haccepted := @authenticated_iff R hR decode now value
  unfold request at hrefused
  simp only at hrefused
  cases hresult : R.manager.authenticate (R.tokenConverter.toAccessTokenConverter R.spring)
      resourceId decode now value with
  | refused =>
    have hnotFailed : ¬ (¬ TokenReadable m ∨
        TokenReadable m ∧ Live now m ∧ ¬ AuthenticationReadable R.tokenConverter m) := by
      intro hunread
      obtain ⟨e, he⟩ := hfailed.mpr ⟨m, hm, hunread⟩
      rw [hresult] at he
      cases he
    obtain ⟨hread, hrest⟩ := not_or.mp hnotFailed
    rw [not_not] at hread
    refine ⟨hread, fun hlive => ?_⟩
    have hreadable : AuthenticationReadable R.tokenConverter m := by
      by_contra hunread
      exact hrest ⟨hread, hlive, hunread⟩
    refine ⟨hreadable, fun haudience => ?_⟩
    obtain ⟨a, ha⟩ := (authenticationReadable_iff hR.spring).mpr hreadable
    rw [haccepted.mpr ⟨m, hm, acceptable_iff.mpr ⟨hlive, haudience⟩, ha⟩] at hresult
    cases hresult
  | failed e =>
    rw [hresult] at hrefused
    cases hrefused
  | authenticated a =>
    rw [hresult] at hrefused
    cases hrefused

/-- The public handler answers without a token, but not with one that is not acceptable or that
cannot be read. -/
theorem request_common_answered_iff {bearer : Option String} :
    R.request decode now bearer .common = .answered (.body "ResourceController.common") ↔
      ∀ token, bearer = some token → ∃ m, decode token = some m ∧
        Acceptable resourceId now m ∧ AuthenticationReadable R.tokenConverter m := by
  cases bearer with
  | none => exact iff_of_true rfl (by simp)
  | some token =>
    have haccepted := @authenticated_iff R hR decode now token
    unfold request
    simp only [Option.some.injEq, forall_eq']
    cases hresult : R.manager.authenticate (R.tokenConverter.toAccessTokenConverter R.spring)
        resourceId decode now token with
    | authenticated a =>
      obtain ⟨m, hm, hacceptable, ha⟩ := haccepted.mp hresult
      exact iff_of_true rfl
        ⟨m, hm, hacceptable, (authenticationReadable_iff hR.spring).mp ⟨a, ha⟩⟩
    | refused =>
      refine iff_of_false (by simp) ?_
      rintro ⟨m, hm, hacceptable, hread⟩
      obtain ⟨a, ha⟩ := (authenticationReadable_iff hR.spring).mpr hread
      rw [haccepted.mpr ⟨m, hm, hacceptable, ha⟩] at hresult
      cases hresult
    | failed e =>
      refine iff_of_false (by simp) ?_
      rintro ⟨m, hm, hacceptable, hread⟩
      obtain ⟨a, ha⟩ := (authenticationReadable_iff hR.spring).mpr hread
      rw [haccepted.mpr ⟨m, hm, hacceptable, ha⟩] at hresult
      cases hresult

end Documented

/-! Alice's token without an email, her refresh token, and her token at the public handler. -/

theorem request_without_email_failed :
    ∃ e, referenceServer.request (fun _ => some (aliceClaims.remove email)) 1600000000000
      (some "token") .common = .answered (.failed e) := by
  refine (request_failed_iff referenceServer_documented).1.mpr
    ⟨aliceClaims.remove email, rfl, Or.inr (Or.inl ⟨⟨Or.inr ⟨1600000000, rfl⟩, by decide⟩,
      ⟨rfl, Or.inr ⟨1600000000, rfl, by decide⟩⟩, fun hread => ?_⟩)⟩
  obtain ⟨-, hemail, -⟩ := hread.user (by decide)
  exact hemail rfl

theorem refresh_token_of_alice_refused :
    referenceServer.request (fun _ => some (aliceClaims.put Claim.ati (.str "id"))) 1600000000000
      (some "token") .common = .refused := by
  refine (request_refused_iff referenceServer_documented).mpr fun m hm => ?_
  cases hm
  refine ⟨⟨Or.inr ⟨1600000000, rfl⟩, by decide⟩, fun hlive => ?_⟩
  have haccess := hlive.access
  rw [JavaMap.find?_put, if_pos rfl] at haccess
  cases haccess

theorem common_of_alice_answered :
    referenceServer.request (fun _ => some aliceClaims) 1600000000000 (some "token") .common =
      .answered (.body "ResourceController.common") := by
  refine (request_common_answered_iff referenceServer_documented).mpr fun _ _ =>
    ⟨aliceClaims, rfl, ⟨rfl, Or.inr ⟨1600000000, rfl, by decide⟩, Or.inr (by decide)⟩,
      ⟨by decide, Or.inl rfl, ?_, Or.inr ⟨_, rfl⟩⟩, fun _ => ?_, fun hnone => ?_⟩
  · intro h
    cases h
  · exact ⟨by decide, by decide, _,
      Or.inr ⟨"role_user, role_admin", Or.inl rfl, by decide, rfl⟩⟩
  · rw [show aliceClaims.find? Claim.username = some (.str "alice") from rfl] at hnone
    cases hnone

end ResourceServerConfiguration

end ResourceServer
