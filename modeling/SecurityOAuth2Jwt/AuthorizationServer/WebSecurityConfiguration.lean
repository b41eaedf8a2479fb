import SecurityOAuth2Jwt.AuthorizationServer.SecurityUserServiceImpl

/-!
# The login through `WebSecurityConfiguration`

The configuration gives the user service and the password encoder to Spring's authentication
provider, which is a parameter.
-/

namespace AuthorizationServer

open Java Spring

/-- `PasswordEncoder.matches`, for a presented and a stored password. -/
abbrev PasswordMatcher := String → Option String → Bool

/-- `DaoAuthenticationProvider`: from a user service, a password encoder, a name and a password to
an authentication. -/
structure DaoAuthenticationProvider where
  authenticate : (String → Result SecurityUser) → PasswordMatcher → String → String →
    Result (UserAuthentication SecurityUser)

/-- The exception for a wrong password, and for an unknown user that is to be hidden. -/
def badCredentials : JavaException := ⟨.badCredentials, some "Bad credentials"⟩

structure DaoAuthenticationProvider.Documented (P : DaoAuthenticationProvider) : Prop where
  not_found : ∀ load encoder name password e, load name = .error e →
    e.cls = .usernameNotFound → P.authenticate load encoder name password = .error badCredentials
  wrapped : ∀ load encoder name password e, load name = .error e → e.cls ≠ .usernameNotFound →
    P.authenticate load encoder name password =
      .error ⟨.internalAuthenticationService, e.message⟩
  mismatch : ∀ load encoder name password u, load name = .ok u →
    encoder password u.password = false →
    P.authenticate load encoder name password = .error badCredentials

/-- When a login succeeds, and with what: the provider asks the user for its status and for its
authorities, and the password is erased. -/
structure DaoAuthenticationProvider.Succeeds (S : SpringSecurity) (P : DaoAuthenticationProvider) :
    Prop where
  only : ∀ load encoder name password a, P.authenticate load encoder name password = .ok a →
    ∃ u authorities, load name = .ok u ∧ encoder password u.password = true ∧
      u.getAuthorities S = .ok authorities ∧ a = ⟨u, none, some authorities.toList⟩
  success : ∀ load encoder name password u authorities, load name = .ok u →
    encoder password u.password = true → u.isAccountNonLocked = .ok true →
    u.isEnabled = .ok true → u.isAccountNonExpired = .ok true →
    u.isCredentialsNonExpired = .ok true → u.getAuthorities S = .ok authorities →
    P.authenticate load encoder name password = .ok ⟨u, none, some authorities.toList⟩

/-- `WebSecurityConfiguration.configure(AuthenticationManagerBuilder)`. -/
def login (P : DaoAuthenticationProvider) (C : AccountStatusUserDetailsChecker)
    (passwordEncoder : PasswordMatcher) (T : UserTable) (name password : String) :
    Result (UserAuthentication SecurityUser) :=
  P.authenticate (loadUserByUsername C T) passwordEncoder name password

end AuthorizationServer
