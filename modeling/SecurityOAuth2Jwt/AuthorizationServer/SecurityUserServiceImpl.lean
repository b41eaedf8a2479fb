import SecurityOAuth2Jwt.AuthorizationServer.SecurityUser
import SecurityOAuth2Jwt.Spring.Authentication

/-!
# `SecurityUserServiceImpl`

The user service looks a user up in the table and checks the status of the account. Spring's status
checker is a parameter, with its documented behaviour.
-/

namespace AuthorizationServer

open Java Spring

/-- The table behind `SecurityUserRepository`; the unique constraint admits several null names. -/
structure UserTable where
  rows : List SecurityUser
  unique : (rows.filterMap SecurityUser.username).Nodup

namespace UserTable

def findByUsername (T : UserTable) (username : String) : Option SecurityUser :=
  T.rows.find? fun u => decide (u.username = some username)

end UserTable

/-- The status exceptions of Spring. -/
def statusExceptions : List ExceptionClass :=
  [.locked, .disabled, .accountExpired, .credentialsExpired]

/-- `AccountStatusUserDetailsChecker`. -/
structure AccountStatusUserDetailsChecker where
  check : SecurityUser → Result Unit

/-- The checker accepts the users whose four status methods all return true; what it throws is a
status exception or comes from one of these methods. -/
structure AccountStatusUserDetailsChecker.Documented (C : AccountStatusUserDetailsChecker) :
    Prop where
  check_ok_iff : ∀ u, C.check u = .ok () ↔ u.isAccountNonLocked = .ok true ∧
    u.isEnabled = .ok true ∧ u.isAccountNonExpired = .ok true ∧ u.isCredentialsNonExpired = .ok true
  check_error : ∀ u e, C.check u = .error e → e.cls ∈ statusExceptions ∨
    u.isAccountNonLocked = .error e ∨ u.isEnabled = .error e ∨ u.isAccountNonExpired = .error e ∨
    u.isCredentialsNonExpired = .error e

namespace AccountStatusUserDetailsChecker

/-- One status method and the exception for a negative answer. -/
def require (status : Result Bool) (cls : ExceptionClass) (message : String) : Result Unit :=
  match status with
  | .ok true => .ok ()
  | .ok false => .error ⟨cls, some message⟩
  | .error e => .error e

/-- A checker that behaves as documented. -/
def reference : AccountStatusUserDetailsChecker where
  check u := do
    require u.isAccountNonLocked .locked "User account is locked"
    require u.isEnabled .disabled "User is disabled"
    require u.isAccountNonExpired .accountExpired "User account has expired"
    require u.isCredentialsNonExpired .credentialsExpired "User credentials have expired"

theorem require_ok_iff {status : Result Bool} {cls : ExceptionClass} {message : String} :
    require status cls message = .ok () ↔ status = .ok true := by
  rcases status with e | (- | -)
  · simp [require]
  · simp [require]
  · simp [require]

theorem require_error {status : Result Bool} {cls : ExceptionClass} {message : String}
    {e : JavaException} (h : require status cls message = .error e) :
    e.cls = cls ∨ status = .error e := by
  rcases status with e' | (- | -)
  · cases h
    exact Or.inr rfl
  · cases h
    exact Or.inl rfl
  · cases h

theorem reference_documented : reference.Documented where
  check_ok_iff u := by
    simp only [reference, Outcome.bind_eq_ok]
    constructor
    · rintro ⟨_, hl, _, he, _, ha, hc⟩
      exact ⟨require_ok_iff.mp hl, require_ok_iff.mp he, require_ok_iff.mp ha,
        require_ok_iff.mp hc⟩
    · rintro ⟨hl, he, ha, hc⟩
      exact ⟨(), require_ok_iff.mpr hl, (), require_ok_iff.mpr he, (), require_ok_iff.mpr ha,
        require_ok_iff.mpr hc⟩
  check_error u e h := by
    simp only [reference] at h
    rcases Outcome.bind_eq_error h with hl | ⟨_, _, h⟩
    · rcases require_error hl with hcls | hl
      · exact Or.inl (by simp [hcls, statusExceptions])
      · exact Or.inr (Or.inl hl)
    rcases Outcome.bind_eq_error h with he | ⟨_, _, h⟩
    · rcases require_error he with hcls | he
      · exact Or.inl (by simp [hcls, statusExceptions])
      · exact Or.inr (Or.inr (Or.inl he))
    rcases Outcome.bind_eq_error h with ha | ⟨_, _, hc⟩
    · rcases require_error ha with hcls | ha
      · exact Or.inl (by simp [hcls, statusExceptions])
      · exact Or.inr (Or.inr (Or.inr (Or.inl ha)))
    · rcases require_error hc with hcls | hc
      · exact Or.inl (by simp [hcls, statusExceptions])
      · exact Or.inr (Or.inr (Or.inr (Or.inr hc)))

end AccountStatusUserDetailsChecker

/-- `SecurityUserServiceImpl.loadUserByUsername`. -/
def loadUserByUsername (C : AccountStatusUserDetailsChecker) (T : UserTable) (username : String) :
    Result SecurityUser :=
  match T.findByUsername username with
  -- not the `UsernameNotFoundException` that the signature declares
  | none => .error ⟨.badCredentials, some "Bad credentials"⟩
  | some securityUser => do
    C.check securityUser
    return securityUser

end AuthorizationServer
