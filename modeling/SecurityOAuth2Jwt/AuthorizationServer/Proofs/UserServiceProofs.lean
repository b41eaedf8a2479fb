import SecurityOAuth2Jwt.AuthorizationServer.SecurityUserServiceImpl

/-!
# Proofs: whom the user service returns

The service returns the row of the name if the account is active, and no other user.
-/

namespace AuthorizationServer

open Java Spring

/-- The account is enabled, not locked, not expired, and its credentials are not expired. -/
def SecurityUser.Active (u : SecurityUser) : Prop :=
  u.enabled = some true ∧ u.accountLocked = some false ∧ u.accountExpired = some false ∧
    u.credentialExpired = some false

instance (u : SecurityUser) : Decidable u.Active :=
  inferInstanceAs (Decidable (_ ∧ _ ∧ _ ∧ _))

theorem unbox_ok_iff {flag : Option Bool} {b : Bool} : unbox flag = .ok b ↔ flag = some b := by
  cases flag <;> simp [unbox]

theorem not_unbox_ok_iff {flag : Option Bool} :
    (do let b ← unbox flag; return !b : Result Bool) = .ok true ↔ flag = some false := by
  rcases flag with - | (- | -)
  · simp [unbox]
  · simp [unbox]
  · simp [unbox]

namespace UserTable

theorem username_of_findByUsername {T : UserTable} {name : String} {u : SecurityUser}
    (h : T.findByUsername name = some u) : u.username = some name := by
  have hname := List.find?_some h
  exact of_decide_eq_true hname

theorem mem_of_findByUsername {T : UserTable} {name : String} {u : SecurityUser}
    (h : T.findByUsername name = some u) : u ∈ T.rows :=
  List.mem_of_find?_eq_some h

/-- A row is found under its name, because names are unique. -/
theorem findByUsername_of_mem {T : UserTable} {u : SecurityUser} (hu : u ∈ T.rows) {name : String}
    (hname : u.username = some name) : T.findByUsername name = some u := by
  obtain ⟨rows, unique⟩ := T
  change u ∈ rows at hu
  unfold findByUsername
  induction rows with
  | nil => cases hu
  | cons v rows ih =>
    -- a first row with the name is `u` itself, because no later row has the name again
    by_cases hv : v.username = some name
    · have hnew : name ∉ rows.filterMap SecurityUser.username := by
        rw [List.filterMap_cons_some hv, List.nodup_cons] at unique
        exact unique.1
      have heq : u = v := by
        rcases List.mem_cons.mp hu with heq | hmem
        · exact heq
        · exact absurd (List.mem_filterMap.mpr ⟨u, hmem, hname⟩) hnew
      subst heq
      exact List.find?_cons_of_pos (decide_eq_true hname)
    · have hmem : u ∈ rows := by
        rcases List.mem_cons.mp hu with rfl | hmem
        · exact absurd hname hv
        · exact hmem
      have hrows : (rows.filterMap SecurityUser.username).Nodup := by
        cases hvname : v.username with
        | none => rwa [List.filterMap_cons_none hvname] at unique
        | some n =>
          rw [List.filterMap_cons_some hvname, List.nodup_cons] at unique
          exact unique.2
      rw [List.find?_cons_of_neg (by simpa using hv)]
      exact ih hrows hmem

theorem findByUsername_eq_none {T : UserTable} {name : String}
    (h : ∀ u ∈ T.rows, u.username ≠ some name) : T.findByUsername name = none := by
  refine List.find?_eq_none.mpr fun u hu => ?_
  rw [decide_eq_true_eq]
  exact h u hu

end UserTable

variable {C : AccountStatusUserDetailsChecker} (hC : C.Documented)

include hC

theorem check_ok_iff_active {u : SecurityUser} : C.check u = .ok () ↔ u.Active := by
  rw [hC.check_ok_iff]
  unfold SecurityUser.isAccountNonLocked SecurityUser.isEnabled SecurityUser.isAccountNonExpired
    SecurityUser.isCredentialsNonExpired SecurityUser.Active
  rw [not_unbox_ok_iff, not_unbox_ok_iff, not_unbox_ok_iff, unbox_ok_iff]
  tauto

theorem loadUserByUsername_ok_iff {T : UserTable} {username : String} {u : SecurityUser} :
    loadUserByUsername C T username = .ok u ↔ T.findByUsername username = some u ∧ u.Active := by
  unfold loadUserByUsername
  cases hfind : T.findByUsername username with
  | none => simp
  | some v =>
    rw [Outcome.bind_eq_ok]
    constructor
    · rintro ⟨_, hcheck, hreturn⟩
      cases hreturn
      exact ⟨rfl, (check_ok_iff_active hC).mp hcheck⟩
    · rintro ⟨hv, hactive⟩
      cases hv
      exact ⟨(), (check_ok_iff_active hC).mpr hactive, rfl⟩

end AuthorizationServer
