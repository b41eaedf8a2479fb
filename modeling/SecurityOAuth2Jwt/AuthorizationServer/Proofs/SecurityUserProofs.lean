import SecurityOAuth2Jwt.AuthorizationServer.SecurityUser
import SecurityOAuth2Jwt.Spring.Proofs.SecurityProofs

/-!
# Proofs: the authorities and the status of a stored user

The nested loop over roles and permissions goes through the list of all titles; it ends normally
exactly when every title has text, and the set it builds holds these titles.
-/

namespace AuthorizationServer

open Java Spring

namespace SecurityUser

/-- The titles of a role and of its permissions. -/
def roleTitles (role : SecurityRole) : List (Option String) :=
  role.title :: role.permissionSet.map SecurityPermission.title

/-- The titles of the roles of a user and of their permissions. -/
def titles (u : SecurityUser) : List (Option String) := u.roleSet.flatMap roleTitles

theorem some_mem_titles {u : SecurityUser} {t : String} :
    some t ∈ u.titles ↔ ∃ role ∈ u.roleSet, role.title = some t ∨
      ∃ permission ∈ role.permissionSet, permission.title = some t := by
  unfold titles roleTitles
  rw [List.mem_flatMap]
  constructor
  · rintro ⟨role, hrole, ht⟩
    rcases List.mem_cons.mp ht with ht | ht
    · exact ⟨role, hrole, Or.inl ht.symm⟩
    · exact ⟨role, hrole, Or.inr (List.mem_map.mp ht)⟩
  · rintro ⟨role, hrole, ht | ht⟩
    · exact ⟨role, hrole, List.mem_cons.mpr (Or.inl ht.symm)⟩
    · exact ⟨role, hrole, List.mem_cons.mpr (Or.inr (List.mem_map.mpr ht))⟩

/-- A property of all titles of a user is one of the roles and of their permissions. -/
theorem forall_titles_iff {u : SecurityUser} {p : String → Prop} :
    (∀ t, some t ∈ u.titles → p t) ↔
      ∀ role ∈ u.roleSet, (∀ t, role.title = some t → p t) ∧
        ∀ permission ∈ role.permissionSet, ∀ t, permission.title = some t → p t := by
  constructor
  · intro h role hrole
    refine ⟨fun t ht => h t (some_mem_titles.mpr ⟨role, hrole, Or.inl ht⟩), ?_⟩
    intro permission hpermission t ht
    exact h t (some_mem_titles.mpr ⟨role, hrole, Or.inr ⟨permission, hpermission, ht⟩⟩)
  · intro h t ht
    obtain ⟨role, hrole, htitle | ⟨permission, hpermission, htitle⟩⟩ := some_mem_titles.mp ht
    · exact (h role hrole).1 t htitle
    · exact (h role hrole).2 permission hpermission t htitle

/-! ## The loop over the titles -/

section Authorities

variable {S : SpringSecurity}

theorem addRole_eq (set : LinkedHashSet GrantedAuthority) (role : SecurityRole) :
    addRole S set role = (roleTitles role).foldlM (addAuthority S) set := by
  unfold addRole roleTitles
  rw [List.foldlM_cons]
  congr 1
  funext set'
  rw [List.foldlM_map]

theorem getAuthorities_eq (u : SecurityUser) :
    getAuthorities S u = u.titles.foldlM (addAuthority S) ∅ := by
  have hroles : ∀ (roles : List SecurityRole) (set : LinkedHashSet GrantedAuthority),
      roles.foldlM (addRole S) set = (roles.flatMap roleTitles).foldlM (addAuthority S) set := by
    intro roles
    induction roles with
    | nil => exact fun set => rfl
    | cons role roles ih =>
      intro set
      rw [List.foldlM_cons, List.flatMap_cons, List.foldlM_append, addRole_eq]
      congr 1
      funext set'
      exact ih set'
  exact hroles u.roleSet ∅

variable (hS : S.Documented)

include hS

/-- A title is added exactly when it has text. -/
theorem addAuthority_ok_iff {set set' : LinkedHashSet GrantedAuthority} {title : Option String} :
    addAuthority S set title = .ok set' ↔
      ∃ t, title = some t ∧ HasText t ∧ set' = set.add ⟨t⟩ := by
  unfold addAuthority
  rw [Outcome.bind_eq_ok]
  constructor
  · rintro ⟨authority, ha, hset⟩
    cases hset
    by_cases htext : TextPresent title
    · cases title with
      | none => exact htext.elim
      | some t =>
        rw [hS.simple_text t htext] at ha
        cases ha
        exact ⟨t, rfl, htext, rfl⟩
    · obtain ⟨e, he, -⟩ := hS.simple_no_text title htext
      rw [he] at ha
      cases ha
  · rintro ⟨t, rfl, htext, rfl⟩
    exact ⟨⟨t⟩, hS.simple_text t htext, rfl⟩

/-- The loop ends normally exactly when all titles have text, with the titles added in order. -/
theorem foldlM_addAuthority_ok_iff {ts : List (Option String)}
    {set set' : LinkedHashSet GrantedAuthority} :
    ts.foldlM (addAuthority S) set = .ok set' ↔
      ∃ ss : List String, ts = ss.map some ∧ (∀ s ∈ ss, HasText s) ∧
        set' = set.addAll (ss.map GrantedAuthority.mk) := by
  induction ts generalizing set with
  | nil =>
    constructor
    · intro h
      cases h
      exact ⟨[], rfl, by simp, rfl⟩
    · rintro ⟨ss, hss, -, rfl⟩
      rw [List.map_eq_nil_iff.mp hss.symm]
      rfl
  | cons t ts ih =>
    rw [List.foldlM_cons, Outcome.bind_eq_ok]
    constructor
    · rintro ⟨set₁, hadd, hrest⟩
      obtain ⟨s, rfl, hs, rfl⟩ := (addAuthority_ok_iff hS).mp hadd
      obtain ⟨ss, rfl, hss, rfl⟩ := ih.mp hrest
      refine ⟨s :: ss, rfl, ?_, rfl⟩
      intro x hx
      rcases List.mem_cons.mp hx with rfl | hx
      · exact hs
      · exact hss x hx
    · rintro ⟨ss, hss, htext, rfl⟩
      cases ss with
      | nil => cases hss
      | cons s ss =>
        obtain ⟨rfl, rfl⟩ := List.cons.inj hss
        refine ⟨set.add ⟨s⟩, (addAuthority_ok_iff hS).mpr
          ⟨s, rfl, htext s (List.mem_cons_self ..), rfl⟩, ih.mpr ⟨ss, rfl, ?_, rfl⟩⟩
        exact fun x hx => htext x (List.mem_cons_of_mem s hx)

/-- The authorities of a user are the titles of the roles and of their permissions, and they exist
exactly when all of these have text. -/
theorem getAuthorities_ok_iff {u : SecurityUser} {authorities : LinkedHashSet GrantedAuthority} :
    getAuthorities S u = .ok authorities ↔
      ∃ ss : List String, u.titles = ss.map some ∧ (∀ s ∈ ss, HasText s) ∧
        authorities = LinkedHashSet.ofList (ss.map GrantedAuthority.mk) := by
  rw [getAuthorities_eq]
  exact foldlM_addAuthority_ok_iff hS

/-- The authorities of a user can be computed exactly when all titles have text. -/
theorem getAuthorities_returns_iff {u : SecurityUser} :
    (∃ authorities, getAuthorities S u = .ok authorities) ↔ ∀ t ∈ u.titles, TextPresent t := by
  constructor
  · rintro ⟨authorities, hl⟩ t ht
    obtain ⟨ss, htitles, htext, -⟩ := (getAuthorities_ok_iff hS).mp hl
    rw [htitles] at ht
    obtain ⟨s, hs, rfl⟩ := List.mem_map.mp ht
    exact htext s hs
  · intro h
    obtain ⟨ss, htitles, htext⟩ := exists_map_some_of_textPresent h
    exact ⟨_, (getAuthorities_ok_iff hS).mpr ⟨ss, htitles, htext, rfl⟩⟩

theorem mem_getAuthorities {u : SecurityUser} {authorities : LinkedHashSet GrantedAuthority}
    (h : getAuthorities S u = .ok authorities) {a : GrantedAuthority} :
    a ∈ authorities ↔ some a.getAuthority ∈ u.titles := by
  obtain ⟨ss, htitles, -, rfl⟩ := (getAuthorities_ok_iff hS).mp h
  rw [LinkedHashSet.mem_ofList, htitles, List.mem_map, List.mem_map]
  constructor
  · rintro ⟨s, hs, rfl⟩
    exact ⟨s, hs, rfl⟩
  · rintro ⟨s, hs, heq⟩
    exact ⟨s, hs, by rw [Option.some.inj heq]⟩

end Authorities

end SecurityUser

end AuthorizationServer
