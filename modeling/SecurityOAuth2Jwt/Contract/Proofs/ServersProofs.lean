import SecurityOAuth2Jwt.Common.Attestation
import SecurityOAuth2Jwt.Contract.Proofs.TokenEndpointProofs
import SecurityOAuth2Jwt.Contract.Servers
import SecurityOAuth2Jwt.Java.Proofs.LongProofs
import SecurityOAuth2Jwt.ResourceServer.Proofs.RequestProofs

/-!
# Proofs: the servers refine an authority and a verifier

A signed token is a credential: it records the email and the titles of a row of the table, and the
resource server honours it without the table. The titles are recorded by their pieces between
commas, since that is what the resource server reads.
-/

namespace Contract

open Java Spring AuthorizationServer ResourceServer

/-! ## Credentials -/

/-- What a token says of its user. -/
structure Identity where
  email : Option String
  authorities : Set String

/-- The email of the row, and the pieces of its titles. -/
def identityOf (u : SecurityUser) : Identity where
  email := u.email
  authorities := { x | ∃ t, some t ∈ u.titles ∧ x ∈ tokenizeToStringArray t }

/-- A claim that is a string. -/
def stringClaim (m : ClaimsMap) (k : String) : Option String :=
  match m.find? k with
  | some (.str s) => some s
  | _ => none

def authoritiesOf (m : ClaimsMap) : Set String :=
  { x | ∃ names, HasAuthoritiesClaim m names ∧ x ∈ names.flatMap tokenizeToStringArray }

def deadlineOf (m : ClaimsMap) : WithTop ℤ :=
  match m.find? Claim.exp with
  | some (.long e) => ((e * 1000).toInt : ℤ)
  | _ => ⊤

def purposeOf (m : ClaimsMap) : Attestation.Purpose :=
  if m.containsKey Claim.ati = true then .renewal else .access

def credentialOf (m : ClaimsMap) : Attestation.Credential String Identity ℤ where
  holder := (stringClaim m Claim.username).getD ""
  content := ⟨stringClaim m ResourceServer.email, authoritiesOf m⟩
  deadline := deadlineOf m
  purpose := purposeOf m

theorem names_eq_of_hasAuthoritiesClaim {m : ClaimsMap} {names names' : List String}
    (h : HasAuthoritiesClaim m names) (h' : HasAuthoritiesClaim m names') : names = names' := by
  unfold HasAuthoritiesClaim at h h'
  rw [h] at h'
  by_cases hnil : names = []
  · by_cases hnil' : names' = []
    · rw [hnil, hnil']
    · rw [if_pos hnil, if_neg hnil'] at h'
      cases h'
  · by_cases hnil' : names' = []
    · rw [if_neg hnil, if_pos hnil'] at h'
      cases h'
    · rw [if_neg hnil, if_neg hnil'] at h'
      have hmap := JavaValue.coll.inj (Option.some.inj h')
      exact List.map_injective_iff.mpr (fun _ _ hstr => Elem.str.inj hstr) hmap

/-- The claims of a user say what the row says. -/
theorem credentialOf_claimsOf {u : SecurityUser} {name : String} {m : ClaimsMap}
    (h : ClaimsOf u name m) :
    credentialOf m = ⟨name, identityOf u, deadlineOf m, purposeOf m⟩ := by
  obtain ⟨husername, hemail, names, hnames, hclaim⟩ := h
  have hholder : (stringClaim m Claim.username).getD "" = name := by
    simp only [stringClaim, husername, Option.getD_some]
  have hmail : stringClaim m ResourceServer.email = u.email := by
    unfold stringClaim
    unfold ClaimsMap.get at hemail
    cases hfind : m.find? ResourceServer.email with
    | none =>
      rw [hfind] at hemail
      cases hu : u.email with
      | none => rfl
      | some mail =>
        rw [hu] at hemail
        cases hemail
    | some v =>
      rw [hfind, Option.getD_some] at hemail
      subst hemail
      cases u.email with
      | none => rfl
      | some mail => rfl
  have hauthorities : authoritiesOf m = (identityOf u).authorities := by
    ext x
    constructor
    · rintro ⟨names', hclaim', hx⟩
      rw [← names_eq_of_hasAuthoritiesClaim hclaim hclaim'] at hx
      obtain ⟨t, ht, hx⟩ := List.mem_flatMap.mp hx
      exact ⟨t, (hnames t).mp ht, hx⟩
    · rintro ⟨t, ht, hx⟩
      exact ⟨names, hclaim, List.mem_flatMap.mpr ⟨t, (hnames t).mpr ht, hx⟩⟩
  unfold credentialOf
  rw [hholder, hmail, hauthorities]
  rfl

/-- What the authorization server would say of a name now. -/
def registryOf (A : OAuth2Configuration) (users : UserTable) (name : String) : Option Identity :=
  match loadUserByUsername A.checker users name with
  | .error _ => none
  | .ok u =>
    match u.getAuthorities A.spring with
    | .error _ => none
    | .ok _ => some (identityOf u)

theorem registryOf_eq_some_iff {A : OAuth2Configuration} (hA : A.Documented) {users : UserTable}
    {name : String} {identity : Identity} :
    registryOf A users name = some identity ↔
      ∃ u authorities, users.findByUsername name = some u ∧ u.Active ∧
        u.getAuthorities A.spring = .ok authorities ∧ identity = identityOf u := by
  unfold registryOf
  constructor
  · intro h
    cases hload : loadUserByUsername A.checker users name with
    | error e =>
      rw [hload] at h
      cases h
    | ok u =>
      obtain ⟨hfound, hactive⟩ := (loadUserByUsername_ok_iff hA.checker).mp hload
      cases hl : u.getAuthorities A.spring with
      | error e =>
        simp only [hload, hl] at h
        cases h
      | ok authorities =>
        simp only [hload, hl] at h
        cases h
        exact ⟨u, authorities, hfound, hactive, hl, rfl⟩
  · rintro ⟨u, authorities, hfound, hactive, hl, rfl⟩
    have hload := (loadUserByUsername_ok_iff hA.checker).mpr ⟨hfound, hactive⟩
    simp only [hload, hl]

/-! ## Signing -/

section Signing

variable (Y : Servers)

/-- The credential of each signed value. -/
def credentials (signed : List ClaimsMap) (value : String) :
    Option (Attestation.Credential String Identity ℤ) :=
  (signed.find? fun m => decide (Y.encode m = value)).map credentialOf

def ticketOf (m : ClaimsMap) : Attestation.Ticket ℤ String :=
  ⟨Y.encode m, deadlineOf m, purposeOf m⟩

/-- Signing the claims of a user adds the credentials of these claims. -/
theorem credentials_append {u : SecurityUser} {name : String} {ms : List ClaimsMap}
    (hms : ∀ m ∈ ms, ClaimsOf u name m) (signed : List ClaimsMap) :
    credentials Y (signed ++ ms) =
      Attestation.signAll name (identityOf u) (credentials Y signed) (ms.map (ticketOf Y)) := by
  induction ms generalizing signed with
  | nil =>
    rw [List.append_nil]
    rfl
  | cons m ms ih =>
    have hm := hms m (List.mem_cons_self ..)
    have hone : credentials Y (signed ++ [m]) =
        Attestation.sign name (identityOf u) (credentials Y signed) (ticketOf Y m) := by
      funext value
      unfold credentials Attestation.sign ticketOf
      simp only [List.find?_append, List.find?_singleton]
      by_cases hvalue : value = Y.encode m
      · rw [if_pos hvalue, decide_eq_true hvalue.symm, if_pos rfl]
        cases signed.find? fun m => decide (Y.encode m = value) with
        | none => simp [credentialOf_claimsOf hm]
        | some m' => rfl
      · rw [if_neg hvalue, decide_eq_false (Ne.symm hvalue)]
        simp
    have hsplit : signed ++ m :: ms = (signed ++ [m]) ++ ms := by
      rw [List.append_assoc, List.singleton_append]
    rw [hsplit, ih (fun m' hm' => hms m' (List.mem_cons_of_mem _ hm')), hone]
    rfl

end Signing

/-! ## The invariant -/

/-- The clock does not run before the epoch, and every signed map of claims is of some user. -/
structure Inv (s : ServersState) : Prop where
  clock : 0 ≤ s.clock.toInt
  signed : ∀ m ∈ s.signed, ∃ u name, ClaimsOf u name m

section Servers

variable {Y : Servers}

/-- The clock never goes back. -/
theorem clock_le_step (s : ServersState) (e : ServersEvent) :
    s.clock.toInt ≤ (Y.machine.step s e).1.clock.toInt := by
  cases e with
  | pass time =>
    show s.clock.toInt ≤ (max s.clock time).toInt
    rw [toInt_max]
    exact le_max_left _ _
  | changeUsers users => exact le_rfl
  | changeClients clients settings => exact le_rfl
  | leaveContext context => exact le_rfl
  | requestToken ps client ids => exact le_rfl
  | requestResource bearer endpoint => exact le_rfl

/-- A step signs nothing, unless it is a token request that succeeds. -/
theorem signed_step (s : ServersState) (e : ServersEvent) :
    (Y.machine.step s e).1.signed = s.signed ∨
      ∃ ps client ids tokens, e = .requestToken ps client ids ∧
        (Y.postAccessToken s ps client ids).1 = .ok tokens ∧
        (Y.machine.step s e).1.signed = s.signed ++ Servers.signedFor (.ok tokens) := by
  cases e with
  | changeUsers users => exact Or.inl rfl
  | changeClients clients settings => exact Or.inl rfl
  | leaveContext context => exact Or.inl rfl
  | pass time => exact Or.inl rfl
  | requestResource bearer endpoint => exact Or.inl rfl
  | requestToken ps client ids =>
    have hsigned : (Y.machine.step s (.requestToken ps client ids)).1.signed =
        s.signed ++ Servers.signedFor (Y.postAccessToken s ps client ids).1 := rfl
    cases houtcome : (Y.postAccessToken s ps client ids).1 with
    | error e =>
      rw [houtcome] at hsigned
      exact Or.inl (hsigned.trans (List.append_nil _))
    | ok tokens =>
      rw [houtcome] at hsigned
      exact Or.inr ⟨ps, client, ids, tokens, rfl, houtcome, hsigned⟩

variable (hA : Y.authorizationServer.Documented) {s : ServersState}

theorem decode_eq_some {value : String} {m : ClaimsMap} (h : Y.decode s value = some m) :
    m ∈ s.signed ∧ Y.encode m = value := by
  unfold Servers.decode at h
  have hvalue := List.find?_some h
  exact ⟨List.mem_of_find?_eq_some h, of_decide_eq_true hvalue⟩

include hA

/-- In a state that satisfies the invariant every success of the token endpoint is a grant. -/
theorem Inv.granted (hs : Inv s) {ps : RequestParameters} {client : ClientDetails} {ids : TokenIds}
    {tokens : IssuedTokens} (h : (Y.postAccessToken s ps client ids).1 = .ok tokens) :
    ∃ name u row a, Granted Y.authorizationServer (Y.decode s) s.server s.settings s.clock ids ps
      client tokens name u row a := by
  refine granted_of_ok hA (fun value m hm => ?_) h
  obtain ⟨u, name, hclaims⟩ := hs.signed m (decode_eq_some hm).1
  exact ⟨name, hclaims.username⟩

section Granted

variable {decode : String → Option ClaimsMap} {server : ServerState}
  {settings : ClientSettingsTable} {now : Int64} {ids : TokenIds} {ps : RequestParameters}
  {client : ClientDetails} {tokens : IssuedTokens} {name : String} {u : SecurityUser}
  {row : ClientSettings} {a : OAuth2Authentication SecurityUser}
  (h : Granted Y.authorizationServer decode server settings now ids ps client tokens name u row a)

include h

theorem Granted.claimsOf_signed {m : ClaimsMap} (hm : m ∈ Servers.signedFor (.ok tokens)) :
    ClaimsOf u name m := by
  rcases List.mem_cons.mp hm with rfl | hrefresh
  · exact h.claimsOf_access hA
  · exact h.claimsOf_refresh hA (Option.mem_toList.mp hrefresh)

/-- The ticket for access is that of the access token. -/
theorem Granted.access_of_ticket_mem {value : String} {deadline : WithTop ℤ}
    (hmem : ⟨value, deadline, .access⟩ ∈ (Servers.signedFor (.ok tokens)).map (ticketOf Y)) :
    Y.encode tokens.access = value ∧ deadlineOf tokens.access = deadline := by
  obtain ⟨m, hm, hticket⟩ := List.mem_map.mp hmem
  obtain ⟨hvalue, hdeadline, hpurpose⟩ := Attestation.Ticket.mk.inj hticket
  rcases List.mem_cons.mp hm with rfl | hrefresh
  · exact ⟨hvalue, hdeadline⟩
  · -- a refresh token has the claim that makes it one
    obtain ⟨id, hati⟩ := h.ati_refresh hA (Option.mem_toList.mp hrefresh)
    have hkey : m.containsKey Claim.ati = true := JavaMap.containsKey_eq_true.mpr ⟨_, hati⟩
    unfold purposeOf at hpurpose
    rw [if_pos hkey] at hpurpose
    cases hpurpose

/-- If the client's validity is positive, it bounds the deadline of an access token. -/
theorem Granted.deadline_le (hnow : 0 ≤ now.toInt) (hvalidity : 0 < row.validitySeconds) :
    ∃ deadline : ℤ, deadlineOf tokens.access = (deadline : WithTop ℤ) ∧
      deadline ≤ now.toInt + row.validitySeconds.toInt * 1000 := by
  have hexp := h.exp_access hA
  unfold ClientSettings.expiration at hexp
  rw [if_pos hvalidity, Option.map_some] at hexp
  unfold deadlineOf
  rw [hexp]
  exact ⟨_, rfl, Java.deadline_le hnow (Int32.lt_iff_toInt_lt.mp hvalidity)⟩

end Granted

/-- What is signed after a step was signed before, or is signed for a grant. -/
theorem Inv.mem_signed_step (hs : Inv s) {e : ServersEvent} {m : ClaimsMap}
    (hm : m ∈ (Y.machine.step s e).1.signed) :
    m ∈ s.signed ∨ ∃ ps client ids tokens name u row a, e = .requestToken ps client ids ∧
      (Y.postAccessToken s ps client ids).1 = .ok tokens ∧
      Granted Y.authorizationServer (Y.decode s) s.server s.settings s.clock ids ps client tokens
        name u row a ∧
      m ∈ Servers.signedFor (.ok tokens) := by
  rcases signed_step s e with hsame | ⟨ps, client, ids, tokens, rfl, houtcome, hsigned⟩
  · rw [hsame] at hm
    exact Or.inl hm
  · rw [hsigned] at hm
    rcases List.mem_append.mp hm with hold | hnew
    · exact Or.inl hold
    · obtain ⟨name, u, row, a, hgranted⟩ := hs.granted hA houtcome
      exact Or.inr ⟨ps, client, ids, tokens, name, u, row, a, rfl, houtcome, hgranted, hnew⟩

theorem inv_step (s : ServersState) (e : ServersEvent) (hs : Inv s) :
    Inv (Y.machine.step s e).1 := by
  refine ⟨hs.clock.trans (clock_le_step s e), fun m hm => ?_⟩
  rcases hs.mem_signed_step hA hm with
    hold | ⟨ps, client, ids, tokens, name, u, row, a, rfl, -, hgranted, hnew⟩
  · exact hs.signed m hold
  · exact ⟨u, name, hgranted.claimsOf_signed hA hnew⟩

end Servers

/-! ## The refinement -/

section Refinement

variable (Y : Servers)

/-- What the authority and the verifier know of the state. -/
def abs (s : ServersState) : Attestation.State String Identity ℤ String where
  registry := registryOf Y.authorizationServer s.server.users
  now := s.clock.toInt
  signed := credentials Y s.signed

/-- A refresh request is based on the refresh token, any other on a proof. -/
def basisOf (ps : RequestParameters) : Attestation.Basis String :=
  if ps.get "grant_type" = some "refresh_token" then .renewal ((ps.get "refresh_token").getD "")
  else .proof

/-- An event that changes nothing the authority knows is the passing of no time. -/
def eventOf (s : ServersState) : ServersEvent → Attestation.Event String Identity ℤ String
  | .changeUsers users => .change (registryOf Y.authorizationServer users)
  | .changeClients _ _ | .leaveContext _ => .pass s.clock.toInt
  | .pass time => .pass time.toInt
  | .requestToken ps client ids =>
    match (Y.postAccessToken s ps client ids).1 with
    | .ok tokens =>
      .issue ((stringClaim tokens.access Claim.username).getD "") (basisOf ps)
        ((Servers.signedFor (.ok tokens)).map (ticketOf Y))
    | .error _ => .pass s.clock.toInt
  | .requestResource bearer _ =>
    match bearer with
    | some value => .present value
    | none => .pass s.clock.toInt

/-- A guarded handler answers for a credential that the verifier honours, with its holder and its
email, and only if it records an authority that the handler requires. -/
def OutputsAgree : ServersEvent → ServersOutput →
    Option (Attestation.Credential String Identity ℤ) → Prop
  | .requestResource (some _) endpoint, .reply reply, honoured =>
    endpoint ≠ .common → ∀ text, reply = .answered (.body text) →
      ∃ c mail role, honoured = some c ∧ c.content.email = some mail ∧
        role ∈ ResourceController.requiredRoles endpoint ∧ role ∈ c.content.authorities ∧
        text = ResourceController.bodyFor c.holder mail endpoint
  | _, _, _ => True

section Documented

variable {Y} (hA : Y.authorizationServer.Documented) {s : ServersState}

include hA

/-- A grant of the token endpoint is one of the authority. -/
theorem granted_abs {ps : RequestParameters} {client : ClientDetails} {ids : TokenIds}
    {tokens : IssuedTokens} {name : String} {u : SecurityUser} {row : ClientSettings}
    {a : OAuth2Authentication SecurityUser}
    (h : Granted Y.authorizationServer (Y.decode s) s.server s.settings s.clock ids ps client tokens
      name u row a) :
    Attestation.Granted (abs Y s) name (basisOf ps) (identityOf u) := by
  obtain ⟨credentials, authorities, hl, -⟩ := h.authenticates
  refine ⟨(registryOf_eq_some_iff hA).mpr ⟨u, authorities, h.found, h.active, hl, rfl⟩, ?_⟩
  unfold basisOf
  rcases h.authorized with ⟨hpassword, -⟩ | ⟨hrefresh, value, m, hvalue, hm, hati, hname⟩
  · rw [hpassword, if_neg (by decide)]
    trivial
  · rw [if_pos hrefresh, hvalue]
    refine ⟨credentialOf m, ?_, ?_, if_pos hati⟩
    · show (Y.decode s value).map credentialOf = some (credentialOf m)
      rw [hm]
      rfl
    · simp only [credentialOf, stringClaim, hname, Option.getD_some]

open Classical in
theorem state_step (s : ServersState) (e : ServersEvent) (hs : Inv s) :
    (Attestation.authority.step (abs Y s) (eventOf Y s e)).1 = abs Y (Y.machine.step s e).1 := by
  have hidle : (Attestation.authority.step (abs Y s) (.pass s.clock.toInt)).1 = abs Y s := by
    show { abs Y s with now := max s.clock.toInt s.clock.toInt } = abs Y s
    rw [max_self]
    rfl
  cases e with
  | changeUsers users => rfl
  | changeClients clients settings => exact hidle
  | leaveContext context => exact hidle
  | pass time =>
    show { abs Y s with now := max s.clock.toInt time.toInt } =
      abs Y { s with clock := max s.clock time }
    unfold abs
    rw [toInt_max]
  | requestResource bearer endpoint =>
    cases bearer with
    | none => exact hidle
    | some value => rfl
  | requestToken ps client ids =>
    have hnext : abs Y (Y.machine.step s (.requestToken ps client ids)).1 =
        { abs Y s with
          signed := credentials Y
            (s.signed ++ Servers.signedFor (Y.postAccessToken s ps client ids).1) } := rfl
    rw [hnext]
    unfold eventOf
    simp only
    cases houtcome : (Y.postAccessToken s ps client ids).1 with
    | error e =>
      refine hidle.trans ?_
      show abs Y s = { abs Y s with signed := credentials Y (s.signed ++ []) }
      rw [List.append_nil]
      rfl
    | ok tokens =>
      obtain ⟨name, u, row, a, hgranted⟩ := hs.granted hA houtcome
      have hclaims : ∀ m ∈ Servers.signedFor (.ok tokens), ClaimsOf u name m := fun m hm =>
        hgranted.claimsOf_signed hA hm
      have hname : (stringClaim tokens.access Claim.username).getD "" = name := by
        simp only [stringClaim, (hgranted.claimsOf_access hA).username, Option.getD_some]
      simp only [hname]
      rw [Attestation.issue_of_granted (granted_abs hA hgranted), credentials_append Y hclaims]
      rfl

end Documented

/-! The answers of the resource server. -/

/-- The resource server reads the pieces of the names in the claim. -/
theorem mem_names_of_readAuthorities {conv : CustomUserAuthenticationConverter}
    (hdef : conv.defaultAuthorities = none) {m : ClaimsMap} {names : List String}
    (hclaim : HasAuthoritiesClaim m names) {authorities : List GrantedAuthority}
    (hread : CustomUserAuthenticationConverter.ReadAuthorities conv m authorities) {role : String}
    (hrole : ⟨role⟩ ∈ authorities) : role ∈ names.flatMap tokenizeToStringArray := by
  unfold HasAuthoritiesClaim at hclaim
  rcases hread with ⟨-, rfl⟩ | ⟨text, htext, -, rfl⟩
  · rw [hdef] at hrole
    cases hrole
  · have hne : names ≠ [] := by
      rintro rfl
      rcases htext with hstr | ⟨elems, hcoll, -⟩
      · rw [hclaim] at hstr
        cases hstr
      · rw [hclaim] at hcoll
        cases hcoll
    rw [if_neg hne] at hclaim
    rcases htext with hstr | ⟨elems, hcoll, rfl⟩
    · rw [hclaim] at hstr
      cases hstr
    · rw [hclaim] at hcoll
      cases hcoll
      have hnames : (names.map Elem.str).map Elem.text = names := by
        rw [List.map_map]
        exact List.map_id names
      rw [hnames, tokenize_intercalate] at hrole
      simpa using hrole

theorem out_step {Y : Servers} (hR : Y.resourceServer.Documented)
    (hdef : Y.resourceServer.tokenConverter.userTokenConverter.defaultAuthorities = none)
    (s : ServersState) (e : ServersEvent) (hs : Inv s) :
    OutputsAgree e (Y.machine.step s e).2
      (Attestation.authority.step (abs Y s) (eventOf Y s e)).2 := by
  cases e with
  | changeUsers users => trivial
  | changeClients clients settings => trivial
  | leaveContext context => trivial
  | pass time => trivial
  | requestToken ps client ids => trivial
  | requestResource bearer endpoint =>
    cases bearer with
    | none => trivial
    | some value =>
      intro hendpoint text hanswered
      obtain ⟨m, username, mail, authorities, hm, hacceptable, -, -, husername, hmail, hread,
        ⟨role, hrequired, hrole⟩, rfl⟩ :=
        ResourceServerConfiguration.claims_of_body hR hendpoint hanswered
      obtain ⟨u, name, hclaims⟩ := hs.signed m (decode_eq_some hm).1
      have hcredential := credentialOf_claimsOf hclaims
      obtain ⟨names, hnames, hclaim⟩ := hclaims.authorities
      rw [ClaimsMap.get_of_find? hclaims.username] at husername
      cases husername
      rw [hclaims.email] at hmail
      have hemail : u.email = some mail := by
        cases hu : u.email with
        | none =>
          rw [hu] at hmail
          cases hmail
        | some mail' =>
          rw [hu] at hmail
          cases hmail
          rfl
      have hsigned : (abs Y s).signed value = some (credentialOf m) := by
        show (Y.decode s value).map credentialOf = some (credentialOf m)
        rw [hm]
        rfl
      have hcurrent : ((s.clock.toInt : ℤ) : WithTop ℤ) ≤ deadlineOf m := by
        unfold deadlineOf
        rcases hacceptable.current with hnone | ⟨e, hexp, hle⟩
        · rw [hnone]
          exact le_top
        · rw [hexp]
          exact WithTop.coe_le_coe.mpr (Int64.le_iff_toInt_le.mp hle)
      have hpurpose : purposeOf m = .access := by
        have hkey : m.containsKey Claim.ati = false :=
          JavaMap.containsKey_eq_false.mpr hacceptable.access
        unfold purposeOf
        rw [hkey]
        rfl
      refine ⟨credentialOf m, mail, role, ?_, ?_, hrequired, ?_, ?_⟩
      · exact Attestation.honoured_iff.mpr ⟨hsigned, hpurpose, hcurrent⟩
      · rw [hcredential]
        exact hemail
      · rw [hcredential]
        obtain ⟨t, ht, hpiece⟩ := List.mem_flatMap.mp
          (mem_names_of_readAuthorities hdef hclaim hread hrole)
        exact ⟨t, (hnames t).mp ht, hpiece⟩
      · rw [hcredential]

/-- The servers refine the authority and its verifier; what the resource server answers depends on
its own parameters. -/
def servers_refine {Y : Servers} (hA : Y.authorizationServer.Documented) :
    Machine.Refinement Y.machine
      (Attestation.authority (ν := String) (κ := Identity) (τ := ℤ) (β := String)) where
  Inv := Inv
  abs := abs Y
  event := eventOf Y
  Out e output honoured := Y.resourceServer.Documented →
    Y.resourceServer.tokenConverter.userTokenConverter.defaultAuthorities = none →
    OutputsAgree e output honoured
  inv_step := inv_step hA
  state_step := state_step hA
  out_step s e hs hR hdef := out_step hR hdef s e hs

end Refinement

end Contract
