import SecurityOAuth2Jwt.Contract.Proofs.ServersProofs

/-!
# Proofs: where the answers of the resource server come from

The resource server knows nothing but the claims. In every run, whatever the order of requests,
changes and delays, an answer with an identity goes back to a token that was issued to a stored user
who was active and entitled at that moment, and further back to a login with a password.
-/

namespace Contract

open Java Spring AuthorizationServer ResourceServer

/-- A state before the first token: nothing is signed, and the clock is past the epoch. -/
structure Initial (s : ServersState) : Prop where
  signed : s.signed = []
  clock : 0 ≤ s.clock.toInt

theorem Initial.inv {s : ServersState} (h : Initial s) : Inv s := by
  refine ⟨h.clock, fun m hm => ?_⟩
  rw [h.signed] at hm
  cases hm

/-- Some run leads to the state. -/
def Reachable (Y : Servers) (s : ServersState) : Prop :=
  ∃ s₀ es, Initial s₀ ∧ Y.machine.run s₀ es = s

theorem Initial.nothing_signed {Y : Servers} {s : ServersState} (h : Initial s) (value : String) :
    (abs Y s).signed value = none := by
  show credentials Y s.signed value = none
  rw [h.signed]
  rfl

/-- An active row of the table entitles its user to this text: a piece of one of the titles is an
authority that the handler requires. -/
def Entitled (users : UserTable) (endpoint : ResourceController.Endpoint) (text : String) : Prop :=
  ∃ u name mail role title, users.findByUsername name = some u ∧ u.Active ∧ u.email = some mail ∧
    role ∈ ResourceController.requiredRoles endpoint ∧ some title ∈ u.titles ∧
    role ∈ tokenizeToStringArray title ∧
    text = ResourceController.bodyFor name mail endpoint

section Answers

variable {Y : Servers} (hA : Y.authorizationServer.Documented) (hR : Y.resourceServer.Documented)
  (hdef : Y.resourceServer.tokenConverter.userTokenConverter.defaultAuthorities = none)

/-! ## Runs -/

include hA in
theorem Initial.inv_run {s : ServersState} (hs : Initial s) (es : List ServersEvent) :
    Inv (Y.machine.run s es) :=
  Y.machine.run_induction (inv_step hA) hs.inv es

include hA in
theorem Reachable.inv {s : ServersState} (hs : Reachable Y s) : Inv s := by
  obtain ⟨s₀, es, hinitial, rfl⟩ := hs
  exact hinitial.inv_run hA es

theorem clock_le_run (s : ServersState) (es : List ServersEvent) :
    s.clock.toInt ≤ (Y.machine.run s es).clock.toInt := by
  refine Y.machine.run_induction (P := fun t => s.clock.toInt ≤ t.clock.toInt) (fun t e ht => ?_)
    le_rfl es
  exact ht.trans (clock_le_step t e)

/-! ## Events of the authority -/

/-- Only a successful token request issues credentials. -/
theorem eventOf_eq_issue {s : ServersState} {e : ServersEvent} {holder : String}
    {basis : Attestation.Basis String} {tickets : List (Attestation.Ticket ℤ String)}
    (h : eventOf Y s e = .issue holder basis tickets) :
    ∃ ps client ids tokens, e = .requestToken ps client ids ∧
      (Y.postAccessToken s ps client ids).1 = .ok tokens ∧
      holder = (stringClaim tokens.access Claim.username).getD "" ∧ basis = basisOf ps ∧
      tickets = (Servers.signedFor (.ok tokens)).map (ticketOf Y) := by
  cases e with
  | changeUsers users => cases h
  | changeClients clients settings => cases h
  | leaveContext context => cases h
  | pass time => cases h
  | requestResource bearer endpoint =>
    cases bearer with
    | none => cases h
    | some value => cases h
  | requestToken ps client ids =>
    simp only [eventOf] at h
    cases houtcome : (Y.postAccessToken s ps client ids).1 with
    | error e =>
      rw [houtcome] at h
      cases h
    | ok tokens =>
      rw [houtcome] at h
      cases h
      exact ⟨ps, client, ids, tokens, rfl, houtcome, rfl, rfl, rfl⟩

section Tokens

include hA

/-- In every run a signed credential was issued by a token request, for a row of that moment. -/
theorem issue_of_credential {s : ServersState} (hs : Initial s) {es : List ServersEvent}
    {value : String} {c : Attestation.Credential String Identity ℤ}
    (h : (abs Y (Y.machine.run s es)).signed value = some c) :
    ∃ pre ps client ids tokens post, es = pre ++ .requestToken ps client ids :: post ∧
      (Y.postAccessToken (Y.machine.run s pre) ps client ids).1 = .ok tokens ∧
      registryOf Y.authorizationServer (Y.machine.run s pre).server.users c.holder =
        some c.content ∧
      ⟨value, c.deadline, c.purpose⟩ ∈ (Servers.signedFor (.ok tokens)).map (ticketOf Y) := by
  let R := servers_refine hA
  have hrun : Attestation.authority.run (abs Y s) (R.events s es) = abs Y (Y.machine.run s es) :=
    R.run_events hs.inv es
  rw [← hrun] at h
  obtain ⟨pre', basis, tickets, post', hevents, hgranted, hticket⟩ :=
    Attestation.signed_run (hs.nothing_signed value) h
  obtain ⟨pre, e, post, rfl, rfl, hevent⟩ := R.exists_of_events_eq hevents
  obtain ⟨ps, client, ids, tokens, rfl, houtcome, -, -, rfl⟩ := eventOf_eq_issue hevent
  have hpre : Attestation.authority.run (abs Y s) (R.events s pre) = abs Y (Y.machine.run s pre) :=
    R.run_events hs.inv pre
  rw [hpre] at hgranted
  exact ⟨pre, ps, client, ids, tokens, post, rfl, houtcome, hgranted.1, hticket⟩

/-- In every run, a token that verifies names a user who sent a name and a password that matched the
active row of that moment: refreshed tokens go back to a login of the same user. -/
theorem token_traces_to_login {s : ServersState} (hs : Initial s) {es : List ServersEvent}
    {value : String} {m : ClaimsMap} (h : Y.decode (Y.machine.run s es) value = some m) :
    ∃ pre ps client ids tokens post u password,
      es = pre ++ .requestToken ps client ids :: post ∧
      (Y.postAccessToken (Y.machine.run s pre) ps client ids).1 = .ok tokens ∧
      ps.get "grant_type" = some "password" ∧ ps.get "password" = some password ∧
      (Y.machine.run s pre).server.users.findByUsername ps.username = some u ∧ u.Active ∧
      Y.authorizationServer.passwordEncoder password u.password = true ∧
      m.find? Claim.username = some (.str ps.username) := by
  let R := servers_refine hA
  obtain ⟨u₀, name, hclaims⟩ := (hs.inv_run hA es).signed m (decode_eq_some h).1
  have hsigned : (abs Y (Y.machine.run s es)).signed value = some (credentialOf m) := by
    show (Y.decode (Y.machine.run s es) value).map credentialOf = some (credentialOf m)
    rw [h]
    rfl
  have hrun : Attestation.authority.run (abs Y s) (R.events s es) = abs Y (Y.machine.run s es) :=
    R.run_events hs.inv es
  rw [← hrun] at hsigned
  obtain ⟨pre', content, tickets, post', hevents, -⟩ :=
    Attestation.proof_run hs.nothing_signed hsigned
  obtain ⟨pre, e, post, rfl, rfl, hevent⟩ := R.exists_of_events_eq hevents
  obtain ⟨ps, client, ids, tokens, rfl, houtcome, hholder, hbasis, -⟩ := eventOf_eq_issue hevent
  obtain ⟨name', u, row, a, hgranted⟩ := (hs.inv_run hA pre).granted hA houtcome
  have hname : name = name' := by
    rw [credentialOf_claimsOf hclaims] at hholder
    refine hholder.trans ?_
    simp only [stringClaim, (hgranted.claimsOf_access hA).username, Option.getD_some]
  subst hname
  rcases hgranted.authorized with ⟨hpassword, rfl, password, hps, hmatch⟩ | ⟨hrefresh, -⟩
  · exact ⟨pre, ps, client, ids, tokens, post, u, password, rfl, houtcome, hpassword, hps,
      hgranted.found, hgranted.active, hmatch, hclaims.username⟩
  · unfold basisOf at hbasis
    rw [if_pos hrefresh] at hbasis
    cases hbasis

end Tokens

/-! ## Answers -/

include hA hR hdef

/-- Every run of the servers is matched by a run of the authority and its verifier: it ends in the
abstraction of the state that is reached, and every answer on the way is one to a credential that
the verifier honours. -/
theorem servers_run_refines {s : ServersState} (hs : Initial s) (es : List ServersEvent) :
    Attestation.authority.run (abs Y s) ((servers_refine hA).events s es) =
        abs Y (Y.machine.run s es) ∧
      ∀ pre e post, es = pre ++ e :: post →
        OutputsAgree e (Y.machine.step (Y.machine.run s pre) e).2
          (Attestation.authority.step (abs Y (Y.machine.run s pre))
            (eventOf Y (Y.machine.run s pre) e)).2 :=
  ⟨(servers_refine hA).run_events hs.inv es, fun pre e _ _ =>
    out_step hR hdef (Y.machine.run s pre) e (hs.inv_run hA pre)⟩

/-- Behind an answer with an identity is a grant of the token that was presented. -/
theorem grant_of_answer {s : ServersState} (hs : Initial s) {es : List ServersEvent}
    {value : String} {endpoint : ResourceController.Endpoint} (hendpoint : endpoint ≠ .common)
    {text : String}
    (h : Y.reply (Y.machine.run s es) (some value) endpoint = .answered (.body text)) :
    ∃ pre ps client ids tokens post, es = pre ++ .requestToken ps client ids :: post ∧
      (Y.postAccessToken (Y.machine.run s pre) ps client ids).1 = .ok tokens ∧
      Y.encode tokens.access = value ∧
      Entitled (Y.machine.run s pre).server.users endpoint text ∧
      ∃ row, (Y.machine.run s pre).settings.find? client.clientId = some row ∧
        ∀ longest : Int32, 0 < row.validitySeconds → row.validitySeconds ≤ longest →
          (Y.machine.run s es).clock.toInt ≤
            (Y.machine.run s pre).clock.toInt + longest.toInt * 1000 := by
  obtain ⟨c, mail, role, honoured, hmail, hrequired, hrole, rfl⟩ :=
    out_step hR hdef _ (.requestResource (some value) endpoint) (hs.inv_run hA es) hendpoint text h
  obtain ⟨hsigned, hpurpose, hcurrent⟩ := Attestation.honoured_iff.mp honoured
  change ((Y.machine.run s es).clock.toInt : WithTop ℤ) ≤ c.deadline at hcurrent
  obtain ⟨pre, ps, client, ids, tokens, post, rfl, houtcome, hregistry, hticket⟩ :=
    issue_of_credential hA hs hsigned
  have hinv := hs.inv_run hA pre
  obtain ⟨name, u, row, a, hgranted⟩ := hinv.granted hA houtcome
  rw [hpurpose] at hticket
  obtain ⟨hvalue, hdeadline⟩ := hgranted.access_of_ticket_mem hA hticket
  refine ⟨pre, ps, client, ids, tokens, post, rfl, houtcome, hvalue, ?_, row, hgranted.settings,
    fun longest hpositive hlongest => ?_⟩
  · obtain ⟨u', authorities, hfound, hactive, -, hcontent⟩ :=
      (registryOf_eq_some_iff hA).mp hregistry
    rw [hcontent] at hmail hrole
    obtain ⟨title, htitle, hpiece⟩ := hrole
    exact ⟨u', c.holder, mail, role, title, hfound, hactive, hmail, hrequired, htitle, hpiece, rfl⟩
  · obtain ⟨deadline, hbounded, hbound⟩ := hgranted.deadline_le hA hinv.clock hpositive
    rw [← hdeadline, hbounded] at hcurrent
    have htime := WithTop.coe_le_coe.mp hcurrent
    have hle := Int32.le_iff_toInt_le.mp hlongest
    omega

/-- In every run, an answer with an identity goes back to a token request that succeeded for a user
who was entitled to it then, and is given within the validity of the client. -/
theorem answer_traces_to_issue {s : ServersState} (hs : Initial s) {es : List ServersEvent}
    {value : String} {endpoint : ResourceController.Endpoint} (hendpoint : endpoint ≠ .common)
    {text : String}
    (h : Y.reply (Y.machine.run s es) (some value) endpoint = .answered (.body text)) :
    ∃ pre ps client ids tokens row post, es = pre ++ .requestToken ps client ids :: post ∧
      (Y.postAccessToken (Y.machine.run s pre) ps client ids).1 = .ok tokens ∧
      Y.encode tokens.access = value ∧
      Entitled (Y.machine.run s pre).server.users endpoint text ∧
      (Y.machine.run s pre).settings.find? client.clientId = some row ∧
      (0 < row.validitySeconds → (Y.machine.run s es).clock.toInt ≤
        (Y.machine.run s pre).clock.toInt + row.validitySeconds.toInt * 1000) := by
  obtain ⟨pre, ps, client, ids, tokens, post, rfl, houtcome, hvalue, hentitled, row, hrow,
      hclock⟩ :=
    grant_of_answer hA hR hdef hs hendpoint h
  exact ⟨pre, ps, client, ids, tokens, row, post, rfl, houtcome, hvalue, hentitled, hrow,
    fun hpositive => hclock row.validitySeconds hpositive (Int32.le_refl _)⟩

/-- Once nobody is entitled to an answer any more, it is not given after the longest validity of a
client has passed, if no client has tokens without an expiration. -/
theorem answer_ends_with_validity {s : ServersState} (hs : Initial s)
    {before after : List ServersEvent} {longest : Int32}
    (hvalidity : ∀ pre post, before ++ after = pre ++ post → ∀ clientId row,
      (Y.machine.run s pre).settings.find? clientId = some row →
      0 < row.validitySeconds ∧ row.validitySeconds ≤ longest)
    {endpoint : ResourceController.Endpoint} (hendpoint : endpoint ≠ .common) {text : String}
    (hrevoked : ∀ mid post, after = mid ++ post →
      ¬ Entitled (Y.machine.run s (before ++ mid)).server.users endpoint text)
    (hlate : (Y.machine.run s before).clock.toInt + longest.toInt * 1000 <
      (Y.machine.run s (before ++ after)).clock.toInt) (value : String) :
    Y.reply (Y.machine.run s (before ++ after)) (some value) endpoint ≠ .answered (.body text) := by
  intro h
  obtain ⟨pre, ps, client, ids, tokens, post, hes, -, -, hentitled, row, hrow, hclock⟩ :=
    grant_of_answer hA hR hdef hs hendpoint h
  obtain ⟨hpositive, hlongest⟩ := hvalidity pre _ hes client.clientId row hrow
  rcases List.append_eq_append_iff.mp hes with ⟨mid, rfl, hafter⟩ | ⟨rest, rfl, -⟩
  · -- the token was issued after the entitlement had ended
    exact hrevoked mid _ hafter hentitled
  · -- the token was issued before, so its deadline has passed
    have hle := @clock_le_run Y (Y.machine.run s pre) rest
    rw [← Y.machine.run_append] at hle
    have hbound := hclock longest hpositive hlongest
    omega

end Answers

/-! Alice logs in, refreshes her token, and is removed from the table. -/

/-- Access tokens and refresh tokens, by their ids. -/
def encodeId (m : ClaimsMap) : String :=
  (if m.containsKey Claim.ati = true then "refresh " else "access ") ++
    (stringClaim m Claim.jti).getD ""

def referenceServers : Servers where
  authorizationServer := referenceConfiguration
  resourceServer := ResourceServerConfiguration.referenceServer
  encode := encodeId

def webClient : ClientDetails := ⟨"client", .ofList ["role_user"]⟩

def stateOfAlice : ServersState where
  server :=
    { users := tableOf (userWithEmail (some "alice@mail")) rfl
      clients := (∅ : ClientTable).put "client" webClient
      context := ⟨none⟩ }
  settings := (∅ : ClientSettingsTable).put "client"
    ⟨.ofList [.str "USER_ADMIN_RESOURCE"], ∅, some 900⟩
  clock := 1600000000000
  signed := []

theorem initial_stateOfAlice : Initial stateOfAlice := ⟨rfl, by decide⟩

def loginParameters : RequestParameters :=
  let map : RequestParameters := ∅
  let map := map.put "grant_type" (some "password")
  let map := map.put "username" (some "alice")
  map.put "password" (some "secret")

def refreshParametersOf (value : String) : RequestParameters :=
  let map : RequestParameters := ∅
  let map := map.put "grant_type" (some "refresh_token")
  map.put "refresh_token" (some value)

def runOfAlice : List ServersEvent :=
  [.requestToken loginParameters webClient ⟨"1", "2"⟩, .pass 1600000600000,
    .requestToken (refreshParametersOf "refresh 2") webClient ⟨"3", "4"⟩,
    .changeUsers emptyTable, .pass 1600001200000]

theorem answer_of_alice_traces_to_issue :
    ∃ pre ps client ids tokens row post, runOfAlice = pre ++ .requestToken ps client ids :: post ∧
      (referenceServers.postAccessToken (referenceServers.machine.run stateOfAlice pre) ps client
        ids).1 = .ok tokens ∧
      referenceServers.encode tokens.access = "access 3" ∧
      Entitled (referenceServers.machine.run stateOfAlice pre).server.users .users
        "ResourceController.secured:alice alice@mail" ∧
      (referenceServers.machine.run stateOfAlice pre).settings.find? client.clientId = some row ∧
      (0 < row.validitySeconds →
        (referenceServers.machine.run stateOfAlice runOfAlice).clock.toInt ≤
          (referenceServers.machine.run stateOfAlice pre).clock.toInt +
            row.validitySeconds.toInt * 1000) :=
  answer_traces_to_issue referenceConfiguration_documented
    ResourceServerConfiguration.referenceServer_documented rfl initial_stateOfAlice (by decide) rfl

theorem token_of_alice_traces_to_login :
    ∃ m, referenceServers.decode (referenceServers.machine.run stateOfAlice runOfAlice)
        "access 3" = some m ∧
      ∃ pre ps client ids tokens post u password,
        runOfAlice = pre ++ .requestToken ps client ids :: post ∧
        (referenceServers.postAccessToken (referenceServers.machine.run stateOfAlice pre) ps client
          ids).1 = .ok tokens ∧
        ps.get "grant_type" = some "password" ∧ ps.get "password" = some password ∧
        (referenceServers.machine.run stateOfAlice pre).server.users.findByUsername ps.username =
          some u ∧ u.Active ∧
        referenceServers.authorizationServer.passwordEncoder password u.password = true ∧
        m.find? Claim.username = some (.str ps.username) := by
  have hsome : (referenceServers.decode (referenceServers.machine.run stateOfAlice runOfAlice)
      "access 3").isSome = true := rfl
  obtain ⟨m, hm⟩ := Option.isSome_iff_exists.mp hsome
  exact ⟨m, hm, token_traces_to_login referenceConfiguration_documented initial_stateOfAlice hm⟩

theorem run_of_alice_refines :
    Attestation.authority.run (abs referenceServers stateOfAlice)
        ((@servers_refine referenceServers referenceConfiguration_documented).events stateOfAlice
          runOfAlice) =
      abs referenceServers (referenceServers.machine.run stateOfAlice runOfAlice) :=
  (servers_run_refines referenceConfiguration_documented
    ResourceServerConfiguration.referenceServer_documented rfl initial_stateOfAlice runOfAlice).1

theorem answer_of_alice_ends :
    referenceServers.reply
        (referenceServers.machine.run stateOfAlice
          ([.requestToken loginParameters webClient ⟨"1", "2"⟩, .changeUsers emptyTable] ++
            [.pass 1600000900001])) (some "access 1") .users ≠
      .answered (.body "ResourceController.secured:alice alice@mail") := by
  refine @answer_ends_with_validity _ referenceConfiguration_documented
    ResourceServerConfiguration.referenceServer_documented rfl _ initial_stateOfAlice _ _ 900 ?_ _
    (by decide) _ ?_ (by decide) "access 1"
  · intro pre post hes clientId row hrow
    have hsettings : (referenceServers.machine.run stateOfAlice pre).settings =
        stateOfAlice.settings := by
      rcases pre with - | ⟨e₁, - | ⟨e₂, - | ⟨e₃, - | ⟨e₄, pre⟩⟩⟩⟩ <;> cases hes <;> rfl
    rw [hsettings] at hrow
    by_cases hclient : clientId = "client"
    · subst hclient
      cases hrow
      decide
    · rw [stateOfAlice, JavaMap.find?_put, if_neg hclient] at hrow
      cases hrow
  · rintro mid post hes ⟨u, name, mail, role, title, hfound, -⟩
    have husers : (referenceServers.machine.run stateOfAlice
        ([.requestToken loginParameters webClient ⟨"1", "2"⟩, .changeUsers emptyTable] ++
          mid)).server.users = emptyTable := by
      rcases mid with - | ⟨e₁, - | ⟨e₂, mid⟩⟩ <;> cases hes <;> rfl
    rw [husers] at hfound
    cases hfound

end Contract
