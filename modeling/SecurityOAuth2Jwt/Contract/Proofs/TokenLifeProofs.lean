import SecurityOAuth2Jwt.Contract.Proofs.AnswerProofs
import SecurityOAuth2Jwt.ResourceServer.Proofs.RequestFailureProofs

/-!
# Proofs: the life of a token

What the resource server answers to a token is settled when it is issued. Until its deadline the
answers are those of the row of that moment, whatever happens to the row afterwards, and then it is
refused. A refresh token is refused from the start.
-/

namespace Contract

open Java Spring AuthorizationServer ResourceServer

section Life

variable {Y : Servers}

/-! ## Signed values -/

/-- A value that verifies goes on to verify, with the same claims. -/
theorem decode_run {s : ServersState} {value : String} {m : ClaimsMap}
    (h : Y.decode s value = some m) (es : List ServersEvent) :
    Y.decode (Y.machine.run s es) value = some m := by
  refine Y.machine.run_induction (P := fun t => Y.decode t value = some m) (fun t e ht => ?_) h es
  unfold Servers.decode at ht ⊢
  rcases signed_step t e with hsame | ⟨ps, client, ids, tokens, -, -, hsigned⟩
  · rw [hsame]
    exact ht
  · rw [hsigned, List.find?_append, ht]
    rfl

/-- The value of a new access token stands for its claims. -/
theorem decode_access {s : ServersState} {ps : RequestParameters} {client : ClientDetails}
    {ids : TokenIds} {tokens : IssuedTokens}
    (houtcome : (Y.postAccessToken s ps client ids).1 = .ok tokens)
    (hfresh : Y.decode s (Y.encode tokens.access) = none) :
    Y.decode (Y.machine.step s (.requestToken ps client ids)).1 (Y.encode tokens.access) =
      some tokens.access := by
  show (s.signed ++ Servers.signedFor (Y.postAccessToken s ps client ids).1).find? _ = _
  rw [houtcome, List.find?_append, show s.signed.find? _ = none from hfresh]
  simp [Servers.signedFor]

/-- The value of a new refresh token stands for its claims. -/
theorem decode_refresh {s : ServersState} {ps : RequestParameters} {client : ClientDetails}
    {ids : TokenIds} {tokens : IssuedTokens} {m : ClaimsMap}
    (houtcome : (Y.postAccessToken s ps client ids).1 = .ok tokens) (hm : tokens.refresh = some m)
    (hfresh : Y.decode s (Y.encode m) = none) (hother : Y.encode tokens.access ≠ Y.encode m) :
    Y.decode (Y.machine.step s (.requestToken ps client ids)).1 (Y.encode m) = some m := by
  show (s.signed ++ Servers.signedFor (Y.postAccessToken s ps client ids).1).find? _ = _
  rw [houtcome, List.find?_append, show s.signed.find? _ = none from hfresh]
  simp [Servers.signedFor, hm, hother]

/-! ## The claims of a granted token -/

/-- The time until which an access token is good: no limit without an expiration. -/
def GoodUntil (row : ClientSettings) (issued now : Int64) : Prop :=
  ∀ time, row.expiration issued = some time → now ≤ time / 1000 * 1000

/-- The client may use the resource. -/
def MayUse (row : ClientSettings) : Prop :=
  row.resourceIds = ∅ ∨ Elem.str ResourceServerConfiguration.resourceId ∈ row.resourceIds

variable (hA : Y.authorizationServer.Documented) {decode : String → Option ClaimsMap}
  {server : ServerState} {settings : ClientSettingsTable} {issued : Int64} {ids : TokenIds}
  {ps : RequestParameters} {client : ClientDetails} {tokens : IssuedTokens} {name : String}
  {u : SecurityUser} {row : ClientSettings} {a : OAuth2Authentication SecurityUser}
  (hgranted : Granted Y.authorizationServer decode server settings issued ids ps client tokens name
    u row a)

include hA hgranted

theorem Granted.live_iff {now : Int64} : Live now tokens.access ↔ GoodUntil row issued now := by
  have hexp := hgranted.exp_access hA
  constructor
  · rintro ⟨-, hnone | ⟨e, he, hle⟩⟩ time htime
    · rw [htime, hnone] at hexp
      cases hexp
    · rw [htime, he] at hexp
      cases hexp
      exact hle
  · intro hgood
    refine ⟨hgranted.ati_access hA, ?_⟩
    cases htime : row.expiration issued with
    | none =>
      rw [htime] at hexp
      exact Or.inl hexp
    | some time =>
      rw [htime] at hexp
      exact Or.inr ⟨_, hexp, hgood time htime⟩

theorem Granted.tokenReadable_access : CustomAccessTokenConverter.TokenReadable tokens.access := by
  have hfree := leavesDefaults_withEmail (leavesDefaults_plainTokenOf ids row issued a) u
  refine ⟨?_, ?_⟩
  · have hexp := hgranted.exp_access hA
    cases htime : row.expiration issued with
    | none =>
      rw [htime] at hexp
      exact Or.inl hexp
    | some time =>
      rw [htime] at hexp
      exact Or.inr ⟨_, hexp⟩
  · rw [hgranted.access, hA.jwtAccessTokenConverter.access.scope _ a hfree]
    intro hnull
    cases hnull

theorem Granted.tokenReadable_refresh {m : ClaimsMap} (hm : tokens.refresh = some m) :
    CustomAccessTokenConverter.TokenReadable m := by
  have hfree := leavesDefaults_withEmail (leavesDefaults_plainTokenOf ids row issued a) u
  have haccess := (hgranted.tokenReadable_access hA).scope
  rw [hgranted.access] at haccess
  obtain ⟨refreshToken, rfl⟩ := hgranted.refresh m hm
  refine ⟨?_, ?_⟩
  · have hexp := hA.jwtAccessTokenConverter.refresh_exp refreshToken _ a hfree
    cases htime : refreshToken.expiration with
    | none =>
      rw [htime] at hexp
      exact Or.inl hexp
    | some time =>
      rw [htime] at hexp
      exact Or.inr ⟨_, hexp⟩
  · rw [hA.jwtAccessTokenConverter.same refreshToken _ a Claim.scope hfree (by decide)]
    exact haccess

theorem Granted.audience_iff (hpassword : ps.get "grant_type" = some "password") :
    AudienceFor ResourceServerConfiguration.resourceId tokens.access ↔ MayUse row := by
  have hfree := leavesDefaults_withEmail (leavesDefaults_plainTokenOf ids row issued a) u
  have haud := hA.jwtAccessTokenConverter.access.aud _ a hfree
  rw [← hgranted.access, hgranted.resource hpassword, Option.bind_some] at haud
  unfold AudienceFor MayUse
  by_cases hempty : row.resourceIds = ∅
  · rw [hempty] at haud
    rw [show tokens.access.find? Claim.aud = none from haud]
    exact iff_of_true trivial (Or.inl hempty)
  · rw [LinkedHashSet.nonEmpty?_of_ne hempty] at haud
    rw [show tokens.access.find? Claim.aud = some (.coll row.resourceIds.toList) from haud]
    have hne : row.resourceIds.toList ≠ [] := by
      intro hnil
      have hempty' : row.resourceIds = ∅ := by
        rw [← LinkedHashSet.ofList_toList row.resourceIds, hnil]
        rfl
      exact hempty hempty'
    simp [hne, hempty, LinkedHashSet.mem_toList]

/-- The resource server decodes the token of a user with an email and plain titles to this user. -/
theorem Granted.decoded {S : SpringSecurity} (hS : S.Documented) {conv : CustomAccessTokenConverter}
    (hdef : conv.userTokenConverter.defaultAuthorities = none) {mail : String}
    (hmail : u.email = some mail) (hplain : ∀ t, some t ∈ u.titles → PlainTitle t) :
    ∃ decoded user, conv.extractAuthentication S tokens.access = .ok decoded ∧
      decoded.userAuthentication = some user ∧ user.principal = ⟨name, mail⟩ ∧
      ∀ x, ⟨x⟩ ∈ user.authorities.getD [] ↔ some x ∈ u.titles := by
  have hfree := leavesDefaults_plainTokenOf ids row issued a
  obtain ⟨husername, hemail, names, hnames, hclaim⟩ := hgranted.claimsOf_access hA
  obtain ⟨credentials, authorities, hl, -⟩ := hgranted.authenticates
  have htext : ∀ t ∈ names, HasText t := fun t ht =>
    hasText_of_mem_titles hA.spring hl ((hnames t).mp ht)
  have hnamesPlain : ∀ t ∈ names, PlainTitle t := fun t ht => hplain t ((hnames t).mp ht)
  rw [hmail] at hemail
  have hget := ClaimsMap.get_of_find? husername
  obtain ⟨user, hextract, hsame⟩ := (names_arrive_iff hS hdef htext hclaim (by simp [hget])
    (by simp [hemail, JavaValue.ofString])).mpr hnamesPlain
  have hprincipal : user.principal = ⟨name, mail⟩ := by
    obtain ⟨-, username, mail', as, hu, he, -, rfl⟩ :=
      (CustomUserAuthenticationConverter.extractAuthentication_ok_some_iff hS).mp hextract
    rw [hget] at hu
    rw [hemail] at he
    cases hu
    cases he
    rfl
  rw [hgranted.access] at hextract
  obtain ⟨decoded, hdecoded, huser⟩ :=
    decodes_enhanced hA.jwtAccessTokenConverter.access hfree u a hextract
  rw [← hgranted.access] at hdecoded
  exact ⟨decoded, user, hdecoded, huser, hprincipal, fun x => (hsame x).trans (hnames x)⟩

end Life

/-! ## The life of the tokens of a login -/

section Login

variable {Y : Servers} (hA : Y.authorizationServer.Documented) (hR : Y.resourceServer.Documented)
  {s : ServersState} (hs : Reachable Y s) {ps : RequestParameters} {client : ClientDetails}
  {ids : TokenIds} {tokens : IssuedTokens}
  (houtcome : (Y.postAccessToken s ps client ids).1 = .ok tokens)

include hA hR hs houtcome

/-- After a login of a user with an email and plain titles, the access token is answered by the
titles of that moment until its deadline, at every handler and whatever happens to the tables, and
is refused afterwards; it is refused from the start unless the client may use the resource. -/
theorem access_token_life
    (hdef : Y.resourceServer.tokenConverter.userTokenConverter.defaultAuthorities = none)
    (hpassword : ps.get "grant_type" = some "password")
    (hfresh : Y.decode s (Y.encode tokens.access) = none) {u : SecurityUser}
    (hfound : s.server.users.findByUsername ps.username = some u) {mail : String}
    (hmail : u.email = some mail) (hplain : ∀ t, some t ∈ u.titles → PlainTitle t)
    {row : ClientSettings} (hrow : s.settings.find? client.clientId = some row)
    (es : List ServersEvent) (endpoint : ResourceController.Endpoint) :
    let s' := Y.machine.run s (.requestToken ps client ids :: es)
    (GoodUntil row s.clock s'.clock → MayUse row →
      Y.reply s' (some (Y.encode tokens.access)) endpoint = .answered
        (if endpoint = .common ∨
            ∃ role ∈ ResourceController.requiredRoles endpoint, some role ∈ u.titles then
          .body (ResourceController.bodyFor ps.username mail endpoint)
        else .denied)) ∧
    (¬ (GoodUntil row s.clock s'.clock ∧ MayUse row) →
      Y.reply s' (some (Y.encode tokens.access)) endpoint = .refused) := by
  obtain ⟨name, u', row', a, hgranted⟩ := (hs.inv hA).granted hA houtcome
  have hname : ps.username = name := by
    rcases hgranted.authorized with ⟨-, hname, -⟩ | ⟨hrefresh, -⟩
    · exact hname
    · rw [hpassword] at hrefresh
      exact absurd hrefresh (by decide)
  subst hname
  have huser : u' = u := Option.some.inj (hgranted.found.symm.trans hfound)
  subst huser
  have hsettings : row' = row := Option.some.inj (hgranted.settings.symm.trans hrow)
  subst hsettings
  obtain ⟨decoded, user, hdecoded, hdecodedUser, hprincipal, hsame⟩ :=
    hgranted.decoded hA hR.spring hdef hmail hplain
  intro s'
  have hvalue : Y.decode s' (Y.encode tokens.access) = some tokens.access :=
    decode_run (decode_access houtcome hfresh) es
  have hlive := @Granted.live_iff Y hA _ _ _ _ _ _ _ _ _ _ _ _ hgranted s'.clock
  have haudience := hgranted.audience_iff hA hpassword
  constructor
  · intro hgood hmay
    refine (ResourceServerConfiguration.request_of_acceptable hR hvalue
      (acceptable_iff.mpr ⟨hlive.mpr hgood, haudience.mpr hmay⟩) hdecoded).trans ?_
    rw [ResourceController.get_of_user hdecodedUser, hprincipal]
    simp only [hsame]
  · intro hnot
    refine ResourceServerConfiguration.refused_of_claims hR fun m hm => ?_
    rw [hvalue] at hm
    cases hm
    refine ⟨hgranted.tokenReadable_access hA, fun h => ⟨?_, fun h' => ?_⟩⟩
    · exact (CustomAccessTokenConverter.authenticationReadable_iff hR.spring).mp
        ⟨decoded, hdecoded⟩
    · exact hnot ⟨hlive.mp h, haudience.mp h'⟩

/-- A refresh token is refused at every handler, before and after its expiration, and never ends in
an answer or an exception. -/
theorem refresh_token_life {m : ClaimsMap} (hm : tokens.refresh = some m)
    (hfresh : Y.decode s (Y.encode m) = none) (hother : Y.encode tokens.access ≠ Y.encode m)
    (es : List ServersEvent) (endpoint : ResourceController.Endpoint) :
    Y.reply (Y.machine.run s (.requestToken ps client ids :: es)) (some (Y.encode m)) endpoint =
      .refused := by
  obtain ⟨name, u, row, a, hgranted⟩ := (hs.inv hA).granted hA houtcome
  have hvalue : Y.decode (Y.machine.run s (.requestToken ps client ids :: es)) (Y.encode m) =
      some m := decode_run (decode_refresh houtcome hm hfresh hother) es
  refine ResourceServerConfiguration.refused_of_claims hR fun m' hm' => ?_
  rw [hvalue] at hm'
  cases hm'
  refine ⟨hgranted.tokenReadable_refresh hA hm, fun hlive => ?_⟩
  obtain ⟨id, hati⟩ := hgranted.ati_refresh hA hm
  have haccess := hlive.access
  rw [hati] at haccess
  cases haccess

end Login

/-! Alice's tokens after she is removed from the table. -/

theorem access_token_of_alice_outlives_her_row :
    ∃ tokens, (referenceServers.postAccessToken stateOfAlice loginParameters webClient
        ⟨"1", "2"⟩).1 = .ok tokens ∧
      referenceServers.reply
          (referenceServers.machine.run stateOfAlice
            [.requestToken loginParameters webClient ⟨"1", "2"⟩, .changeUsers emptyTable,
              .pass 1600000900000])
          (some (referenceServers.encode tokens.access)) .users =
        .answered (.body "ResourceController.secured:alice alice@mail") := by
  obtain ⟨tokens, htokens⟩ : ∃ tokens, (referenceServers.postAccessToken stateOfAlice
      loginParameters webClient ⟨"1", "2"⟩).1 = .ok tokens := ⟨_, rfl⟩
  have hplain : ∀ t, some t ∈ (userWithEmail (some "alice@mail")).titles → PlainTitle t := by
    intro t ht
    cases List.mem_singleton.mp ht
    decide
  refine ⟨tokens, htokens, ((access_token_life referenceConfiguration_documented
    ResourceServerConfiguration.referenceServer_documented
    ⟨stateOfAlice, [], initial_stateOfAlice, rfl⟩ htokens rfl rfl rfl rfl rfl hplain rfl
    [.changeUsers emptyTable, .pass 1600000900000] .users).1 ?_ (Or.inr (by decide))).trans rfl⟩
  intro time htime
  cases htime
  decide

theorem refresh_token_of_alice_never_answered :
    ∃ tokens m, (referenceServers.postAccessToken stateOfAlice loginParameters webClient
        ⟨"1", "2"⟩).1 = .ok tokens ∧ tokens.refresh = some m ∧
      referenceServers.reply
          (referenceServers.machine.run stateOfAlice
            [.requestToken loginParameters webClient ⟨"1", "2"⟩])
          (some (referenceServers.encode m)) .common = .refused :=
  ⟨_, _, rfl, rfl, refresh_token_life referenceConfiguration_documented
    ResourceServerConfiguration.referenceServer_documented
    ⟨stateOfAlice, [], initial_stateOfAlice, rfl⟩ rfl rfl rfl (by decide) [] .common⟩

end Contract
