import SecurityOAuth2Jwt.Contract.Proofs.TokenLifeProofs

/-!
# Proofs: what a change of the tables reaches

Once no active row has the name of a user, nothing that names the user is signed any more, neither
for a password nor for a refresh token. The resource server does not notice: the reply to a token
that verifies changes at most once, to a refusal, and time is the only cause.
-/

namespace Contract

open Java Spring AuthorizationServer ResourceServer

section Revocation

variable {Y : Servers}

/-! ## New tokens -/

/-- The claims name the user. -/
def names (name : String) (m : ClaimsMap) : Bool :=
  decide (m.find? Claim.username = some (.str name))

/-- No active row of the table has the name. -/
def Barred (users : UserTable) (name : String) : Prop :=
  ∀ u, users.findByUsername name = some u → ¬ u.Active

/-- A step from a state where the name is barred signs nothing that names it. -/
theorem signed_step_barred (hA : Y.authorizationServer.Documented) {s : ServersState} (hs : Inv s)
    {name : String} (hbarred : Barred s.server.users name) (e : ServersEvent) :
    (Y.machine.step s e).1.signed.filter (names name) = s.signed.filter (names name) := by
  rcases signed_step s e with hsame | ⟨ps, client, ids, tokens, rfl, houtcome, hsigned⟩
  · rw [hsame]
  · obtain ⟨name', u, row, a, hgranted⟩ := hs.granted hA houtcome
    have hother : name' ≠ name := by
      rintro rfl
      exact hbarred u hgranted.found hgranted.active
    have hnothing : (Servers.signedFor (.ok tokens)).filter (names name) = [] := by
      refine List.filter_eq_nil_iff.mpr fun m hm hnames => hother ?_
      have hname := of_decide_eq_true hnames
      rw [(hgranted.claimsOf_signed hA hm).username] at hname
      cases hname
      rfl
    rw [hsigned, List.filter_append, hnothing, List.append_nil]

/-- In every run, the claims that name a user stay what they are as long as the table has no active
row for the name, whatever else happens and whatever tokens the user still holds. -/
theorem barred_user_signs_nothing (hA : Y.authorizationServer.Documented) {s : ServersState}
    (hs : Initial s) {before after : List ServersEvent} {name : String}
    (hbarred : ∀ mid post, after = mid ++ post →
      Barred (Y.machine.run s (before ++ mid)).server.users name) :
    (Y.machine.run s (before ++ after)).signed.filter (names name) =
      (Y.machine.run s before).signed.filter (names name) := by
  induction after using List.reverseRecOn with
  | nil => rw [List.append_nil]
  | append_singleton es e ih =>
    have hprefix := ih fun mid post hes =>
      hbarred mid (post ++ [e]) (by rw [hes, List.append_assoc])
    have hstate := hbarred es [e] rfl
    have hinv := hs.inv_run hA (before ++ es)
    rw [← hprefix, ← List.append_assoc, Y.machine.run_concat]
    exact signed_step_barred hA hinv hstate e

/-! ## Old tokens -/

/-- In every run, the reply to a token that verifies is the reply of the start or a refusal; so a
refused token stays refused, and no change of the tables, the clients or the context is noticed. -/
theorem reply_later (hR : Y.resourceServer.Documented) {s : ServersState} {value : String}
    {m : ClaimsMap} (h : Y.decode s value = some m) (es : List ServersEvent)
    (endpoint : ResourceController.Endpoint) :
    Y.reply (Y.machine.run s es) (some value) endpoint = Y.reply s (some value) endpoint ∨
      Y.reply (Y.machine.run s es) (some value) endpoint = .refused := by
  have hsame : Y.decode (Y.machine.run s es) value = Y.decode s value :=
    (decode_run h es).trans h.symm
  have hclock : s.clock ≤ (Y.machine.run s es).clock :=
    Int64.le_iff_toInt_le.mpr (clock_le_run s es)
  exact ResourceServerConfiguration.request_later hR hsame hclock

end Revocation

/-! Alice tries to refresh her token, and to log in again, after she is removed from the table. -/

theorem barred_alice_signs_nothing :
    (referenceServers.machine.run stateOfAlice
        ([.requestToken loginParameters webClient ⟨"1", "2"⟩, .changeUsers emptyTable] ++
          [.requestToken (refreshParametersOf "refresh 2") webClient ⟨"3", "4"⟩,
            .requestToken loginParameters webClient ⟨"5", "6"⟩])).signed.filter (names "alice") =
      (referenceServers.machine.run stateOfAlice
        [.requestToken loginParameters webClient ⟨"1", "2"⟩,
          .changeUsers emptyTable]).signed.filter (names "alice") := by
  refine barred_user_signs_nothing referenceConfiguration_documented initial_stateOfAlice ?_
  rintro mid post hes u hfound
  have husers : (referenceServers.machine.run stateOfAlice
      ([.requestToken loginParameters webClient ⟨"1", "2"⟩, .changeUsers emptyTable] ++
        mid)).server.users = emptyTable := by
    rcases mid with - | ⟨e₁, - | ⟨e₂, - | ⟨e₃, mid⟩⟩⟩ <;> cases hes <;> rfl
  rw [husers] at hfound
  cases hfound

def loggedIn : ServersState :=
  referenceServers.machine.run stateOfAlice [.requestToken loginParameters webClient ⟨"1", "2"⟩]

theorem reply_to_alice_later :
    ∃ m, referenceServers.decode loggedIn "access 1" = some m ∧
      (referenceServers.reply (referenceServers.machine.run loggedIn [.changeUsers emptyTable])
          (some "access 1") .users = referenceServers.reply loggedIn (some "access 1") .users ∨
        referenceServers.reply (referenceServers.machine.run loggedIn [.changeUsers emptyTable])
          (some "access 1") .users = .refused) := by
  have hsome : (referenceServers.decode loggedIn "access 1").isSome = true := rfl
  obtain ⟨m, hm⟩ := Option.isSome_iff_exists.mp hsome
  exact ⟨m, hm, reply_later ResourceServerConfiguration.referenceServer_documented hm
    [.changeUsers emptyTable] .users⟩

end Contract
