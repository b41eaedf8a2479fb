import SecurityOAuth2Jwt.Common.Refinement
import Mathlib.Order.WithBot

/-!
# Attestation: credentials that outlive what they say

An authority keeps a registry of holders and signs credentials that record what the registry says of
a holder at that moment. A verifier sees the credential and the clock but not the registry, and
honours the credential until its deadline. A holder gives proof of identity, or hands in an earlier
credential that is kept for renewal.
-/

namespace Attestation

variable {ν κ τ β : Type*}

/-- A credential is presented for access or kept for renewal. -/
inductive Purpose where
  | access
  | renewal
  deriving DecidableEq, Repr

/-- What the registry said of the holder; a credential without a deadline is good for ever. -/
structure Credential (ν κ τ : Type*) where
  holder : ν
  content : κ
  deadline : WithTop τ
  purpose : Purpose

/-- What is to be signed, and the value under which it is presented. -/
structure Ticket (τ β : Type*) where
  value : β
  deadline : WithTop τ
  purpose : Purpose

/-- What the holder shows to get credentials. -/
inductive Basis (β : Type*) where
  | proof
  | renewal (value : β)

structure State (ν κ τ β : Type*) where
  registry : ν → Option κ
  now : τ
  signed : β → Option (Credential ν κ τ)

/-- The registry changes, time passes, a holder asks for credentials, or a value is presented to the
verifier. -/
inductive Event (ν κ τ β : Type*) where
  | change (registry : ν → Option κ)
  | pass (time : τ)
  | issue (holder : ν) (basis : Basis β) (tickets : List (Ticket τ β))
  | present (value : β)

/-- The basis is a proof, or a renewal credential of the holder. -/
def Supports (s : State ν κ τ β) (holder : ν) : Basis β → Prop
  | .proof => True
  | .renewal value => ∃ c, s.signed value = some c ∧ c.holder = holder ∧ c.purpose = .renewal

variable [DecidableEq β]

/-- A value stands for one credential, so it is not signed again. -/
def sign (holder : ν) (content : κ) (signed : β → Option (Credential ν κ τ))
    (ticket : Ticket τ β) : β → Option (Credential ν κ τ) := fun value =>
  if value = ticket.value then
    (signed value).or (some ⟨holder, content, ticket.deadline, ticket.purpose⟩)
  else signed value

def signAll (holder : ν) (content : κ) (signed : β → Option (Credential ν κ τ))
    (tickets : List (Ticket τ β)) : β → Option (Credential ν κ τ) :=
  tickets.foldl (sign holder content) signed

open Classical in
/-- The authority and the verifier. The output is the credential that is honoured. -/
noncomputable def authority [LinearOrder τ] :
    Machine (State ν κ τ β) (Event ν κ τ β) (Option (Credential ν κ τ)) where
  step s
    | .change registry => ({ s with registry }, none)
    | .pass time => ({ s with now := max s.now time }, none)
    | .issue holder basis tickets =>
      match s.registry holder with
      | some content =>
        if Supports s holder basis then
          ({ s with signed := signAll holder content s.signed tickets }, none)
        else (s, none)
      | none => (s, none)
    | .present value =>
      (s, (s.signed value).filter fun c => decide (c.purpose = .access ∧ ↑s.now ≤ c.deadline))

/-! ## One step -/

/-- What is signed afterwards was signed before or is one of the tickets. -/
theorem sign_eq_some {holder : ν} {content : κ} {signed : β → Option (Credential ν κ τ)}
    {ticket : Ticket τ β} {value : β} {c : Credential ν κ τ}
    (h : sign holder content signed ticket value = some c) :
    signed value = some c ∨
      (ticket = ⟨value, c.deadline, c.purpose⟩ ∧ c.holder = holder ∧ c.content = content) := by
  unfold sign at h
  split_ifs at h with hvalue
  · cases hsigned : signed value with
    | some c' =>
      rw [hsigned] at h
      exact Or.inl h
    | none =>
      rw [hsigned, Option.none_or] at h
      cases h
      subst hvalue
      exact Or.inr ⟨rfl, rfl, rfl⟩
  · exact Or.inl h

theorem signAll_eq_some {holder : ν} {content : κ} {tickets : List (Ticket τ β)}
    {signed : β → Option (Credential ν κ τ)} {value : β} {c : Credential ν κ τ}
    (h : signAll holder content signed tickets value = some c) :
    signed value = some c ∨
      (⟨value, c.deadline, c.purpose⟩ ∈ tickets ∧ c.holder = holder ∧ c.content = content) := by
  unfold signAll at h
  induction tickets generalizing signed with
  | nil => exact Or.inl h
  | cons ticket tickets ih =>
    rcases ih h with hsign | ⟨hmem, hc⟩
    · rcases sign_eq_some hsign with hold | ⟨rfl, hc⟩
      · exact Or.inl hold
      · exact Or.inr ⟨List.mem_cons_self .., hc⟩
    · exact Or.inr ⟨List.mem_cons_of_mem _ hmem, hc⟩

variable [LinearOrder τ]

/-- The request is granted: the registry has the holder, and the basis supports the request. -/
def Granted (s : State ν κ τ β) (holder : ν) (basis : Basis β) (content : κ) : Prop :=
  s.registry holder = some content ∧ Supports s holder basis

open Classical in
theorem issue_of_granted {s : State ν κ τ β} {holder : ν} {basis : Basis β} {content : κ}
    (h : Granted s holder basis content) (tickets : List (Ticket τ β)) :
    (authority.step s (.issue holder basis tickets)).1 =
      { s with signed := signAll holder content s.signed tickets } := by
  obtain ⟨hregistry, hsupports⟩ := h
  simp only [authority, hregistry, if_pos hsupports]

/-- A credential that a step signs records what the registry says of its holder at that moment. -/
theorem signed_step {s : State ν κ τ β} {e : Event ν κ τ β} {value : β} {c : Credential ν κ τ}
    (h : (authority.step s e).1.signed value = some c) :
    s.signed value = some c ∨ ∃ basis tickets, e = .issue c.holder basis tickets ∧
      Granted s c.holder basis c.content ∧ ⟨value, c.deadline, c.purpose⟩ ∈ tickets := by
  cases e with
  | change registry => exact Or.inl h
  | pass time => exact Or.inl h
  | present value' => exact Or.inl h
  | issue holder basis tickets =>
    cases hregistry : s.registry holder with
    | none =>
      simp only [authority, hregistry] at h
      exact Or.inl h
    | some content =>
      by_cases hsupports : Supports s holder basis
      · rw [issue_of_granted ⟨hregistry, hsupports⟩] at h
        rcases signAll_eq_some h with hold | ⟨hmem, rfl, rfl⟩
        · exact Or.inl hold
        · exact Or.inr ⟨basis, tickets, rfl, ⟨hregistry, hsupports⟩, hmem⟩
      · simp only [authority, hregistry, if_neg hsupports] at h
        exact Or.inl h

open Classical in
/-- The verifier honours what was signed for access until the deadline. -/
theorem honoured_iff {s : State ν κ τ β} {value : β} {c : Credential ν κ τ} :
    (authority.step s (.present value)).2 = some c ↔
      s.signed value = some c ∧ c.purpose = .access ∧ ↑s.now ≤ c.deadline := by
  show (s.signed value).filter _ = some c ↔ _
  rw [Option.filter_eq_some_iff, decide_eq_true_eq]

/-! ## Runs -/

/-- In every run that starts with nothing signed, a signed credential was issued at one of the
steps, and records what the registry said of its holder then. -/
theorem signed_run {s : State ν κ τ β} {es : List (Event ν κ τ β)} {value : β}
    {c : Credential ν κ τ} (hs : s.signed value = none)
    (h : (authority.run s es).signed value = some c) :
    ∃ pre basis tickets post, es = pre ++ .issue c.holder basis tickets :: post ∧
      Granted (authority.run s pre) c.holder basis c.content ∧
      ⟨value, c.deadline, c.purpose⟩ ∈ tickets := by
  have hnot : ¬ s.signed value = some c := by
    simp [hs]
  obtain ⟨pre, e, post, rfl, hpre, hstep⟩ :=
    authority.exists_step_of_run (P := fun t => t.signed value = some c) hnot h
  rcases signed_step hstep with hold | ⟨basis, tickets, rfl, hgranted, hmem⟩
  · exact absurd hold hpre
  · exact ⟨pre, basis, tickets, post, rfl, hgranted, hmem⟩

/-- In every run that starts with nothing signed, the holder of a signed credential gave proof of
identity at one of the steps: renewals lead back to it. -/
theorem proof_run {s : State ν κ τ β} (hs : ∀ value, s.signed value = none)
    {es : List (Event ν κ τ β)} {value : β} {c : Credential ν κ τ}
    (h : (authority.run s es).signed value = some c) :
    ∃ pre content tickets post, es = pre ++ .issue c.holder .proof tickets :: post ∧
      Granted (authority.run s pre) c.holder .proof content := by
  -- the basis of a renewal was signed earlier, so the induction is on the length of the run
  induction hlength : es.length using Nat.strong_induction_on generalizing es value c with
  | _ n ih =>
    obtain ⟨pre, basis, tickets, post, rfl, hgranted, -⟩ := signed_run (hs value) h
    cases basis with
    | proof => exact ⟨pre, c.content, tickets, post, rfl, hgranted⟩
    | renewal value' =>
      obtain ⟨-, c', hsigned, hholder, -⟩ := hgranted
      have hlt : pre.length < n := by
        rw [← hlength, List.length_append, List.length_cons]
        omega
      obtain ⟨pre', content, tickets', post', rfl, hproof⟩ := ih _ hlt hsigned rfl
      rw [hholder] at hproof
      refine ⟨pre', content, tickets', post' ++ .issue c.holder (.renewal value') tickets :: post,
        ?_, hproof⟩
      rw [hholder, List.append_assoc, List.cons_append]

end Attestation
