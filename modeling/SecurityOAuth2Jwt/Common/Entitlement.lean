import SecurityOAuth2Jwt.Common.Machine
import Mathlib.Data.Set.Basic

/-!
# Entitlement: grants that follow a registry

A registry says which titles a holder has now; a holder who is not in good standing has none. A
scope is permitted if one of the titles that stand for it is among them. The issuer answers a
request with the permitted part of the requested scopes, as of the registry at that moment.
-/

namespace Entitlement

variable {ν τ σ : Type*}

/-- The titles of every holder in good standing. -/
abbrev Registry (ν τ : Type*) := ν → Option (Set τ)

/-- One of the titles that stand for the scope is among `titles`. -/
def Permits (stands : σ → Set τ) (titles : Set τ) (s : σ) : Prop := ∃ t ∈ stands s, t ∈ titles

/-- The permitted part of the requested scopes. -/
def granted (stands : σ → Set τ) (titles : Set τ) (requested : Set σ) : Set σ :=
  {s | s ∈ requested ∧ Permits stands titles s}

/-- The registry changes, or a holder requests scopes. -/
inductive Event (ν τ σ : Type*) where
  | change (registry : Registry ν τ)
  | request (holder : Option ν) (requested : Set σ)

/-- The machine that grants what the registry permits at the time of the request. -/
def issuer (stands : σ → Set τ) :
    Machine (Registry ν τ) (Event ν τ σ) (Option (Set σ)) where
  step registry
    | .change registry' => (registry', none)
    | .request holder requested =>
      (registry, (holder.bind registry).map fun titles => granted stands titles requested)

variable {stands : σ → Set τ}

/-- Fewer titles permit fewer scopes. -/
theorem granted_mono {titles titles' : Set τ} (h : titles ⊆ titles') (requested : Set σ) :
    granted stands titles requested ⊆ granted stands titles' requested := by
  rintro s ⟨hs, t, ht, hmem⟩
  exact ⟨hs, t, ht, h hmem⟩

/-- A grant names a holder in good standing and is the permitted part of the request. -/
theorem issuer_output_eq_some {registry : Registry ν τ} {holder : Option ν} {requested : Set σ}
    {grant : Set σ} :
    ((issuer stands).step registry (.request holder requested)).2 = some grant ↔
      ∃ h titles, holder = some h ∧ registry h = some titles ∧
        grant = granted stands titles requested := by
  show (holder.bind registry).map _ = some grant ↔ _
  rw [Option.map_eq_some_iff]
  constructor
  · rintro ⟨titles, hbind, rfl⟩
    obtain ⟨h, hh, ht⟩ := Option.bind_eq_some_iff.mp hbind
    exact ⟨h, titles, hh, ht, rfl⟩
  · rintro ⟨h, titles, rfl, ht, rfl⟩
    exact ⟨titles, Option.bind_eq_some_iff.mpr ⟨h, rfl, ht⟩, rfl⟩

/-- In every run, a grant is the part of the request that the registry of that moment permits. -/
theorem issuer_run_sound {registry : Registry ν τ} {es : List (Event ν τ σ)}
    {x : Machine.Entry (Registry ν τ) (Event ν τ σ) (Option (Set σ))}
    (hx : x ∈ (issuer stands).trace registry es) {holder : Option ν} {requested grant : Set σ}
    (hevent : x.event = .request holder requested) (hgrant : x.output = some grant) :
    ∃ h titles, holder = some h ∧ x.before h = some titles ∧
      grant = granted stands titles requested := by
  obtain ⟨-, -, -, -, ho⟩ := (issuer stands).mem_trace hx
  rw [ho, hevent] at hgrant
  exact issuer_output_eq_some.mp hgrant

end Entitlement
