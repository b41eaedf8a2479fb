import Mathlib.Data.List.Induction
import SecurityOAuth2Jwt.Common.JavaMap

/-!
# Proofs: entries stored one after another

Of several values stored under one key the last one stays. So the map holds every value, and does
not depend on the order of the entries, exactly when no key comes with two values.
-/

namespace JavaMap

variable {κ ν : Type*}

/-- Entries with the same key have the same value. -/
def OneValuePerKey (entries : List (κ × ν)) : Prop :=
  ∀ e ∈ entries, ∀ e' ∈ entries, e.1 = e'.1 → e.2 = e'.2

variable [DecidableEq κ]

theorem puts_concat (m : JavaMap κ ν) (entries : List (κ × ν)) (e : κ × ν) :
    m.puts (entries ++ [e]) = (m.puts entries).put e.1 e.2 := by
  unfold puts
  rw [List.foldl_append]
  rfl

/-- A key holds the value of the last entry with that key, or what it held before if there is
none. -/
theorem find?_puts (m : JavaMap κ ν) (entries : List (κ × ν)) (k : κ) :
    (m.puts entries).find? k =
      ((entries.reverse.find? fun e => decide (e.1 = k)).map Prod.snd).or (m.find? k) := by
  induction entries using List.reverseRecOn with
  | nil => rfl
  | append_singleton entries e ih =>
    rw [puts_concat, find?_put, List.reverse_concat, List.find?_cons]
    by_cases hk : k = e.1
    · simp [hk]
    · simp [hk, Ne.symm hk, ih]

/-- A key holds the value of an entry with that key, or what it held before if there is none. -/
theorem find?_puts_cases (m : JavaMap κ ν) (entries : List (κ × ν)) (k : κ) :
    (∃ v, (k, v) ∈ entries ∧ (m.puts entries).find? k = some v) ∨
      (∀ v, (k, v) ∉ entries) ∧ (m.puts entries).find? k = m.find? k := by
  rw [find?_puts]
  cases hlast : entries.reverse.find? fun e => decide (e.1 = k) with
  | none =>
    refine Or.inr ⟨fun v hv => ?_, rfl⟩
    have hnone := List.find?_eq_none.mp hlast (k, v) (List.mem_reverse.mpr hv)
    exact hnone (decide_eq_true rfl)
  | some e =>
    have hkey := List.find?_some hlast
    rw [decide_eq_true_iff] at hkey
    subst hkey
    exact Or.inl ⟨e.2, List.mem_reverse.mp (List.mem_of_find?_eq_some hlast), rfl⟩

theorem find?_puts_of_mem {m : JavaMap κ ν} {entries : List (κ × ν)} {e : κ × ν}
    (he : e ∈ entries) :
    ∃ e' ∈ entries, e'.1 = e.1 ∧ (m.puts entries).find? e.1 = some e'.2 := by
  rcases find?_puts_cases m entries e.1 with ⟨v, hv, hfind⟩ | ⟨hnone, -⟩
  · exact ⟨(e.1, v), hv, rfl, hfind⟩
  · exact absurd he (hnone e.2)

/-- The last entry stays. -/
theorem find?_puts_concat (m : JavaMap κ ν) (entries : List (κ × ν)) (e : κ × ν) :
    (m.puts (entries ++ [e])).find? e.1 = some e.2 := by
  rw [puts_concat, find?_put, if_pos rfl]

/-- Every entry can be read back exactly when no key comes with two values. -/
theorem puts_recovers_iff {m : JavaMap κ ν} {entries : List (κ × ν)} :
    (∀ e ∈ entries, (m.puts entries).find? e.1 = some e.2) ↔ OneValuePerKey entries := by
  constructor
  · intro h e he e' he' hkey
    have hfind := h e he
    rw [hkey, h e' he'] at hfind
    exact (Option.some.inj hfind).symm
  · intro h e he
    obtain ⟨e', he', hkey, hfind⟩ := find?_puts_of_mem (m := m) he
    rw [hfind, h e' he' e he hkey]

/-- The map does not depend on the order of the entries exactly when no key comes with two
values. -/
theorem puts_perm_iff {m : JavaMap κ ν} {entries : List (κ × ν)} :
    (∀ entries', entries'.Perm entries → m.puts entries' = m.puts entries) ↔
      OneValuePerKey entries := by
  constructor
  · intro h e he e' he' hkey
    -- either entry can be made the last one
    have hlast : ∀ e ∈ entries, (m.puts entries).find? e.1 = some e.2 := by
      intro e he
      obtain ⟨front, back, rfl⟩ := List.append_of_mem he
      have hperm : (front ++ back ++ [e]).Perm (front ++ e :: back) := by
        rw [List.append_assoc]
        exact (List.perm_append_singleton e back).append_left front
      rw [← h _ hperm]
      exact find?_puts_concat m _ e
    exact puts_recovers_iff.mp hlast e he e' he' hkey
  · intro h entries' hperm
    ext1
    funext k
    rcases find?_puts_cases m entries k with ⟨v, hv, hfind⟩ | ⟨hnone, hfind⟩
    · obtain ⟨e', he', hkey, hfind'⟩ := find?_puts_of_mem (m := m) (hperm.mem_iff.mpr hv)
      rw [hfind, hfind', h e' (hperm.mem_iff.mp he') (k, v) hv hkey]
    · rcases find?_puts_cases m entries' k with ⟨v, hv, -⟩ | ⟨-, hfind'⟩
      · exact absurd (hperm.mem_iff.mp hv) (hnone v)
      · rw [hfind, hfind']

end JavaMap
