import SecurityOAuth2Jwt.Common.Proofs.PiecesProofs
import SecurityOAuth2Jwt.Common.Outcome
import SecurityOAuth2Jwt.Spring.Authentication

/-!
# Proofs: authority lists read from strings

The authority list of a comma-separated string consists of its tokens, and the list exists exactly
when every token has text. For a collection that is joined first, the tokens are those of the
elements.
-/

namespace Spring

open Java

/-- A title that survives the way through a comma-separated string. -/
def PlainTitle (t : String) : Prop := ',' ∉ t.toList ∧ trim t = t

instance (t : String) : Decidable (PlainTitle t) :=
  inferInstanceAs (Decidable (',' ∉ t.toList ∧ trim t = t))

theorem plainTitle_iff {t : String} : PlainTitle t ↔ Pieces.Plain ',' isTrimmed t.toList := by
  have htrim : trim t = t ↔ Pieces.trim isTrimmed t.toList = t.toList := by
    unfold trim
    rw [← String.toList_inj, String.toList_ofList]
  exact and_congr_right fun _ => htrim

/-! ## Tokens -/

theorem mem_tokenizeToStringArray {s t : String} :
    t ∈ tokenizeToStringArray s ↔ t.toList ∈ Pieces.tokens ',' isTrimmed s.toList := by
  unfold tokenizeToStringArray
  rw [List.mem_map]
  constructor
  · rintro ⟨l, hl, rfl⟩
    rwa [String.toList_ofList]
  · intro h
    exact ⟨t.toList, h, String.ofList_toList⟩

/-- The tokens of a joined list of strings are the tokens of the strings, in order. -/
theorem tokenize_intercalate (ss : List String) :
    tokenizeToStringArray (",".intercalate ss) = ss.flatMap tokenizeToStringArray := by
  unfold tokenizeToStringArray
  have hsep : ",".toList = [','] := by decide
  rw [String.toList_intercalate, hsep, Pieces.tokens_intercalate, List.flatMap_map,
    List.map_flatMap]

/-- The tokens of a list of titles are the titles again exactly when all titles are plain. -/
theorem flatMap_tokenize_same_iff {ss : List String} (htext : ∀ s ∈ ss, HasText s) :
    (∀ t, t ∈ ss.flatMap tokenizeToStringArray ↔ t ∈ ss) ↔ ∀ s ∈ ss, PlainTitle s := by
  have hne : ∀ l ∈ ss.map String.toList, l ≠ [] := by
    intro l hl
    obtain ⟨s, hs, rfl⟩ := List.mem_map.mp hl
    exact (htext s hs).toList_ne_nil
  have hword : ∀ t, t ∈ ss ↔ t.toList ∈ ss.map String.toList := by
    intro t
    simp [String.toList_inj]
  have htoken : ∀ t, t ∈ ss.flatMap tokenizeToStringArray ↔
      t.toList ∈ (ss.map String.toList).flatMap (Pieces.tokens ',' isTrimmed) := by
    intro t
    simp [mem_tokenizeToStringArray]
  have hplain : (∀ s ∈ ss, PlainTitle s) ↔
      ∀ l ∈ ss.map String.toList, Pieces.Plain ',' isTrimmed l := by
    simp [plainTitle_iff]
  rw [hplain, ← Pieces.flatMap_tokens_same_iff hne]
  constructor
  · intro h l
    have hl := h (String.ofList l)
    rwa [htoken, hword, String.toList_ofList] at hl
  · intro h t
    rw [htoken, hword]
    exact h t.toList

/-! ## Authority lists -/

/-- Texts that are all present are strings with text. -/
theorem exists_map_some_of_textPresent {rs : List (Option String)}
    (h : ∀ r ∈ rs, TextPresent r) : ∃ ss : List String, rs = ss.map some ∧ ∀ s ∈ ss, HasText s := by
  induction rs with
  | nil => exact ⟨[], rfl, by simp⟩
  | cons r rs ih =>
    obtain ⟨hr, hrs⟩ := List.forall_mem_cons.mp h
    obtain ⟨ss, rfl, htext⟩ := ih hrs
    cases r with
    | none => exact hr.elim
    | some s => exact ⟨s :: ss, rfl, List.forall_mem_cons.mpr ⟨hr, htext⟩⟩

section Documented

variable {S : SpringSecurity} (hS : S.Documented)

include hS

/-- An authority list is created exactly when all of its titles have text, with these titles. -/
theorem createAuthorityList_ok_iff {ss : List String} {as : List GrantedAuthority} :
    S.createAuthorityList (ss.map some) = .ok as ↔
      (∀ s ∈ ss, HasText s) ∧ as = ss.map GrantedAuthority.mk := by
  by_cases h : ∀ s ∈ ss, HasText s
  · rw [hS.createAuthorityList_text ss h]
    constructor
    · intro e
      cases e
      exact ⟨h, rfl⟩
    · rintro ⟨-, rfl⟩
      rfl
  · have hbad : ∃ r ∈ ss.map some, ¬ TextPresent r := by
      push Not at h
      obtain ⟨s, hs, hn⟩ := h
      exact ⟨some s, List.mem_map_of_mem hs, hn⟩
    obtain ⟨e, he, -⟩ := hS.createAuthorityList_no_text _ hbad
    rw [he]
    constructor
    · intro e'
      cases e'
    · rintro ⟨h', -⟩
      exact absurd h' h

/-- An authority list that exists was created from titles with text. -/
theorem createAuthorityList_ok {rs : List (Option String)} {as : List GrantedAuthority}
    (h : S.createAuthorityList rs = .ok as) :
    ∃ ss : List String, rs = ss.map some ∧ (∀ s ∈ ss, HasText s) ∧
      as = ss.map GrantedAuthority.mk := by
  have hall : ∀ r ∈ rs, TextPresent r := by
    by_contra hbad
    push Not at hbad
    obtain ⟨e, he, -⟩ := hS.createAuthorityList_no_text rs hbad
    rw [he] at h
    cases h
  obtain ⟨ss, rfl, -⟩ := exists_map_some_of_textPresent hall
  obtain ⟨htext, has⟩ := (createAuthorityList_ok_iff hS).mp h
  exact ⟨ss, rfl, htext, has⟩

/-- The authorities of a joined collection of strings are the tokens of its elements. -/
theorem commaSeparated_join_ok_iff {ss : List String} {as : List GrantedAuthority} :
    S.commaSeparatedStringToAuthorityList
        (S.collectionToCommaDelimitedString (ss.map Elem.str)) = .ok as ↔
      (∀ t ∈ ss.flatMap tokenizeToStringArray, HasText t) ∧
        as = (ss.flatMap tokenizeToStringArray).map GrantedAuthority.mk := by
  have htext : (ss.map Elem.str).map Elem.text = ss := by
    rw [List.map_map]
    exact (List.map_congr_left fun _ _ => rfl).trans (List.map_id ss)
  rw [hS.commaDelimited, htext, hS.commaSeparated, tokenize_intercalate,
    createAuthorityList_ok_iff hS]

end Documented

end Spring
