import SecurityOAuth2Jwt.Common.Occurrence

/-!
# Proofs: first occurrences and letterwise rewriting

The word occurs in the rewritten text first where the image of its first occurrence in the text
begins. So the two places agree only as far as the rewriting keeps the length of what is in front.
-/

namespace Occurrence

variable {α β : Type*}

/-! ## First occurrences -/

section FirstMatch

variable {r : β → α → Prop} [DecidableRel r] {word : List α}

theorem firstMatch_of_matches {text : List β} (h : MatchesPrefix r word text) :
    firstMatch r word text = some 0 := by
  cases text with
  | nil => simp [firstMatch, h]
  | cons b text => simp [firstMatch, h]

/-- The place of the first occurrence: the word stands there, and nowhere before. -/
theorem firstMatch_eq_some_iff {text : List β} {i : Nat} :
    firstMatch r word text = some i ↔
      i ≤ text.length ∧ MatchesPrefix r word (text.drop i) ∧
        ∀ j < i, ¬ MatchesPrefix r word (text.drop j) := by
  induction text generalizing i with
  | nil =>
    rw [firstMatch]
    by_cases h : MatchesPrefix r word []
    · rw [if_pos h]
      constructor
      · intro hi
        cases hi
        simp [h]
      · rintro ⟨hi, -, -⟩
        simpa using (Nat.le_zero.mp hi).symm
    · simp [h]
  | cons b text ih =>
    rw [firstMatch]
    by_cases h : MatchesPrefix r word (b :: text)
    · rw [if_pos h]
      constructor
      · intro hi
        cases hi
        simp [h]
      · rintro ⟨-, -, hbefore⟩
        by_contra hne
        have hpos : 0 < i := Nat.pos_of_ne_zero fun hzero => hne (by rw [hzero])
        exact hbefore 0 hpos h
    · rw [if_neg h]
      cases i with
      | zero => simp [h]
      | succ i =>
        have hrest : (firstMatch r word text).map (· + 1) = some (i + 1) ↔
            firstMatch r word text = some i := by simp
        rw [hrest, ih]
        constructor
        · rintro ⟨hi, hmatch, hbefore⟩
          refine ⟨Nat.succ_le_succ hi, hmatch, fun j hj => ?_⟩
          cases j with
          | zero => exact h
          | succ j => exact hbefore j (Nat.lt_of_succ_lt_succ hj)
        · rintro ⟨hi, hmatch, hbefore⟩
          exact ⟨Nat.le_of_succ_le_succ hi, hmatch,
            fun j hj => hbefore (j + 1) (Nat.succ_lt_succ hj)⟩

/-- Letters at which the word does not stand are passed over. -/
theorem firstMatch_append {front text : List β}
    (h : ∀ j < front.length, ¬ MatchesPrefix r word (front.drop j ++ text)) :
    firstMatch r word (front ++ text) = (firstMatch r word text).map (· + front.length) := by
  induction front with
  | nil => simp
  | cons b front ih =>
    have hfirst : ¬ MatchesPrefix r word (b :: (front ++ text)) := h 0 (Nat.succ_pos _)
    have hrest := ih fun j hj => h (j + 1) (Nat.succ_lt_succ hj)
    rw [List.cons_append, firstMatch, if_neg hfirst, hrest, Option.map_map]
    rfl

end FirstMatch

/-! ## Rewriting -/

section Rewriting

variable {r : β → α → Prop} {letters : List α} {image : List β → β → List β → List α}

variable (h : Recases r letters image)

include h

/-- A word that stands at the front of a text stands at the front of the rewritten text. -/
theorem matchesPrefix_rewriteIn {word : List α} (hword : ∀ a ∈ word, a ∈ letters)
    {text : List β} (hmatch : MatchesPrefix r word text) (before after : List β) :
    MatchesPrefix (· = ·) word (rewriteIn image before text after) := by
  induction word generalizing before text with
  | nil => trivial
  | cons a word ih =>
    cases text with
    | nil => exact hmatch.elim
    | cons b text =>
      obtain ⟨hb, hrest⟩ := hmatch
      have ha : a ∈ letters := hword a (List.mem_cons_self ..)
      rw [rewriteIn, h.image_eq a ha before b _ hb]
      exact ⟨rfl, ih (fun x hx => hword x (List.mem_cons_of_mem _ hx)) hrest _⟩

/-- Behind a letter of the word, the rest of the word at the front of the rewritten text comes from
the front of the text: no image is skipped. -/
theorem matchesPrefix_of_rewriteIn {word : List α} (hword : ∀ a ∈ word, a ∈ letters)
    {a : α} (ha : a ∈ letters) {b : β} (hb : r b a) {before text : List β}
    (hmatch : MatchesPrefix (· = ·) word (rewriteIn image (before ++ [b]) text [])) :
    MatchesPrefix r word text := by
  induction word generalizing a b before text with
  | nil => trivial
  | cons a' word ih =>
    cases text with
    | nil => exact hmatch.elim
    | cons c text =>
      have ha' : a' ∈ letters := hword a' (List.mem_cons_self ..)
      obtain ⟨x, xs, hx⟩ := List.exists_cons_of_ne_nil
        (h.image_ne_nil a ha before b c (text ++ []) hb)
      rw [rewriteIn, hx, List.cons_append] at hmatch
      obtain ⟨rfl, hrest⟩ := hmatch
      have hmem : x ∈ image (before ++ [b]) c (text ++ []) := by
        rw [hx]
        exact List.mem_cons_self ..
      have hc : r c x := h.stands x ha' (before ++ [b]) c (text ++ []) hmem
      -- the image of `c` is one letter, so the rest of the word stands behind it
      have himage := h.image_eq x ha' (before ++ [b]) c (text ++ []) hc
      rw [hx] at himage
      obtain rfl : xs = [] := (List.cons.inj himage).2
      exact ⟨hc, ih (fun y hy => hword y (List.mem_cons_of_mem _ hy)) ha' hc hrest⟩

/-- A word stands somewhere in the image of the first letter of a rewritten text only if it stands
at the front of the text. -/
theorem matchesPrefix_of_image {word : List α} (hne : word ≠ [])
    (hword : ∀ a ∈ word, a ∈ letters) {before text : List β} {b : β} {j : Nat}
    (hj : j < (image before b (text ++ [])).length)
    (hmatch : MatchesPrefix (· = ·) word ((image before b (text ++ [])).drop j ++
      rewriteIn image (before ++ [b]) text [])) :
    MatchesPrefix r word (b :: text) := by
  obtain ⟨a, word, rfl⟩ := List.exists_cons_of_ne_nil hne
  have ha : a ∈ letters := hword a (List.mem_cons_self ..)
  rw [List.drop_eq_getElem_cons hj, List.cons_append] at hmatch
  obtain ⟨hletter, hrest⟩ := hmatch
  have hmem : a ∈ image before b (text ++ []) := hletter ▸ List.getElem_mem hj
  have hb : r b a := h.stands a ha before b (text ++ []) hmem
  have himage := h.image_eq a ha before b (text ++ []) hb
  rw [himage] at hj hrest
  obtain rfl : j = 0 := by simpa using hj
  exact ⟨hb, matchesPrefix_of_rewriteIn h (fun x hx => hword x (List.mem_cons_of_mem _ hx)) ha hb
    hrest⟩

/-- The first occurrence in the rewritten text is the image of the first occurrence in the text. -/
theorem firstMatch_rewriteIn [DecidableRel r] [DecidableEq α] {word : List α} (hne : word ≠ [])
    (hword : ∀ a ∈ word, a ∈ letters) (before text : List β) :
    firstMatch (· = ·) word (rewriteIn image before text []) =
      (firstMatch r word text).map fun i =>
        (rewriteIn image before (text.take i) (text.drop i)).length := by
  induction text generalizing before with
  | nil =>
    obtain ⟨a, word, rfl⟩ := List.exists_cons_of_ne_nil hne
    simp [firstMatch, rewriteIn, MatchesPrefix]
  | cons b text ih =>
    by_cases hmatch : MatchesPrefix r word (b :: text)
    · rw [firstMatch_of_matches hmatch,
        firstMatch_of_matches (matchesPrefix_rewriteIn h hword hmatch before [])]
      simp [rewriteIn]
    · rw [rewriteIn, firstMatch_append fun j hj hstands =>
        hmatch (matchesPrefix_of_image h hne hword hj hstands), ih, firstMatch, if_neg hmatch,
        Option.map_map, Option.map_map]
      congr 1
      funext i
      simp [rewriteIn, Nat.add_comm]

end Rewriting

end Occurrence
