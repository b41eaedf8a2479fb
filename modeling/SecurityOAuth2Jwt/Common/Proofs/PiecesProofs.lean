import SecurityOAuth2Jwt.Common.Pieces

/-!
# Proofs: separated text

Joining words with the separator and cutting the result again yields the tokens of every word, so
the words themselves come back exactly when all of them are `Plain`.
-/

namespace Pieces

variable {α : Type*}

/-! ## Trimming -/

@[simp] theorem trim_nil (p : α → Bool) : trim p ([] : List α) = [] := by
  simp [trim]

/-- A trimmed text is part of the original text. -/
theorem mem_of_mem_trim {p : α → Bool} {l : List α} {a : α} (h : a ∈ trim p l) : a ∈ l := by
  have hpre : a ∈ l.dropWhile p := (List.rdropWhile_prefix p _).subset h
  exact (List.dropWhile_suffix p).subset hpre

/-- The first letter of a text that survives `dropWhile` does not satisfy the predicate. -/
theorem dropWhile_eq_self_of_head {p : α → Bool} {l m : List α} (h : m <+: l.dropWhile p) :
    m.dropWhile p = m := by
  cases m with
  | nil => rfl
  | cons a m =>
    obtain ⟨r, hr⟩ := h
    have hne : l.dropWhile p ≠ [] := by rw [← hr]; simp
    have ha : ¬ p ((l.dropWhile p).head hne) := by
      simpa using List.head_dropWhile_not p hne
    have hhead : (l.dropWhile p).head hne = a := by simp [← hr]
    rw [hhead] at ha
    simp [ha]

/-- Trimming twice is trimming once. -/
theorem trim_trim (p : α → Bool) (l : List α) : trim p (trim p l) = trim p l := by
  unfold trim
  rw [dropWhile_eq_self_of_head (List.rdropWhile_prefix p _), List.rdropWhile_idempotent]

/-! ## Tokens of one text -/

section Tokens

variable [DecidableEq α] {sep : α} {p : α → Bool}

@[simp] theorem tokens_nil : tokens sep p [] = [] := by
  simp [tokens]

/-- No piece of a split text contains the separator. -/
theorem not_mem_of_mem_splitOn {l w : List α} (h : w ∈ l.splitOn sep) : sep ∉ w := by
  induction l generalizing w with
  | nil =>
    simp only [List.splitOn_nil, List.mem_singleton] at h
    simp [h]
  | cons a l ih =>
    rw [List.splitOn_cons_eq_if_modifyHead] at h
    split_ifs at h with ha
    · rcases List.mem_cons.mp h with rfl | h
      · simp
      · exact ih h
    -- a letter that is not the separator goes in front of the first piece
    · cases hs : l.splitOn sep with
      | nil => exact absurd hs (List.splitOn_ne_nil sep l)
      | cons v vs =>
        rw [hs, List.modifyHead_cons] at h
        rcases List.mem_cons.mp h with rfl | h
        · have hv : sep ∉ v := ih (by rw [hs]; exact List.mem_cons_self ..)
          have hne : sep ≠ a := fun e => ha (by simp [e])
          simp [hne, hv]
        · exact ih (by rw [hs]; exact List.mem_cons_of_mem _ h)

theorem mem_tokens {l t : List α} :
    t ∈ tokens sep p l ↔ (∃ w ∈ l.splitOn sep, trim p w = t) ∧ t ≠ [] := by
  simp [tokens]

/-- Every token is a non-empty plain word. -/
theorem plain_of_mem_tokens {l t : List α} (h : t ∈ tokens sep p l) : t ≠ [] ∧ Plain sep p t := by
  obtain ⟨⟨w, hw, rfl⟩, hne⟩ := mem_tokens.mp h
  have hsep : sep ∉ trim p w := fun hm => not_mem_of_mem_splitOn hw (mem_of_mem_trim hm)
  exact ⟨hne, hsep, trim_trim p w⟩

/-- A non-empty plain word is its own only token. -/
theorem tokens_of_plain {l : List α} (hne : l ≠ []) (h : Plain sep p l) : tokens sep p l = [l] := by
  obtain ⟨hsep, htrim⟩ := h
  simp [tokens, List.splitOn_eq_singleton hsep, htrim, hne]

/-! ## Tokens of a joined text -/

/-- Cutting a joined text at the separator cuts every one of the joined words. -/
theorem splitOn_intercalate_flatMap (ls : List (List α)) (hls : ls ≠ []) :
    ([sep].intercalate ls).splitOn sep = ls.flatMap (List.splitOn sep) := by
  induction ls with
  | nil => exact absurd rfl hls
  | cons l ls ih =>
    cases ls with
    | nil => simp
    | cons m ls =>
      rw [List.intercalate_cons_cons, List.append_assoc, List.singleton_append,
        List.splitOn_append_cons_self, ih (by simp)]
      simp

/-- The tokens of a joined text are the tokens of the joined words, in order. -/
theorem tokens_intercalate (ls : List (List α)) :
    tokens sep p ([sep].intercalate ls) = ls.flatMap (tokens sep p) := by
  by_cases hls : ls = []
  · subst hls
    simp
  · unfold tokens
    rw [splitOn_intercalate_flatMap ls hls, List.map_flatMap, List.filter_flatMap]

/-- Joining and cutting returns the set of joined words exactly when all of them are plain. -/
theorem flatMap_tokens_same_iff {ls : List (List α)} (hne : ∀ l ∈ ls, l ≠ []) :
    (∀ t, t ∈ ls.flatMap (tokens sep p) ↔ t ∈ ls) ↔ ∀ l ∈ ls, Plain sep p l := by
  constructor
  · intro h l hl
    obtain ⟨m, -, hm⟩ := List.mem_flatMap.mp ((h l).mpr hl)
    exact (plain_of_mem_tokens hm).2
  · intro h t
    rw [List.mem_flatMap]
    constructor
    · rintro ⟨l, hl, ht⟩
      rw [tokens_of_plain (hne l hl) (h l hl), List.mem_singleton] at ht
      exact ht ▸ hl
    · intro ht
      exact ⟨t, ht, by rw [tokens_of_plain (hne t ht) (h t ht)]; simp⟩

end Tokens

end Pieces
