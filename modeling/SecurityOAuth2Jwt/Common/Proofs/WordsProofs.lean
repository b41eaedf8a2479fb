import SecurityOAuth2Jwt.Common.Words

/-!
# Proofs: words of a spaced text

A text has exactly one list of words: the pieces between separators that are not empty. Dropping
the empty pieces at the end only leaves the words when the text is single-spaced.
-/

namespace Pieces

variable {α : Type*} {sep : α}

/-! ## The words of a text -/

/-- A letter in front of a text begins a word or lengthens the first one. -/
theorem Words.cons {a : α} (ha : a ≠ sep) {l : List α} {ws : List (List α)} (h : Words sep l ws) :
    ∃ ws', Words sep (a :: l) ws' := by
  have hsep : sep ∉ [a] := by simpa using ha.symm
  cases h with
  | nil => exact ⟨_, .last (by simp) hsep⟩
  | skip rest => exact ⟨_, .word (w := [a]) (by simp) hsep rest⟩
  | last _ letters =>
    have hsep' : sep ∉ a :: l := by simp [ha.symm, letters]
    exact ⟨_, .last (by simp) hsep'⟩
  | @word w _ _ _ letters rest =>
    have hsep' : sep ∉ a :: w := by simp [ha.symm, letters]
    exact ⟨_, .word (w := a :: w) (by simp) hsep' rest⟩

variable [DecidableEq α]

theorem Words.eq_words {l : List α} {ws : List (List α)} (h : Words sep l ws) :
    ws = words sep l := by
  unfold words
  induction h with
  | nil => simp
  | skip rest ih =>
    rw [List.splitOn_cons_eq_if_modifyHead]
    simpa using ih
  | last nonempty letters => simp [List.splitOn_eq_singleton letters, nonempty]
  | word nonempty letters rest ih =>
    rw [List.splitOn_append_cons_self, List.splitOn_eq_singleton letters]
    simp [nonempty, ih]

/-- Every text has words. -/
theorem exists_words (sep : α) (l : List α) : ∃ ws, Words sep l ws := by
  induction l with
  | nil => exact ⟨[], .nil⟩
  | cons a l ih =>
    obtain ⟨ws, hws⟩ := ih
    by_cases ha : a = sep
    · subst ha
      exact ⟨ws, .skip hws⟩
    · exact hws.cons ha

/-- The words of a text are its pieces that are not empty. -/
theorem words_iff {l : List α} {ws : List (List α)} : Words sep l ws ↔ ws = words sep l := by
  constructor
  · exact Words.eq_words
  · rintro rfl
    obtain ⟨ws, hws⟩ := exists_words sep l
    rwa [hws.eq_words] at hws

/-! ## Empty pieces -/

/-- The first piece is empty when the text is, or when it begins with a separator. -/
theorem head?_splitOn_eq_nil_iff {l : List α} :
    (l.splitOn sep).head? = some [] ↔ l = [] ∨ [sep] <+: l := by
  cases l with
  | nil => simp
  | cons a l =>
    obtain ⟨p, ps, hps⟩ := List.exists_cons_of_ne_nil (List.splitOn_ne_nil sep l)
    rw [List.splitOn_cons_eq_if_modifyHead, hps]
    by_cases ha : a = sep
    · simp [ha]
    · simp [ha, Ne.symm ha]

/-- Behind the first piece an empty one stands for a separator at the end or for two in a row. -/
theorem nil_mem_tail_splitOn_iff {l : List α} :
    [] ∈ (l.splitOn sep).tail ↔ [sep] <:+ l ∨ [sep, sep] <:+: l := by
  induction l with
  | nil => simp
  | cons a l ih =>
    obtain ⟨p, ps, hps⟩ := List.exists_cons_of_ne_nil (List.splitOn_ne_nil sep l)
    rw [List.splitOn_cons_eq_if_modifyHead, List.suffix_cons_iff, List.infix_cons_iff]
    by_cases ha : a = sep
    · subst ha
      have hhead : p = [] ↔ l = [] ∨ [a] <+: l := by
        rw [← head?_splitOn_eq_nil_iff, hps]
        simp
      have hempty : [a] = a :: l ↔ l = [] := by simp [eq_comm]
      have hdouble : [a, a] <+: a :: l ↔ [a] <+: l := by simp
      rw [hempty, hdouble]
      rw [hps, List.tail_cons] at ih
      simp only [hps, beq_self_eq_true, if_true, List.tail_cons, List.mem_cons, eq_comm (a := []),
        hhead, ih]
      exact or_or_or_comm
    -- another letter in front changes the first piece only
    · have hne : ¬ [sep] = a :: l := by simp [Ne.symm ha]
      have hno : ¬ [sep, sep] <+: a :: l := by simp [Ne.symm ha]
      rw [hps, List.tail_cons] at ih
      simp only [hps, beq_iff_eq, ha, if_false, List.modifyHead_cons, List.tail_cons, ih, hne, hno,
        false_or]

/-- Without a separator at the end, an empty piece stands for an empty text, a separator in front or
two in a row. -/
theorem nil_mem_splitOn_iff {l : List α} (hend : ¬ [sep] <:+ l) :
    [] ∈ l.splitOn sep ↔ l = [] ∨ [sep] <+: l ∨ [sep, sep] <:+: l := by
  have hhead : (l.splitOn sep).head? = some [] ↔ l = [] ∨ [sep] <+: l := head?_splitOn_eq_nil_iff
  have htail : [] ∈ (l.splitOn sep).tail ↔ [sep] <:+ l ∨ [sep, sep] <:+: l :=
    nil_mem_tail_splitOn_iff
  obtain ⟨p, ps, hps⟩ := List.exists_cons_of_ne_nil (List.splitOn_ne_nil sep l)
  rw [hps, List.head?_cons, Option.some.injEq] at hhead
  rw [hps, List.tail_cons] at htail
  rw [hps, List.mem_cons, eq_comm, hhead, htail, or_iff_right hend, or_assoc]

/-! ## Trailing empty pieces -/

/-- A letter at the end of a text lengthens the last piece. -/
theorem splitOn_concat_of_ne {a : α} (ha : a ≠ sep) (l : List α) :
    ∃ ps p, (l ++ [a]).splitOn sep = ps ++ [p ++ [a]] := by
  induction l with
  | nil =>
    have hsep : sep ∉ [a] := by simpa using ha.symm
    exact ⟨[], [], by simpa using List.splitOn_eq_singleton hsep⟩
  | cons b l ih =>
    obtain ⟨ps, p, h⟩ := ih
    rw [List.cons_append, List.splitOn_cons_eq_if_modifyHead, h]
    by_cases hb : b = sep
    · exact ⟨[] :: ps, p, by simp [hb]⟩
    · cases ps with
      | nil => exact ⟨[], b :: p, by simp [hb]⟩
      | cons q ps => exact ⟨(b :: q) :: ps, p, by simp [hb]⟩

omit [DecidableEq α] in
theorem dropEmptyEnd_of_not_mem {ps : List (List α)} (h : [] ∉ ps) : dropEmptyEnd ps = ps := by
  refine (List.rdropWhile_eq_self_iff).mpr fun hne hempty => h ?_
  have hlast := List.getLast_mem hne
  rwa [of_decide_eq_true hempty] at hlast

omit [DecidableEq α] in
/-- The empty pieces at the end are no words. -/
theorem filter_dropEmptyEnd (ps : List (List α)) :
    (dropEmptyEnd ps).filter (fun p => decide (p ≠ [])) = ps.filter fun p => decide (p ≠ []) := by
  have hempty : ∀ p ∈ ps.rtakeWhile (fun p => decide (p = [])), p = [] := by
    intro p hp
    simpa using List.mem_rtakeWhile_imp hp
  have hdropped : (ps.rtakeWhile fun p => decide (p = [])).filter
      (fun p => decide (p ≠ [])) = [] := by
    simpa using hempty
  conv_rhs => rw [← @List.rdropWhile_append_rtakeWhile _ (fun p => decide (p = [])) ps]
  rw [List.filter_append, hdropped, List.append_nil]
  rfl

theorem not_suffix_trimEnd (sep : α) (l : List α) : ¬ [sep] <:+ trimEnd sep l := by
  rintro ⟨r, hr⟩
  have hne : trimEnd sep l ≠ [] := by
    rw [← hr]
    simp
  have hlast : ¬ decide ((trimEnd sep l).getLast hne = sep) = true :=
    List.rdropWhile_last_not _ l hne
  simp [← hr] at hlast

/-- Dropping the empty pieces at the end is dropping the separators at the end first. -/
theorem dropEmptyEnd_splitOn (l : List α) :
    dropEmptyEnd (l.splitOn sep) =
      if trimEnd sep l = [] then [] else (trimEnd sep l).splitOn sep := by
  unfold dropEmptyEnd trimEnd
  induction l using List.reverseRecOn with
  | nil => simp [List.rdropWhile_singleton]
  | append_singleton l a ih =>
    by_cases ha : a = sep
    · subst ha
      rw [List.splitOn_append_cons_self, List.splitOn_nil,
        List.rdropWhile_concat_pos _ _ _ (by simp), List.rdropWhile_concat_pos _ _ _ (by simp), ih]
    · obtain ⟨ps, p, h⟩ := splitOn_concat_of_ne ha l
      rw [List.rdropWhile_concat_neg (fun a => decide (a = sep)) _ _ (by simpa using ha),
        if_neg (by simp), h, List.rdropWhile_concat_neg _ _ _ (by simp)]

/-- Cutting leaves no empty piece, once those at the end are dropped, exactly when the text is
single-spaced; an empty text is left as the empty piece it is. -/
theorem singleSpaced_iff {l : List α} :
    SingleSpaced sep l ↔ l ≠ [] ∧ [] ∉ dropEmptyEnd (l.splitOn sep) := by
  refine and_congr_right fun hne => ?_
  rw [dropEmptyEnd_splitOn]
  by_cases hrest : trimEnd sep l = []
  · simp [hrest]
  · rw [if_neg hrest, nil_mem_splitOn_iff (not_suffix_trimEnd sep l), or_iff_right hrest, not_or]

end Pieces
