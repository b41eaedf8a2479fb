import SecurityOAuth2Jwt.Common.Proofs.WordsProofs
import SecurityOAuth2Jwt.Java.Text

/-!
# Proofs: `String.split`

Cutting a string at a character returns its words, and in addition empty pieces unless the string is
single-spaced.
-/

namespace Java

open Pieces

/-- The words of a string, as strings. -/
def Names (sep : Char) (s : String) (names : List String) : Prop :=
  Words sep s.toList (names.map String.toList)

theorem split_empty (sep : Char) : split sep "" = [""] := by
  simp [split]

/-- A string that is not empty is cut at every separator, and the empty pieces at the end are
dropped. -/
theorem map_toList_split {sep : Char} {s : String} (hs : s.toList ≠ []) :
    (split sep s).map String.toList = dropEmptyEnd (s.toList.splitOn sep) := by
  unfold split dropEmptyEnd
  by_cases hlength : (s.toList.splitOn sep).length = 1
  · have hsep : s.toList.splitOn sep = [s.toList] := by
      obtain ⟨p, hp⟩ := List.length_eq_one_iff.mp hlength
      have hjoin : [sep].intercalate (s.toList.splitOn sep) = s.toList :=
        List.intercalate_splitOn sep
      rw [hp] at hjoin ⊢
      simpa using hjoin
    simp [hsep, List.rdropWhile_singleton, hs]
  · simp [hlength]

theorem split_eq_of_pieces {sep : Char} {s : String} {ss : List String} (hs : s.toList ≠ [])
    (h : dropEmptyEnd (s.toList.splitOn sep) = ss.map String.toList) :
    split sep s = ss := by
  refine List.map_injective_iff.mpr (fun _ _ => String.toList_inj.mp) ?_
  rw [map_toList_split hs, h]

/-- The pieces of a string include an empty one unless the string is single-spaced. -/
theorem empty_not_mem_split_iff {sep : Char} {s : String} :
    "" ∉ split sep s ↔ SingleSpaced sep s.toList := by
  by_cases hs : s.toList = []
  · have hempty : s = "" := String.toList_eq_nil_iff.mp hs
    subst hempty
    simp [split_empty, SingleSpaced]
  · have hpiece : "" ∈ split sep s ↔ [] ∈ (split sep s).map String.toList := by
      simp
    rw [singleSpaced_iff, hpiece, map_toList_split hs]
    exact ⟨fun h => ⟨hs, h⟩, And.right⟩

/-- The names of a string are its pieces that are not empty. -/
theorem Names.eq_filter {sep : Char} {s : String} {names : List String} (h : Names sep s names) :
    names = (split sep s).filter fun n => decide (n ≠ "") := by
  have hmap : ∀ ss : List String, (ss.filter fun n => decide (n ≠ "")).map String.toList =
      (ss.map String.toList).filter fun p => decide (p ≠ []) := by
    intro ss
    rw [List.filter_map]
    congr 2
    funext n
    simp
  refine List.map_injective_iff.mpr (fun _ _ => String.toList_inj.mp) ?_
  rw [hmap]
  by_cases hs : s.toList = []
  · have hempty : s = "" := String.toList_eq_nil_iff.mp hs
    subst hempty
    rw [Words.eq_words h, split_empty]
    rfl
  · rw [map_toList_split hs, filter_dropEmptyEnd]
    exact Words.eq_words h

/-- A joined list of names, each without the separator, is cut into these names. -/
theorem split_intercalate {sep : Char} {names : List String} (hne : names ≠ [])
    (hnames : ∀ n ∈ names, n ≠ "" ∧ sep ∉ n.toList) :
    split sep ((String.singleton sep).intercalate names) = names := by
  have hletters : ∀ l ∈ names.map String.toList, sep ∉ l := by
    intro l hl
    obtain ⟨n, hn, rfl⟩ := List.mem_map.mp hl
    exact (hnames n hn).2
  have hjoined : (((String.singleton sep).intercalate names).toList).splitOn sep =
      names.map String.toList := by
    rw [String.toList_intercalate, String.toList_singleton]
    exact List.splitOn_intercalate sep hletters (by simpa using hne)
  have hpieces : ¬ [] ∈ names.map String.toList := by
    intro hmem
    obtain ⟨n, hn, hnil⟩ := List.mem_map.mp hmem
    exact (hnames n hn).1 (String.toList_eq_nil_iff.mp hnil)
  have hnonempty : ((String.singleton sep).intercalate names).toList ≠ [] := by
    intro hnil
    rw [hnil, List.splitOn_nil] at hjoined
    exact hpieces (hjoined ▸ List.mem_singleton.mpr rfl)
  exact split_eq_of_pieces hnonempty (by rw [hjoined, dropEmptyEnd_of_not_mem hpieces])

end Java
