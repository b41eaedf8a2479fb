import SecurityOAuth2Jwt.AuthorizationServer.Proofs.ListExceptionProofs

/-!
# Proofs: exceptions that end the translation of an exception

The translation throws for a related id that is no number, for an entry without an exception, for a
validation error without names, and for an object name that cannot be cut. A list ends at the first
of its entries that cannot be translated.
-/

namespace AuthorizationServer

namespace ExceptionManager

open Java

/-! ## The exceptions of the parts -/

section Parts

variable {C : Library}

/-- The exception of `substring`. -/
def IsOutOfBounds (e : JavaException) : Prop := e.cls = .stringIndexOutOfBounds

theorem errorsIn_substring (s : Utf16) (beginIndex endIndex : Int) :
    Outcome.ErrorsIn IsOutOfBounds (substring s beginIndex endIndex) := by
  unfold substring
  split_ifs
  · exact Outcome.errorsIn_ok _
  · exact Outcome.errorsIn_error_iff.mpr rfl

theorem errorsIn_getModelPrefix (modelName : Utf16) :
    Outcome.ErrorsIn IsOutOfBounds (getModelPrefixFromModelName C modelName) := by
  have hcut : Outcome.ErrorsIn IsOutOfBounds (cutAtMarker C modelName) := by
    unfold cutAtMarker
    simp only
    split_ifs
    · exact errorsIn_substring _ _ _
    · exact errorsIn_substring _ _ _
    · exact Outcome.errorsIn_ok _
  refine Outcome.errorsIn_bind_iff.mpr ⟨hcut, fun modelPrefix _ => ?_⟩
  refine Outcome.errorsIn_bind_iff.mpr ⟨errorsIn_substring _ _ _, fun first _ => ?_⟩
  exact Outcome.errorsIn_bind_iff.mpr ⟨errorsIn_substring _ _ _, fun _ _ => Outcome.errorsIn_ok _⟩

theorem errorsIn_putFieldErrors (fieldErrors : List FieldError) :
    Outcome.ErrorsIn IsOutOfBounds (putFieldErrors C fieldErrors) := by
  refine Outcome.errorsIn_foldlM (fun map error => ?_) _ _
  refine Outcome.errorsIn_bind_iff.mpr ⟨?_, fun _ _ => Outcome.errorsIn_ok _⟩
  unfold relatedToFieldName
  split_ifs
  · exact Outcome.errorsIn_ok _
  · exact Outcome.errorsIn_bind_iff.mpr
      ⟨errorsIn_getModelPrefix _, fun _ _ => Outcome.errorsIn_ok _⟩

/-- The exception of `Integer.parseInt`. -/
def IsNumberFormat (e : JavaException) : Prop := e.cls = .numberFormat

theorem errorsIn_parseInt (s : Utf16) : Outcome.ErrorsIn IsNumberFormat (C.parseInt s) := by
  have hvalue : ∀ value : Int, Outcome.ErrorsIn IsNumberFormat
      (if -2 ^ 31 ≤ value ∧ value < 2 ^ 31 then Except.ok (Int32.ofInt value)
        else .error (.ofClass .numberFormat)) := by
    intro value
    split_ifs
    · exact Outcome.errorsIn_ok _
    · exact Outcome.errorsIn_error_iff.mpr rfl
  have hsigned : ∀ negative digits,
      Outcome.ErrorsIn IsNumberFormat (C.signed negative digits) := by
    intro negative digits
    unfold CharacterData.signed
    split
    · exact hvalue _
    · exact Outcome.errorsIn_error_iff.mpr rfl
  unfold CharacterData.parseInt
  split_ifs
  · exact hsigned _ _
  · exact hsigned _ _
  · exact hsigned _ _

/-! ## One exception -/

/-- The names that a validation error is made of are not null. -/
def NamesPresent : Exception → Prop
  | .validation exception => exception.className ≠ none ∧ exception.fieldName ≠ none
  | _ => True

/-- The exception is not translated: the constructor of the field error rejects a null name, or an
object name cannot be cut. -/
def KeysFailWith (C : Library) (exception : Exception) (cls : ExceptionClass) : Prop :=
  (¬ NamesPresent exception ∧ cls = .illegalArgument) ∨
    (NamesPresent exception ∧ ¬ KeysBuildable C exception ∧ cls = .stringIndexOutOfBounds)

theorem KeysFailWith.unique {exception : Exception} {cls cls' : ExceptionClass}
    (h : KeysFailWith C exception cls) (h' : KeysFailWith C exception cls') : cls = cls' := by
  rcases h with ⟨hnames, rfl⟩ | ⟨hnames, -, rfl⟩
  · rcases h' with ⟨-, rfl⟩ | ⟨hnames', -⟩
    · rfl
    · exact absurd hnames' hnames
  · rcases h' with ⟨hnames', -⟩ | ⟨-, -, rfl⟩
    · exact absurd hnames hnames'
    · rfl

theorem KeysFailWith.not_buildable {exception : Exception} {cls : ExceptionClass}
    (h : KeysFailWith C exception cls) : ¬ KeysBuildable C exception := by
  rcases h with ⟨hnames, -⟩ | ⟨-, hkeys, -⟩
  · intro hkeys
    cases exception with
    | validation exception =>
      obtain ⟨n, f, hn, hf, -⟩ := hkeys
      exact hnames ⟨by simp [hn], by simp [hf]⟩
    | list object entries => exact hnames trivial
    | methodArgumentNotValid exception => exact hnames trivial
    | business exception => exact hnames trivial
    | general object => exact hnames trivial
  · exact hkeys

theorem keysFailWith_of_error (hC : C.Documented) {exception : Exception} {id : Option Int32}
    {e : JavaException} (h : detailOf C exception id = .error e) :
    KeysFailWith C exception e.cls := by
  have hnot : ¬ KeysBuildable C exception := by
    rw [← @detailOf_returns_iff C hC exception id, ← Outcome.error_iff_not_ok]
    exact ⟨e, h⟩
  cases exception with
  | list object entries => cases h
  | business exception => cases h
  | general object => cases h
  | methodArgumentNotValid exception =>
    rcases Outcome.bind_eq_error h with herrors | ⟨map, -, hreturn⟩
    · exact Or.inr ⟨trivial, hnot, errorsIn_putFieldErrors _ e herrors⟩
    · cases hreturn
  | validation exception =>
    rcases Outcome.bind_eq_error h with hnew | ⟨error, hnew, hrest⟩
    · -- the constructor has rejected a null name
      have hnull : exception.className = none ∨ exception.fieldName = none := by
        by_contra hnames
        rw [not_or] at hnames
        obtain ⟨n, hn⟩ := Option.ne_none_iff_exists'.mp hnames.1
        obtain ⟨f, hf⟩ := Option.ne_none_iff_exists'.mp hnames.2
        rw [hn, hf, hC.stores] at hnew
        cases hnew
      obtain ⟨message, hrejects⟩ := hC.rejects _ _ exception.fieldValidationError hnull
      rw [hrejects] at hnew
      cases hnew
      refine Or.inl ⟨fun hnames => ?_, rfl⟩
      rcases hnull with hn | hf
      · exact hnames.1 hn
      · exact hnames.2 hf
    · obtain ⟨n, f, hn, hf, rfl⟩ := hC.newFieldError_ok_iff.mp hnew
      rcases Outcome.bind_eq_error hrest with herrors | ⟨map, -, hreturn⟩
      · exact Or.inr ⟨⟨by simp [hn], by simp [hf]⟩, hnot, errorsIn_putFieldErrors _ e herrors⟩
      · cases hreturn

theorem detailOf_failed_iff (hC : C.Documented) {exception : Exception} (id : Option Int32)
    {cls : ExceptionClass} :
    (∃ e, detailOf C exception id = .error e ∧ e.cls = cls) ↔ KeysFailWith C exception cls := by
  refine Outcome.error_iff_of_unique (fun e he => keysFailWith_of_error hC he)
    (fun detail hdetail c hc => ?_) (fun c c' => KeysFailWith.unique)
  exact hc.not_buildable ((detailOf_returns_iff hC).mp ⟨detail, hdetail⟩)

/-! ## One entry of a list -/

/-- The related id can be read: it is the literal empty string, or `Integer.parseInt` reads it. -/
def IdReadable (C : Library) (relatedToId : Option StringRef) : Prop :=
  ∃ ref, relatedToId = some ref ∧
    ((ref.text = [] ∧ ref.interned = true) ∨ ∃ id, C.parseInt ref.text = .ok id)

/-- The entry can be translated. -/
structure EntryReadable (C : Library) (entry : Entry Exception) : Prop where
  id : IdReadable C entry.getValue
  key : ∃ exception, entry.getKey = some exception ∧ KeysBuildable C exception

/-- The entry is not translated; its id is read first. -/
def EntryFailsWith (C : Library) (entry : Entry Exception) (cls : ExceptionClass) : Prop :=
  (¬ IdReadable C entry.getValue ∧ cls = .numberFormat) ∨
    (IdReadable C entry.getValue ∧ entry.getKey = none ∧ cls = .nullPointer) ∨
    (IdReadable C entry.getValue ∧ ∃ exception, entry.getKey = some exception ∧
      KeysFailWith C exception cls)

theorem entryId_readable_iff {relatedToId : Option StringRef} :
    (∃ id, entryId C relatedToId = .ok id) ↔ IdReadable C relatedToId := by
  unfold entryId IdReadable
  cases relatedToId with
  | none => simp
  | some ref =>
    simp only [Option.some.injEq, exists_eq_left']
    by_cases hempty : ref.text = [] ∧ ref.interned = true
    · rw [if_pos hempty]
      exact iff_of_true ⟨none, rfl⟩ (Or.inl hempty)
    · rw [if_neg hempty]
      cases C.parseInt ref.text with
      | error e => simp [hempty]
      | ok id => simp

theorem errorsIn_entryId (relatedToId : Option StringRef) :
    Outcome.ErrorsIn IsNumberFormat (entryId C relatedToId) := by
  unfold entryId
  cases relatedToId with
  | none => exact Outcome.errorsIn_error_iff.mpr rfl
  | some ref =>
    simp only
    split_ifs
    · exact Outcome.errorsIn_ok _
    · have hparse := @errorsIn_parseInt C ref.text
      cases hn : C.parseInt ref.text with
      | ok n => exact Outcome.errorsIn_ok _
      | error e => exact Outcome.errorsIn_error_iff.mpr (hparse e hn)

theorem EntryFailsWith.unique {entry : Entry Exception} {cls cls' : ExceptionClass}
    (h : EntryFailsWith C entry cls) (h' : EntryFailsWith C entry cls') : cls = cls' := by
  rcases h with ⟨hid, rfl⟩ | ⟨hid, hkey, rfl⟩ | ⟨hid, exception, hkey, hfails⟩
  · rcases h' with ⟨-, rfl⟩ | ⟨hid', -⟩ | ⟨hid', -⟩
    · rfl
    · exact absurd hid' hid
    · exact absurd hid' hid
  · rcases h' with ⟨hid', -⟩ | ⟨-, -, rfl⟩ | ⟨-, exception, hkey', -⟩
    · exact absurd hid hid'
    · rfl
    · rw [hkey] at hkey'
      cases hkey'
  · rcases h' with ⟨hid', -⟩ | ⟨-, hkey', -⟩ | ⟨-, exception', hkey', hfails'⟩
    · exact absurd hid hid'
    · rw [hkey] at hkey'
      cases hkey'
    · rw [hkey] at hkey'
      cases hkey'
      exact hfails.unique hfails'

theorem entry_returns_iff (hC : C.Documented) {entry : Entry Exception} :
    (∃ detail, getModelFromEntry C entry = .ok detail) ↔ EntryReadable C entry := by
  obtain ⟨key, relatedToId⟩ := entry
  cases key with
  | none =>
    refine iff_of_false ?_ ?_
    · rintro ⟨detail, hdetail⟩
      obtain ⟨id, -, hnull⟩ := Outcome.bind_eq_ok.mp hdetail
      cases hnull
    · rintro ⟨-, exception, hkey, -⟩
      cases hkey
  | some exception =>
    rw [getModelFromEntry_some]
    simp only [Outcome.bind_eq_ok]
    constructor
    · rintro ⟨detail, id, hid, hdetail⟩
      exact ⟨entryId_readable_iff.mp ⟨id, hid⟩, exception, rfl,
        (detailOf_returns_iff hC).mp ⟨detail, hdetail⟩⟩
    · rintro ⟨hid, exception', hkey, hkeys⟩
      cases hkey
      obtain ⟨id, hid⟩ := entryId_readable_iff.mpr hid
      obtain ⟨detail, hdetail⟩ := (@detailOf_returns_iff _ hC _ id).mpr hkeys
      exact ⟨detail, id, hid, hdetail⟩

theorem entry_failed_iff (hC : C.Documented) {entry : Entry Exception} {cls : ExceptionClass} :
    (∃ e, getModelFromEntry C entry = .error e ∧ e.cls = cls) ↔ EntryFailsWith C entry cls := by
  refine Outcome.error_iff_of_unique (fun e he => ?_) (fun detail hdetail c hc => ?_)
    (fun c c' => EntryFailsWith.unique)
  · rcases Outcome.bind_eq_error he with hid | ⟨id, hid, hrest⟩
    · refine Or.inl ⟨fun hread => ?_, errorsIn_entryId _ e hid⟩
      obtain ⟨id, hok⟩ := entryId_readable_iff.mpr hread
      rw [hid] at hok
      cases hok
    · have hread : IdReadable C entry.getValue := entryId_readable_iff.mp ⟨id, hid⟩
      cases hkey : entry.getKey with
      | none =>
        rw [hkey] at hrest
        cases hrest
        exact Or.inr (Or.inl ⟨hread, hkey, rfl⟩)
      | some exception =>
        refine Or.inr (Or.inr ⟨hread, exception, hkey, ?_⟩)
        obtain ⟨key, relatedToId⟩ := entry
        cases hkey
        rw [getModelFromEntry_some, hid] at he
        exact keysFailWith_of_error hC he
  · obtain ⟨hid, exception, hkey, hkeys⟩ := (entry_returns_iff hC).mp ⟨detail, hdetail⟩
    rcases hc with ⟨hnot, -⟩ | ⟨-, hnone, -⟩ | ⟨-, exception', hkey', hfails⟩
    · exact hnot hid
    · rw [hkey] at hnone
      cases hnone
    · rw [hkey] at hkey'
      cases hkey'
      exact hfails.not_buildable hkeys

/-! ## A list -/

/-- The translation of a list ends at the first entry that cannot be translated. -/
theorem list_failed_iff (hC : C.Documented) {entries : List (Entry Exception)}
    {cls : ExceptionClass} :
    (∃ e, getModelFromListException C entries = .error e ∧ e.cls = cls) ↔
      ∃ pre entry post, entries = pre ++ entry :: post ∧ (∀ x ∈ pre, EntryReadable C x) ∧
        EntryFailsWith C entry cls := by
  have hmapM : ∀ e, getModelFromListException C entries = .error e ↔
      entries.mapM (getModelFromEntry C) = .error e := by
    intro e
    unfold getModelFromListException
    cases entries.mapM (getModelFromEntry C) with
    | error e' =>
      constructor
      · intro h
        cases h
        rfl
      · intro h
        cases h
        rfl
    | ok details =>
      constructor
      · intro h
        cases h
      · intro h
        cases h
  simp only [hmapM, Outcome.mapM_eq_error_iff, entry_returns_iff hC]
  constructor
  · rintro ⟨e, ⟨pre, entry, post, hentries, hpre, he⟩, hcls⟩
    exact ⟨pre, entry, post, hentries, hpre, (entry_failed_iff hC).mp ⟨e, he, hcls⟩⟩
  · rintro ⟨pre, entry, post, hentries, hpre, hfails⟩
    obtain ⟨e, he, hcls⟩ := (entry_failed_iff hC).mpr hfails
    exact ⟨e, ⟨pre, entry, post, hentries, hpre, he⟩, hcls⟩

end Parts

end ExceptionManager

end AuthorizationServer
