import SecurityOAuth2Jwt.AuthorizationServer.Proofs.FieldMessagesProofs

/-!
# Proofs: the translation of a list of exceptions

An entry of a list goes the way of an exception that is reported alone, with the related id in the
detail. It gets there when the id is a number or the literal empty string, and when the keys of its
field errors can be built.
-/

namespace AuthorizationServer

namespace ExceptionManager

open Java

/-! ## The exception of an entry -/

section Entries

variable {C : Library}

/-- The name can be cut: it is empty, or the cut leaves a first unit and is not behind the end. -/
def Cuttable (C : Library) (objectName : Utf16) : Prop :=
  objectName = [] ∨ (0 < cutLength C objectName ∧ cutLength C objectName ≤ objectName.length)

/-- The keys of the field errors can be built, if the exception has any. -/
def KeysBuildable (C : Library) : Exception → Prop
  | .methodArgumentNotValid exception =>
    ∀ error ∈ exception.fieldErrors, Cuttable C error.objectName
  | .validation exception =>
    ∃ n f, exception.className = some n ∧ exception.fieldName = some f ∧ Cuttable C n
  | _ => True

/-- The detail of an exception that is taken as one that is not a list. -/
def detailOf (C : Library) (exception : Exception) (id : Option Int32) :
    Result CustomExceptionDetailModel :=
  match exception with
  | .methodArgumentNotValid exception =>
    getModelFromMethodArgumentNotValidException C exception id
  | .validation exception => getModelFromValidationException C exception id
  | .business exception => .ok (getModelFromBusinessException exception id)
  | exception => .ok (getModelFromGeneralException exception id)

theorem hasKey_iff (hC : C.Documented) {error : FieldError} :
    HasKey C error ↔ Cuttable C error.objectName := by
  unfold HasKey Cuttable
  by_cases hname : error.objectName = []
  · simp [relatedToFieldName, hname]
  · simp only [relatedToFieldName_of_ne hname, getModelPrefix_ok_iff hC, hname, false_or]
    constructor
    · rintro ⟨_, _, ⟨hpos, hle, -⟩, -⟩
      exact ⟨hpos, hle⟩
    · rintro ⟨hpos, hle⟩
      exact ⟨_, _, ⟨hpos, hle, rfl⟩, rfl⟩

theorem detailOf_returns_iff (hC : C.Documented) {exception : Exception} {id : Option Int32} :
    (∃ detail, detailOf C exception id = .ok detail) ↔ KeysBuildable C exception := by
  cases exception with
  | list object entries => simp [detailOf, KeysBuildable]
  | business exception => simp [detailOf, KeysBuildable]
  | general object => simp [detailOf, KeysBuildable]
  | methodArgumentNotValid exception =>
    simp only [detailOf, KeysBuildable, methodArgumentNotValid_ok_iff, putFieldErrors_ok_iff,
      hasKey_iff hC]
    constructor
    · rintro ⟨_, _, ⟨hkeys, -⟩, -⟩
      exact hkeys
    · intro hkeys
      exact ⟨_, _, ⟨hkeys, rfl⟩, rfl⟩
  | validation exception =>
    simp only [detailOf, KeysBuildable, validation_ok_iff, hC.newFieldError_ok_iff,
      putFieldErrors_ok_iff, hasKey_iff hC, List.forall_mem_singleton]
    constructor
    · rintro ⟨_, _, _, ⟨n, f, hn, hf, rfl⟩, ⟨hkey, -⟩, -⟩
      exact ⟨n, f, hn, hf, hkey⟩
    · rintro ⟨n, f, hn, hf, hkey⟩
      exact ⟨_, _, _, ⟨n, f, hn, hf, rfl⟩, ⟨hkey, rfl⟩, rfl⟩

/-- A detail holds its exception, and the id goes into its field for the related id only. -/
theorem detailOf_ok {exception : Exception} {id : Option Int32}
    {detail : CustomExceptionDetailModel} (h : detailOf C exception id = .ok detail) :
    detail.exception = exception ∧
      ∀ id', detailOf C exception id' = .ok { detail with relatedToId := idText id' } := by
  cases exception with
  | list object entries =>
    cases h
    exact ⟨rfl, fun id' => rfl⟩
  | business exception =>
    cases h
    exact ⟨rfl, fun id' => rfl⟩
  | general object =>
    cases h
    exact ⟨rfl, fun id' => rfl⟩
  | methodArgumentNotValid exception =>
    obtain ⟨map, hmap, rfl⟩ := methodArgumentNotValid_ok_iff.mp h
    exact ⟨rfl, fun id' => methodArgumentNotValid_ok_iff.mpr ⟨map, hmap, rfl⟩⟩
  | validation exception =>
    obtain ⟨error, map, herror, hmap, rfl⟩ := validation_ok_iff.mp h
    exact ⟨rfl, fun id' => validation_ok_iff.mpr ⟨error, map, herror, hmap, rfl⟩⟩

theorem relatedToId_of_detailOf {exception : Exception} {id : Option Int32}
    {detail : CustomExceptionDetailModel} (h : detailOf C exception id = .ok detail) :
    detail.relatedToId = idText id := by
  have hsame := (detailOf_ok h).2 id
  rw [h] at hsame
  exact congrArg CustomExceptionDetailModel.relatedToId (Except.ok.inj hsame)

/-! ## Entries -/

theorem getModelFromListException_ok_iff {entries : List (Entry Exception)}
    {model : CustomExceptionModel} :
    getModelFromListException C entries = .ok model ↔
      ∃ details, entries.mapM (getModelFromEntry C) = .ok details ∧
        model =
          { customExceptionDetailModelList := some details, type := some .listException } := by
  unfold getModelFromListException
  rw [Outcome.bind_eq_ok]
  simp only [Outcome.pure_eq_ok, Except.ok.injEq, eq_comm]

theorem getModelFromEntry_some (exception : Exception) (relatedToId : Option StringRef) :
    getModelFromEntry C ⟨some exception, relatedToId⟩ = (do
      let id ← entryId C relatedToId
      detailOf C exception id) := by
  cases exception <;> rfl

theorem intToString_ne_nil (n : Int32) : intToString n ≠ [] := by
  obtain ⟨d, rest, -, hdecimal⟩ := decimal_eq_cons n.toInt.natAbs
  unfold intToString
  rw [hdecimal]
  split_ifs
  · simp
  · simp

/-- A related id is an empty string or the decimal text of an `int`. -/
def IsRelatedId (ref : StringRef) : Prop := ref.text = [] ∨ ∃ n : Int32, ref.text = intToString n

/-- The id can be read unless it is an empty string other than the literal one. -/
theorem entryId_returns_iff (hC : C.Documented) {ref : StringRef} (href : IsRelatedId ref) :
    (∃ id, entryId C (some ref) = .ok id) ↔ (ref.text = [] → ref.interned = true) := by
  obtain ⟨text, interned⟩ := ref
  rcases href with hempty | ⟨n, hn⟩
  · change text = [] at hempty
    subst hempty
    cases interned with
    | true => simp [entryId]
    | false =>
      have hparse : C.parseInt [] = .error (.ofClass .numberFormat) := by
        simp [CharacterData.parseInt, CharacterData.signed]
      simp [entryId, hparse]
  · change text = intToString n at hn
    subst hn
    simp [entryId, intToString_ne_nil, parseInt_intToString hC.characters]

/-- The id that is read has the text of the related id. -/
theorem idText_of_entryId (hC : C.Documented) {ref : StringRef} (href : IsRelatedId ref)
    {id : Option Int32} (h : entryId C (some ref) = .ok id) : idText id = ref.text := by
  obtain ⟨text, interned⟩ := ref
  rcases href with hempty | ⟨n, hn⟩
  · change text = [] at hempty
    have hinterned := (entryId_returns_iff hC (Or.inl hempty)).mp ⟨id, h⟩ hempty
    change interned = true at hinterned
    subst hempty hinterned
    cases h
    rfl
  · change text = intToString n at hn
    subst hn
    simp only [entryId, intToString_ne_nil, false_and, if_false,
      parseInt_intToString hC.characters] at h
    cases h
    rfl

/-- An entry is translated exactly when its id can be read and the keys of its exception can be
built. -/
theorem getModelFromEntry_returns_iff (hC : C.Documented) {exception : Exception}
    {ref : StringRef} (href : IsRelatedId ref) :
    (∃ detail, getModelFromEntry C ⟨some exception, some ref⟩ = .ok detail) ↔
      (ref.text = [] → ref.interned = true) ∧ KeysBuildable C exception := by
  rw [← entryId_returns_iff hC href, getModelFromEntry_some]
  simp only [Outcome.bind_eq_ok]
  constructor
  · rintro ⟨detail, id, hid, hdetail⟩
    exact ⟨⟨id, hid⟩, (detailOf_returns_iff hC).mp ⟨detail, hdetail⟩⟩
  · rintro ⟨⟨id, hid⟩, hkeys⟩
    obtain ⟨detail, hdetail⟩ := (@detailOf_returns_iff _ hC _ id).mpr hkeys
    exact ⟨detail, id, hid, hdetail⟩

end Entries

/-! ## The whole list -/

section Lists

variable {W : Surroundings}

/-- The exception is itself a list. -/
def IsListException : Exception → Prop
  | .list _ _ => True
  | _ => False

/-- The report of the exception alone has this one detail, whatever the request. -/
def ReportedAlone (W : Surroundings) (exception : Exception) (detail : CustomExceptionDetailModel) :
    Prop :=
  ∀ request, ∃ model, getCustomExceptionModel W (some exception) request = .ok model ∧
    model.customExceptionDetailModelList = some [detail]

/-- The detail carries the id of the entry, and is otherwise that of the exception alone. -/
def FaithfulDetail (W : Surroundings) (entry : Entry Exception)
    (detail : CustomExceptionDetailModel) : Prop :=
  ∃ exception ref, entry = ⟨some exception, some ref⟩ ∧ detail.relatedToId = ref.text ∧
    (¬ IsListException exception →
      ∃ alone, ReportedAlone W exception alone ∧ detail = { alone with relatedToId := ref.text })

/-- The translation returns, with one faithful detail for each entry, in order. -/
def FaithfulTranslation (W : Surroundings) (entries : List (Entry Exception)) : Prop :=
  ∃ model details, getModelFromListException W.library entries = .ok model ∧
    model.type = some .listException ∧ model.customExceptionDetailModelList = some details ∧
    List.Forall₂ (FaithfulDetail W) entries details

theorem list_withRequest (model : CustomExceptionModel) (request : Option HttpServletRequest) :
    (withRequest model request).customExceptionDetailModelList =
      model.customExceptionDetailModelList := by
  cases request <;> rfl

theorem reportedAlone_of_detailOf {exception : Exception} (hlist : ¬ IsListException exception)
    {detail : CustomExceptionDetailModel}
    (h : detailOf W.library exception none = .ok detail) :
    ReportedAlone W exception detail := by
  intro request
  have hclass : ∃ type, getModelByClass W exception =
      .ok { customExceptionDetailModelList := some [detail], type := some type } := by
    cases exception with
    | list object entries => exact absurd trivial hlist
    | business exception =>
      cases h
      exact ⟨_, rfl⟩
    | general object =>
      cases h
      exact ⟨_, rfl⟩
    | methodArgumentNotValid exception =>
      change getModelFromMethodArgumentNotValidException W.library exception none = _ at h
      exact ⟨.validationException, by simp only [getModelByClass, h]; rfl⟩
    | validation exception =>
      change getModelFromValidationException W.library exception none = _ at h
      exact ⟨.validationException, by simp only [getModelByClass, h]; rfl⟩
  obtain ⟨type, hclass⟩ := hclass
  refine ⟨_, by simp only [getCustomExceptionModel, hclass]; rfl, ?_⟩
  exact list_withRequest _ request

theorem faithfulDetail_of_ok (hC : W.library.Documented) {exception : Exception}
    {ref : StringRef} (href : IsRelatedId ref) {detail : CustomExceptionDetailModel}
    (h : getModelFromEntry W.library ⟨some exception, some ref⟩ = .ok detail) :
    FaithfulDetail W ⟨some exception, some ref⟩ detail := by
  rw [getModelFromEntry_some, Outcome.bind_eq_ok] at h
  obtain ⟨id, hid, hdetail⟩ := h
  have htext : detail.relatedToId = ref.text :=
    (relatedToId_of_detailOf hdetail).trans (idText_of_entryId hC href hid)
  refine ⟨exception, ref, rfl, htext, fun hlist => ?_⟩
  exact ⟨_, reportedAlone_of_detailOf hlist ((detailOf_ok hdetail).2 none), by rw [← htext]⟩

/-- A list is translated exactly when every entry is. -/
theorem list_returns_iff {C : Library} (hC : C.Documented) {entries : List (Entry Exception)}
    (hentries : ∀ entry ∈ entries, ∃ exception ref, entry = ⟨some exception, some ref⟩ ∧
      IsRelatedId ref) :
    (∃ model, getModelFromListException C entries = .ok model) ↔
      ∀ exception ref, ⟨some exception, some ref⟩ ∈ entries →
        (ref.text = [] → ref.interned = true) ∧ KeysBuildable C exception := by
  have hmapM : (∃ model, getModelFromListException C entries = .ok model) ↔
      ∃ details, entries.mapM (getModelFromEntry C) = .ok details := by
    simp only [getModelFromListException_ok_iff]
    constructor
    · rintro ⟨_, details, hdetails, -⟩
      exact ⟨details, hdetails⟩
    · rintro ⟨details, hdetails⟩
      exact ⟨_, details, hdetails, rfl⟩
  rw [hmapM, Outcome.mapM_returns_iff]
  constructor
  · intro h exception ref hmem
    obtain ⟨exception', ref', heq, href⟩ := hentries _ hmem
    cases heq
    exact (getModelFromEntry_returns_iff hC href).mp (h _ hmem)
  · intro h entry hentry
    obtain ⟨exception, ref, rfl, href⟩ := hentries entry hentry
    exact (getModelFromEntry_returns_iff hC href).mpr (h exception ref hentry)

/-- A list of exceptions is translated faithfully exactly when every empty id is the literal one and
the keys of all field errors can be built. -/
theorem list_translation_faithful_iff (hC : W.library.Documented)
    {entries : List (Entry Exception)}
    (hentries : ∀ entry ∈ entries, ∃ exception ref, entry = ⟨some exception, some ref⟩ ∧
      IsRelatedId ref) :
    FaithfulTranslation W entries ↔
      ∀ exception ref, ⟨some exception, some ref⟩ ∈ entries →
        (ref.text = [] → ref.interned = true) ∧ KeysBuildable W.library exception := by
  rw [← list_returns_iff hC hentries]
  constructor
  · rintro ⟨model, details, hmodel, -⟩
    exact ⟨model, hmodel⟩
  · rintro ⟨model, hmodel⟩
    obtain ⟨details, hdetails, rfl⟩ := getModelFromListException_ok_iff.mp hmodel
    refine ⟨_, details, hmodel, rfl, rfl, Outcome.forall₂_of_mapM_ok hdetails ?_⟩
    intro entry hentry detail hdetail
    obtain ⟨exception, ref, rfl, href⟩ := hentries entry hentry
    exact faithfulDetail_of_ok hC href hdetail

end Lists

/-! A list with a number and the literal empty string for ids, and two that are not translated. -/

/-- The error message of a business exception is its description; no other exception has one. -/
def referenceSurroundings : Surroundings where
  library := .reference
  customExceptionMode := .null
  loggedInService := some (.ok none)
  getMessage
    | .business exception => some ((∅ : FieldMessages).put (lit "error") exception.description)
    | _ => none
  customExceptionCreate := .ok

def businessEntry (object : Nat) (error : Utf16) (ref : StringRef) : Entry Exception :=
  ⟨some (.business ⟨object, some error⟩), some ref⟩

def validationEntry (className : Utf16) : Entry Exception :=
  ⟨some (.validation ⟨1, some className, some (lit "name"), none, none⟩), some ⟨[], true⟩⟩

def twoEntries : List (Entry Exception) :=
  [businessEntry 0 (lit "locked") ⟨intToString 7, false⟩, validationEntry (lit "userModel")]

theorem two_entries_translated : FaithfulTranslation referenceSurroundings twoEntries := by
  have hids : ∀ entry ∈ twoEntries, ∃ exception ref, entry = ⟨some exception, some ref⟩ ∧
      IsRelatedId ref := by
    unfold twoEntries
    rw [List.forall_mem_cons, List.forall_mem_singleton]
    exact ⟨⟨_, _, rfl, Or.inr ⟨7, rfl⟩⟩, ⟨_, _, rfl, Or.inl rfl⟩⟩
  refine (list_translation_faithful_iff Library.reference_documented hids).mpr ?_
  intro exception ref hmem
  rcases List.mem_cons.mp hmem with heq | hmem
  · cases heq
    exact ⟨fun h => absurd h (intToString_ne_nil 7), trivial⟩
  · cases List.mem_singleton.mp hmem
    refine ⟨fun _ => rfl, lit "userModel", lit "name", rfl, rfl, Or.inr ?_⟩
    decide

/-- An empty id that is not the literal one is parsed as a number, and an object name that is a
marker leaves nothing to lower-case. -/
theorem lists_not_translated :
    getModelFromListException .reference [businessEntry 0 (lit "locked") ⟨[], false⟩] =
      .error (.ofClass .numberFormat) ∧
    getModelFromListException .reference [validationEntry (lit "Model")] =
      .error (.ofClass .stringIndexOutOfBounds) ∧
    ¬ FaithfulTranslation referenceSurroundings
      [businessEntry 0 (lit "locked") ⟨[], false⟩] := by
  refine ⟨rfl, rfl, ?_⟩
  rintro ⟨model, details, hmodel, -⟩
  cases hmodel

end ExceptionManager

end AuthorizationServer
