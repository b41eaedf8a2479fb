import SecurityOAuth2Jwt.AuthorizationServer.Proofs.ReportFailureProofs
import SecurityOAuth2Jwt.AuthorizationServer.Proofs.StoredReportProofs

/-!
# Proofs: the outcome of `doException`

The handler ends in one of four ways. The translation or the lookup of the user throws, and nothing
is stored; or there is a report, which is given to the store or answered as it is.
-/

namespace AuthorizationServer

namespace ExceptionManager

open Java

/-! ## What a report says -/

section Details

variable (C : Library)

/-- The type of a report. -/
def typeOf : Exception → CustomExceptionModelType
  | .list _ _ => .listException
  | .methodArgumentNotValid _ => .validationException
  | .validation _ => .validationException
  | .business _ => .businessException
  | .general _ => .generalException

/-- The type of a detail: a list inside a list is an exception like any other. -/
def detailTypeOf : Exception → CustomExceptionModelType
  | .list _ _ => .generalException
  | exception => typeOf exception

def descriptionOf : Exception → Option Utf16
  | .validation exception => exception.description
  | .business exception => exception.description
  | _ => some []

/-- The field messages of a detail: of the errors with one key, the last one counts. -/
def MessagesOf : Exception → Option FieldMessages → Prop
  | .methodArgumentNotValid exception, messages =>
    ∃ map, messages = some map ∧ ∀ key, map.find? key = lastMessage C exception.fieldErrors key
  | .validation exception, messages => ∃ map n f, messages = some map ∧
      exception.className = some n ∧ exception.fieldName = some f ∧
      ∀ key, map.find? key = lastMessage C [⟨n, f, exception.fieldValidationError⟩] key
  | _, messages => messages = none

/-- A detail of the exception with this related id. -/
structure IsDetail (x : Exception) (id : Utf16) (detail : CustomExceptionDetailModel) : Prop where
  exception : detail.exception = x
  relatedToId : detail.relatedToId = id
  type : detail.type = detailTypeOf x
  description : detail.description = descriptionOf x
  messages : MessagesOf C x detail.fieldValidationError

/-- The text of a related id that is read as the text `id`: the literal empty string stays, and a
number is written in the canonical way. -/
def ReadAs (ref : StringRef) (id : Utf16) : Prop :=
  ((ref.text = [] ∧ ref.interned = true) ∧ id = []) ∨
    (¬ (ref.text = [] ∧ ref.interned = true) ∧
      ∃ n, C.parseInt ref.text = .ok n ∧ id = intToString n)

/-- A detail of an entry of a list. -/
def IsEntryDetail (entry : Entry Exception) (detail : CustomExceptionDetailModel) : Prop :=
  ∃ exception ref id, entry = ⟨some exception, some ref⟩ ∧ ReadAs C ref id ∧
    IsDetail C exception id detail

/-- The details of a report: one for each entry of a list, in order, or a single one. -/
def DetailsOf : Exception → List CustomExceptionDetailModel → Prop
  | .list _ entries, details => List.Forall₂ (IsEntryDetail C) entries details
  | exception, details => ∃ detail, details = [detail] ∧ IsDetail C exception [] detail

end Details

/-- A report of the exception, with the data of the request, the run and the logged-in user. -/
structure IsReport (W : Surroundings) (exception : Exception) (request : Option HttpServletRequest)
    (report : CustomExceptionModel) : Prop where
  type : report.type = some (typeOf exception)
  details : ∃ details, report.customExceptionDetailModelList = some details ∧
    DetailsOf W.library exception details
  url : report.url = request.bind HttpServletRequest.servletPath
  ipAddress : report.ipAddress = request.bind fun request =>
    (request.getHeader (lit "X-FORWARDED-FOR")).or request.remoteAddr
  mode : report.customExceptionModelMode = W.customExceptionMode
  user : ∀ user, W.loggedInService = some (.ok (some user)) →
    report.username = user.username ∧ report.userId = user.id
  nobody : (∀ user, W.loggedInService ≠ some (.ok (some user))) →
    report.username = none ∧ report.userId = .null

/-- The first exception of a report: that of the first entry of a list, or the exception itself. -/
def firstException : Exception → Option Exception
  | .list _ entries => entries.head?.bind Entry.getKey
  | exception => some exception

/-- The guard in front of the store passes the first exception. -/
def FirstReportable (W : Surroundings) (exception : Exception) : Prop :=
  ∃ first, firstException exception = some first ∧ isReportable W (W.getMessage first) = true

/-- The translation of the exception fails. -/
def TranslationFailsWith (C : Library) : Exception → ExceptionClass → Prop
  | .list _ entries, cls => ∃ pre entry post, entries = pre ++ entry :: post ∧
      (∀ x ∈ pre, EntryReadable C x) ∧ EntryFailsWith C entry cls
  | exception, cls => KeysFailWith C exception cls

section Translation

variable {C : Library}

theorem isDetail_of_detailOf (hC : C.Documented) {exception : Exception} {id : Option Int32}
    {detail : CustomExceptionDetailModel} (h : detailOf C exception id = .ok detail) :
    IsDetail C exception (idText id) detail := by
  cases exception with
  | list object entries =>
    cases h
    exact ⟨rfl, rfl, rfl, rfl, rfl⟩
  | business exception =>
    cases h
    exact ⟨rfl, rfl, rfl, rfl, rfl⟩
  | general object =>
    cases h
    exact ⟨rfl, rfl, rfl, rfl, rfl⟩
  | methodArgumentNotValid exception =>
    obtain ⟨map, hmap, rfl⟩ := methodArgumentNotValid_ok_iff.mp h
    exact ⟨rfl, rfl, rfl, rfl, map, rfl, find?_putFieldErrors hmap⟩
  | validation exception =>
    obtain ⟨error, map, herror, hmap, rfl⟩ := validation_ok_iff.mp h
    obtain ⟨n, f, hn, hf, rfl⟩ := hC.newFieldError_ok_iff.mp herror
    exact ⟨rfl, rfl, rfl, rfl, map, n, f, rfl, hn, hf, find?_putFieldErrors hmap⟩

theorem isEntryDetail_of_ok (hC : C.Documented) {entry : Entry Exception}
    {detail : CustomExceptionDetailModel} (h : getModelFromEntry C entry = .ok detail) :
    IsEntryDetail C entry detail := by
  obtain ⟨key, relatedToId⟩ := entry
  have hkey := getKey_of_getModelFromEntry h
  cases hkey
  rw [getModelFromEntry_some, Outcome.bind_eq_ok] at h
  obtain ⟨id, hid, hdetail⟩ := h
  obtain ⟨ref, rfl, -⟩ := entryId_readable_iff.mp ⟨id, hid⟩
  refine ⟨detail.exception, ref, idText id, rfl, ?_, isDetail_of_detailOf hC hdetail⟩
  unfold entryId at hid
  simp only at hid
  split_ifs at hid with hempty
  · cases hid
    exact Or.inl ⟨hempty, rfl⟩
  · cases hn : C.parseInt ref.text with
    | error e =>
      rw [hn] at hid
      cases hid
    | ok n =>
      rw [hn] at hid
      cases hid
      exact Or.inr ⟨hempty, n, hn, rfl⟩

/-- A translation that returns has made the details. -/
theorem getModelByClass_ok {W : Surroundings} (hC : W.library.Documented) {exception : Exception}
    {model : CustomExceptionModel} (h : getModelByClass W exception = .ok model) :
    ∃ details, model = { customExceptionDetailModelList := some details
                         type := some (typeOf exception) } ∧
      DetailsOf W.library exception details := by
  cases exception with
  | list object entries =>
    obtain ⟨details, hdetails, rfl⟩ := getModelFromListException_ok_iff.mp h
    exact ⟨details, rfl, Outcome.forall₂_of_mapM_ok hdetails fun entry _ detail hdetail =>
      isEntryDetail_of_ok hC hdetail⟩
  | business exception =>
    cases h
    exact ⟨_, rfl, _, rfl, @isDetail_of_detailOf _ hC _ none _ rfl⟩
  | general object =>
    cases h
    exact ⟨_, rfl, _, rfl, @isDetail_of_detailOf _ hC _ none _ rfl⟩
  | methodArgumentNotValid exception =>
    obtain ⟨detail, hdetail, hreturn⟩ := Outcome.bind_eq_ok.mp h
    cases hreturn
    exact ⟨_, rfl, detail, rfl, @isDetail_of_detailOf _ hC _ none _ hdetail⟩
  | validation exception =>
    obtain ⟨detail, hdetail, hreturn⟩ := Outcome.bind_eq_ok.mp h
    cases hreturn
    exact ⟨_, rfl, detail, rfl, @isDetail_of_detailOf _ hC _ none _ hdetail⟩

theorem getModelByClass_failed_iff {W : Surroundings} (hC : W.library.Documented)
    {exception : Exception} {cls : ExceptionClass} :
    (∃ e, getModelByClass W exception = .error e ∧ e.cls = cls) ↔
      TranslationFailsWith W.library exception cls := by
  have hsingle : ∀ type, getModelByClass W exception = (do
        let detail ← detailOf W.library exception none
        return { customExceptionDetailModelList := some [detail], type := some type }) →
      ((∃ e, getModelByClass W exception = .error e ∧ e.cls = cls) ↔
        KeysFailWith W.library exception cls) := by
    intro type htype
    rw [htype, ← detailOf_failed_iff hC none]
    cases detailOf W.library exception none with
    | error e => simp
    | ok detail => simp
  cases exception with
  | list object entries => exact list_failed_iff hC
  | business exception => exact hsingle .businessException rfl
  | general object => exact hsingle .generalException rfl
  | methodArgumentNotValid exception => exact hsingle .validationException rfl
  | validation exception => exact hsingle .validationException rfl

end Translation

/-! ## The outcome -/

section Reports

variable {W : Surroundings} {exception : Exception} {request : Option HttpServletRequest}

/-- What the request adds to a report that is just translated. -/
theorem withRequest_translated (details : List CustomExceptionDetailModel)
    (type : CustomExceptionModelType) (request : Option HttpServletRequest) :
    withRequest { customExceptionDetailModelList := some details, type := some type } request =
      { customExceptionDetailModelList := some details
        type := some type
        url := request.bind HttpServletRequest.servletPath
        ipAddress := request.bind fun request =>
          (request.getHeader (lit "X-FORWARDED-FOR")).or request.remoteAddr } := by
  cases request with
  | none => rfl
  | some request => rfl

/-- The report is complete but for the logged-in user. -/
theorem getCustomExceptionModel_ok (hC : W.library.Documented) {model : CustomExceptionModel}
    (h : getCustomExceptionModel W (some exception) request = .ok model) :
    ((∀ user, W.loggedInService ≠ some (.ok (some user))) →
      IsReport W exception request model) ∧
    ∀ user, W.loggedInService = some (.ok (some user)) →
      IsReport W exception request { model with username := user.username, userId := user.id } := by
  obtain ⟨translated, htranslated, hreturn⟩ := Outcome.bind_eq_ok.mp h
  obtain ⟨details, rfl, hdetails⟩ := getModelByClass_ok hC htranslated
  rw [withRequest_translated] at hreturn
  cases hreturn
  constructor
  · intro hnobody
    exact ⟨rfl, ⟨details, rfl, hdetails⟩, rfl, rfl, rfl,
      fun user huser => absurd huser (hnobody user), fun _ => ⟨rfl, rfl⟩⟩
  · intro user huser
    refine ⟨rfl, ⟨details, rfl, hdetails⟩, rfl, rfl, rfl, fun user' huser' => ?_,
      fun hnobody => absurd huser (hnobody user)⟩
    rw [huser] at huser'
    cases huser'
    exact ⟨rfl, rfl⟩

/-- The report with the logged-in user. -/
theorem withUser_ok (hC : W.library.Documented) {model : CustomExceptionModel}
    (h : getCustomExceptionModel W (some exception) request = .ok model)
    (hlogin : ¬ LoginLookupFails W) :
    ∃ report, withUser W model = .ok report ∧ IsReport W exception request report := by
  obtain ⟨hnobody, hsomebody⟩ := getCustomExceptionModel_ok hC h
  unfold withUser
  cases hservice : W.loggedInService with
  | none => exact ⟨model, rfl, hnobody fun user huser => by rw [hservice] at huser; cases huser⟩
  | some lookup =>
    cases lookup with
    | error e => exact absurd ⟨e, hservice⟩ hlogin
    | ok user =>
      cases user with
      | none =>
        exact ⟨model, rfl, hnobody fun user huser => by rw [hservice] at huser; cases huser⟩
      | some user => exact ⟨_, rfl, hsomebody user hservice⟩

theorem isStored_iff {report : CustomExceptionModel} (h : IsReport W exception request report) :
    isStored W report = true ↔ FirstReportable W exception := by
  obtain ⟨details, hlist, hdetails⟩ := h.details
  have hsingle : ∀ detail, details = [detail] → detail.exception = exception →
      firstException exception = some exception →
      (isStored W report = true ↔ FirstReportable W exception) := by
    rintro detail rfl hexception hfirst
    unfold isStored FirstReportable
    rw [hlist, hfirst]
    simp [hexception]
  cases exception with
  | list object entries =>
    unfold isStored FirstReportable firstException
    rw [hlist]
    cases hdetails with
    | nil => simp
    | cons hfirst _ =>
      obtain ⟨first, ref, id, rfl, -, hdetail⟩ := hfirst
      simp [hdetail.exception]
  | business exception =>
    obtain ⟨detail, hdetail, hd⟩ := hdetails
    exact hsingle detail hdetail hd.exception rfl
  | general object =>
    obtain ⟨detail, hdetail, hd⟩ := hdetails
    exact hsingle detail hdetail hd.exception rfl
  | methodArgumentNotValid exception =>
    obtain ⟨detail, hdetail, hd⟩ := hdetails
    exact hsingle detail hdetail hd.exception rfl
  | validation exception =>
    obtain ⟨detail, hdetail, hd⟩ := hdetails
    exact hsingle detail hdetail hd.exception rfl

/-- The handler fails as the translation fails, and then as the lookup of the user fails, and stores
nothing. Otherwise it makes one complete report, which is stored and answered by the store if its
first exception passes the guard, and is the answer itself if not. -/
theorem doException_outcome (hC : W.library.Documented) (exception : Exception)
    (request : Option HttpServletRequest) :
    (∀ cls, TranslationFailsWith W.library exception cls →
      ∃ e, e.cls = cls ∧ doException W exception request = (.error e, [])) ∧
    ((∀ cls, ¬ TranslationFailsWith W.library exception cls) →
      (∀ e, W.loggedInService = some (.error e) →
        doException W exception request = (.error e, [])) ∧
      (¬ LoginLookupFails W → ∃ report, IsReport W exception request report ∧
        (FirstReportable W exception →
          doException W exception request = (W.customExceptionCreate report, [report])) ∧
        (¬ FirstReportable W exception →
          doException W exception request = (.ok report, [])))) := by
  constructor
  · intro cls hfails
    obtain ⟨e, he, hcls⟩ := (getModelByClass_failed_iff hC).mpr hfails
    refine ⟨e, hcls, ?_⟩
    simp only [doException, getCustomExceptionModel, he, Outcome.error_bind]
  · intro hnot
    obtain ⟨translated, htranslated⟩ : ∃ model, getModelByClass W exception = .ok model := by
      by_contra hfails
      obtain ⟨e, he⟩ := Outcome.error_iff_not_ok.mpr hfails
      exact hnot e.cls ((getModelByClass_failed_iff hC).mp ⟨e, he, rfl⟩)
    obtain ⟨model, hmodel⟩ : ∃ model,
        getCustomExceptionModel W (some exception) request = .ok model :=
      ⟨_, by simp only [getCustomExceptionModel, htranslated]; rfl⟩
    constructor
    · intro e hlookup
      have hfails : withUser W model = .error e := by
        simp only [withUser, hlookup]
        rfl
      simp only [doException, hmodel, hfails]
    · intro hlogin
      obtain ⟨report, hreport, hcomplete⟩ := withUser_ok hC hmodel hlogin
      refine ⟨report, hcomplete, fun hfirst => ?_, fun hfirst => ?_⟩
      · have hstored := (isStored_iff hcomplete).mpr hfirst
        simp only [doException, hmodel, hreport, if_pos hstored]
      · have hstored := mt (isStored_iff hcomplete).mp hfirst
        simp only [doException, hmodel, hreport, if_neg hstored]

end Reports

/-! A list that ends at its second entry, and one that is translated and stored. -/

theorem outcomes_of_two_lists :
    (∃ e, e.cls = .stringIndexOutOfBounds ∧ doException referenceSurroundings
      (.list 0 [lockedEntry, validationEntry (lit "Model")]) none = (.error e, [])) ∧
    ∃ report, IsReport referenceSurroundings (.list 0 mixedEntries) none report ∧
      doException referenceSurroundings (.list 0 mixedEntries) none = (.ok report, [report]) := by
  have hC : referenceSurroundings.library.Documented := Library.reference_documented
  constructor
  · refine (doException_outcome hC _ none).1 _ ⟨[lockedEntry], _, [], rfl, ?_, Or.inr (Or.inr ?_)⟩
    · intro entry hentry
      cases List.mem_singleton.mp hentry
      exact ⟨⟨_, rfl, Or.inl ⟨rfl, rfl⟩⟩, _, rfl, trivial⟩
    · refine ⟨⟨_, rfl, Or.inl ⟨rfl, rfl⟩⟩, _, rfl, Or.inr ⟨⟨by simp, by simp⟩, ?_, rfl⟩⟩
      rintro ⟨n, f, hn, -, hcut⟩
      cases hn
      rcases hcut with hempty | ⟨hpos, -⟩
      · revert hempty
        decide
      · revert hpos
        decide
  · have hlogin : ¬ LoginLookupFails referenceSurroundings := by
      rintro ⟨e, he⟩
      cases he
    obtain ⟨report, hreport⟩ : ∃ report, doException referenceSurroundings
        (.list 0 mixedEntries) none = (.ok report, [report]) := ⟨_, rfl⟩
    obtain ⟨hfails, hreturns⟩ := doException_outcome hC (.list 0 mixedEntries) none
    have hnot : ∀ cls, ¬ TranslationFailsWith referenceSurroundings.library
        (.list 0 mixedEntries) cls := by
      intro cls h
      obtain ⟨e, -, he⟩ := hfails cls h
      rw [hreport] at he
      cases he
    obtain ⟨report', hcomplete, hstored, -⟩ := (hreturns hnot).2 hlogin
    exact ⟨report', hcomplete, hstored ⟨_, rfl, by decide⟩⟩

end ExceptionManager

end AuthorizationServer
