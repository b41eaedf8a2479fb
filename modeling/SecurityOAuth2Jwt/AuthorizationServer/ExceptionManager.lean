import SecurityOAuth2Jwt.Common.JavaMap
import SecurityOAuth2Jwt.Java.Utf16

/-!
# `ExceptionManager`

The translation of exceptions to the reports that the server stores and answers with. The exception
and report classes are not part of the repository: a detail is known by the arguments of its
constructor, and what the code reads of other objects is a field of `Surroundings`. The character
data of the platform and the constructor of Spring's field errors are parameters.
-/

namespace AuthorizationServer

open Java

/-! ## Exceptions -/

/-- A reference to a string. `!=` compares references, so it matters whether the reference is the
one that a literal of the same text evaluates to. -/
structure StringRef where
  text : Utf16
  interned : Bool
  deriving DecidableEq, Repr

/-- An error of a field, by what its getters return. The names are not null. -/
structure FieldError where
  objectName : Utf16
  field : Utf16
  defaultMessage : Option Utf16
  deriving DecidableEq, Repr

/-- What the translation calls: the character data of the platform, and the constructor of Spring's
field errors. -/
structure Library extends CharacterData where
  /-- `new FieldError(objectName, field, defaultMessage)`. -/
  newFieldError : (objectName field defaultMessage : Option Utf16) → Result FieldError

structure Library.Documented (C : Library) : Prop where
  characters : C.toCharacterData.Documented
  /-- The constructor stores what it is given. -/
  stores : ∀ objectName field defaultMessage,
    C.newFieldError (some objectName) (some field) defaultMessage =
      .ok ⟨objectName, field, defaultMessage⟩
  /-- It rejects names that are null. -/
  rejects : ∀ objectName field defaultMessage, objectName = none ∨ field = none →
    ∃ message, C.newFieldError objectName field defaultMessage =
      .error ⟨.illegalArgument, message⟩

/-- `object` tells the exception apart from others with the same fields, here and below. -/
structure MethodArgumentNotValidException where
  object : Nat
  fieldErrors : List FieldError

structure ValidationException where
  object : Nat
  className : Option Utf16
  fieldName : Option Utf16
  fieldValidationError : Option Utf16
  description : Option Utf16

structure BusinessException where
  object : Nat
  description : Option Utf16

/-- An entry of the map of a `ListException`: an exception and the id that it relates to. -/
structure Entry (ε : Type) where
  getKey : Option ε
  getValue : Option StringRef

/-- An exception, by its exact class; the entries of a list are in iteration order. -/
inductive Exception where
  | list (object : Nat) (exceptionList : List (Entry Exception))
  | methodArgumentNotValid (exception : MethodArgumentNotValidException)
  | validation (exception : ValidationException)
  | business (exception : BusinessException)
  /-- An exception of any other class. -/
  | general (object : Nat)

/-! ## Reports -/

inductive CustomExceptionModelType where
  | listException
  | validationException
  | businessException
  | generalException
  deriving DecidableEq, Repr

/-- The messages by field key. -/
abbrev FieldMessages := JavaMap Utf16 (Option Utf16)

/-- A detail, as the arguments of its constructor; one of the two constructors has no field
messages. -/
structure CustomExceptionDetailModel where
  exception : Exception
  relatedToId : Utf16
  type : CustomExceptionModelType
  description : Option Utf16
  fieldValidationError : Option FieldMessages := none

structure CustomExceptionModel where
  customExceptionDetailModelList : Option (List CustomExceptionDetailModel) := none
  type : Option CustomExceptionModelType := none
  url : Option Utf16 := none
  ipAddress : Option Utf16 := none
  customExceptionModelMode : JavaValue := .null
  username : Option Utf16 := none
  userId : JavaValue := .null

structure HttpServletRequest where
  servletPath : Option Utf16
  getHeader : Utf16 → Option Utf16
  remoteAddr : Option Utf16

structure UserAuthenticatedModel where
  username : Option Utf16
  id : JavaValue

/-- The objects around the manager. -/
structure Surroundings where
  library : Library
  /-- `RunConfiguration.getModel().getCustomExceptionModeEnum()`. -/
  customExceptionMode : JavaValue
  /-- The logged-in user, if the service is there. -/
  loggedInService : Option (Result (Option UserAuthenticatedModel))
  /-- `getMessage` of a detail, which goes by the exception of the detail. -/
  getMessage : Exception → Option (JavaMap Utf16 (Option Utf16))
  customExceptionCreate : CustomExceptionModel → Result CustomExceptionModel

/-! ## Field keys -/

namespace ExceptionManager

section Translation

variable (C : Library)

/-- The name in front of the marker. The index is found in the lower-cased copy of the name and cuts
the name itself. -/
def cutAtMarker (modelName : Utf16) : Result Utf16 :=
  let modelPrefixIndex := indexOf (C.toLowerCase modelName) (lit "frontmodel")
  if modelPrefixIndex > -1 then substring modelName 0 modelPrefixIndex
  else
    let modelPrefixIndex := indexOf (C.toLowerCase modelName) (lit "model")
    if modelPrefixIndex > -1 then substring modelName 0 modelPrefixIndex else .ok modelName

def getModelPrefixFromModelName (modelName : Utf16) : Result Utf16 := do
  let modelPrefix ← cutAtMarker C modelName
  let first ← substring modelPrefix 0 1
  let rest ← substring modelPrefix 1 modelPrefix.length
  return C.toLowerCase first ++ rest

/-- `modelPrefix + "." + modelPrefix + "[" + field + "]"`. -/
def fieldKey (modelPrefix field : Utf16) : Utf16 :=
  modelPrefix ++ lit "." ++ modelPrefix ++ lit "[" ++ field ++ lit "]"

/-- `relatedToFieldName` of an error. -/
def relatedToFieldName (fieldError : FieldError) : Result Utf16 :=
  if fieldError.objectName = [] then .ok fieldError.field
  else do
    let modelPrefix ← getModelPrefixFromModelName C fieldError.objectName
    return fieldKey modelPrefix fieldError.field

/-- The body of the loop over the field errors. -/
def putFieldError (fieldValidationError : FieldMessages) (fieldError : FieldError) :
    Result FieldMessages := do
  let relatedToFieldName ← relatedToFieldName C fieldError
  return fieldValidationError.put relatedToFieldName fieldError.defaultMessage

/-- The loop over the field errors, which two of the functions below share. -/
def putFieldErrors (fieldErrors : List FieldError) : Result FieldMessages :=
  fieldErrors.foldlM (putFieldError C) ∅

/-! ## Details -/

/-- The related id of a detail. -/
def idText (id : Option Int32) : Utf16 :=
  match id with
  | some id => intToString id
  | none => []

def getModelFromMethodArgumentNotValidException (exception : MethodArgumentNotValidException)
    (id : Option Int32) : Result CustomExceptionDetailModel := do
  let fieldValidationError ← putFieldErrors C exception.fieldErrors
  return {
    exception := .methodArgumentNotValid exception
    relatedToId := idText id
    type := .validationException
    description := some []
    fieldValidationError := some fieldValidationError }

def getModelFromValidationException (exception : ValidationException) (id : Option Int32) :
    Result CustomExceptionDetailModel := do
  let error ← C.newFieldError exception.className exception.fieldName exception.fieldValidationError
  let fieldValidationError ← putFieldErrors C [error]
  return {
    exception := .validation exception
    relatedToId := idText id
    type := .validationException
    description := exception.description
    fieldValidationError := some fieldValidationError }

def getModelFromBusinessException (exception : BusinessException) (id : Option Int32) :
    CustomExceptionDetailModel where
  exception := .business exception
  relatedToId := idText id
  type := .businessException
  description := exception.description

def getModelFromGeneralException (exception : Exception) (id : Option Int32) :
    CustomExceptionDetailModel where
  exception := exception
  relatedToId := idText id
  type := .generalException
  description := some []

/-! ## Lists of exceptions -/

/-- The id of an entry: none if the reference is that of the literal `""`. -/
def entryId (relatedToId : Option StringRef) : Result (Option Int32) :=
  match relatedToId with
  | none => .error (.ofClass .numberFormat)
  | some relatedToId =>
    if relatedToId.text = [] ∧ relatedToId.interned then return none
    else some <$> C.parseInt relatedToId.text

/-- The body of the loop over the entries. -/
def getModelFromEntry (entry : Entry Exception) : Result CustomExceptionDetailModel := do
  let id ← entryId C entry.getValue
  match entry.getKey with
  | none => .error (.ofClass .nullPointer)
  | some (.methodArgumentNotValid exception) =>
    getModelFromMethodArgumentNotValidException C exception id
  | some (.validation exception) => getModelFromValidationException C exception id
  | some (.business exception) => return getModelFromBusinessException exception id
  -- a list inside a list is an exception like any other
  | some exception => return getModelFromGeneralException exception id

def getModelFromListException (exceptionList : List (Entry Exception)) :
    Result CustomExceptionModel := do
  let customExceptionDetailModelList ← exceptionList.mapM (getModelFromEntry C)
  return {
    customExceptionDetailModelList := some customExceptionDetailModelList
    type := some .listException }

end Translation

/-! ## Reports of exceptions -/

section Reports

variable (W : Surroundings)

/-- The part of the report that depends on the class of the exception. -/
def getModelByClass (exception : Exception) : Result CustomExceptionModel :=
  match exception with
  | .list _ exceptionList => getModelFromListException W.library exceptionList
  | .methodArgumentNotValid exception => do
    let detail ← getModelFromMethodArgumentNotValidException W.library exception none
    return { customExceptionDetailModelList := some [detail], type := some .validationException }
  | .validation exception => do
    let detail ← getModelFromValidationException W.library exception none
    return { customExceptionDetailModelList := some [detail], type := some .validationException }
  | .business exception => return {
    customExceptionDetailModelList := some [getModelFromBusinessException exception none]
    type := some .businessException }
  | exception => return {
    customExceptionDetailModelList := some [getModelFromGeneralException exception none]
    type := some .generalException }

/-- The url and the address of the request, if there is one. -/
def withRequest (customExceptionModel : CustomExceptionModel)
    (request : Option HttpServletRequest) : CustomExceptionModel :=
  match request with
  | none => customExceptionModel
  | some request => { customExceptionModel with
      url := request.servletPath
      ipAddress := (request.getHeader (lit "X-FORWARDED-FOR")).or request.remoteAddr }

def getCustomExceptionModel (exception : Option Exception) (request : Option HttpServletRequest) :
    Result CustomExceptionModel :=
  match exception with
  | none => return {}
  | some exception => do
    let customExceptionModel ← getModelByClass W exception
    return { withRequest customExceptionModel request with
      customExceptionModelMode := W.customExceptionMode }

/-- The logged-in user goes into the report. -/
def withUser (customExceptionModel : CustomExceptionModel) : Result CustomExceptionModel :=
  match W.loggedInService with
  | none => return customExceptionModel
  | some getLoggedInUserAuthenticatedModel => do
    match ← getLoggedInUserAuthenticatedModel with
    | none => return customExceptionModel
    | some user => return { customExceptionModel with username := user.username, userId := user.id }

/-- The error message that is not stored. -/
def loggedInUserIsNull : Utf16 :=
  lit "businessexception.common.LoggedInServiceImpl.loggedInUserIsNull"

/-- The messages of a detail have an error, and not the one for the missing login. -/
def isReportable (message : Option (JavaMap Utf16 (Option Utf16))) : Bool :=
  match message with
  | none => false
  | some message =>
    match (message.find? (lit "error")).join with
    | none => false
    | some error =>
      !decide (W.library.toLowerCase loggedInUserIsNull = W.library.toLowerCase error)

/-- The guard in front of the call that stores the report looks at the first detail only. -/
def isStored (customExceptionModel : CustomExceptionModel) : Bool :=
  match customExceptionModel.customExceptionDetailModelList with
  | some (detail :: _) => isReportable W (W.getMessage detail.exception)
  | _ => false

/-- The outcome of the call and the reports given to `customExceptionCreate`. -/
def doException (exception : Exception) (request : Option HttpServletRequest) :
    Result CustomExceptionModel × List CustomExceptionModel :=
  match getCustomExceptionModel W (some exception) request with
  | .error e => (.error e, [])
  | .ok customExceptionModel =>
    match withUser W customExceptionModel with
    | .error e => (.error e, [])
    | .ok customExceptionModel =>
      if isStored W customExceptionModel then
        (W.customExceptionCreate customExceptionModel, [customExceptionModel])
      else (.ok customExceptionModel, [])

end Reports

end ExceptionManager

end AuthorizationServer
