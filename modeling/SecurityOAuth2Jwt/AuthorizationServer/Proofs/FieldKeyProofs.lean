import SecurityOAuth2Jwt.Java.Proofs.Utf16Proofs
import SecurityOAuth2Jwt.AuthorizationServer.ExceptionManager

/-!
# Proofs: the key of a field error

The key goes by the part of the object name in front of a marker. The code finds the marker in the
lower-cased copy of the name, so it cuts the right part exactly when lower-casing keeps the length
of that part, and it cuts the first unit of the part without a look at whether there is one.
-/

namespace AuthorizationServer

open Java Occurrence

/-! ## The constructor of a field error -/

theorem Library.Documented.newFieldError_ok_iff {C : Library} (hC : C.Documented)
    {objectName field defaultMessage : Option Utf16} {error : FieldError} :
    C.newFieldError objectName field defaultMessage = .ok error ↔
      ∃ n f, objectName = some n ∧ field = some f ∧ error = ⟨n, f, defaultMessage⟩ := by
  by_cases hnull : objectName = none ∨ field = none
  · obtain ⟨text, htext⟩ := hC.rejects _ _ defaultMessage hnull
    rw [htext]
    constructor
    · intro h
      cases h
    · rintro ⟨n, f, rfl, rfl, -⟩
      rcases hnull with hn | hf
      · cases hn
      · cases hf
  · rw [not_or] at hnull
    obtain ⟨n, rfl⟩ := Option.ne_none_iff_exists'.mp hnull.1
    obtain ⟨f, rfl⟩ := Option.ne_none_iff_exists'.mp hnull.2
    rw [hC.stores]
    simp [eq_comm]

/-- The constructor that stores what it is given, and rejects names that are null. -/
def Library.reference : Library where
  toCharacterData := .reference
  newFieldError objectName field defaultMessage :=
    match objectName, field with
    | none, _ => .error ⟨.illegalArgument, some "Object name must not be null"⟩
    | some _, none => .error ⟨.illegalArgument, some "Field must not be null"⟩
    | some objectName, some field => .ok { objectName, field, defaultMessage }

theorem Library.reference_documented : Library.reference.Documented where
  characters := CharacterData.reference_documented
  stores _ _ _ := rfl
  rejects objectName field defaultMessage hnull := by
    cases objectName with
    | none => exact ⟨_, rfl⟩
    | some n =>
      cases field with
      | none => exact ⟨_, rfl⟩
      | some f =>
        rcases hnull with hn | hf
        · cases hn
        · cases hf

namespace ExceptionManager

/-! ## The name in front of the marker -/

/-- The place of the marker in an object name, regardless of case. -/
def markerIndex (modelName : Utf16) : Option Nat :=
  (firstMatch SameLetter (lit "frontmodel") modelName).or
    (firstMatch SameLetter (lit "model") modelName)

/-- The object name up to the marker. -/
def beforeMarker (modelName : Utf16) : Utf16 :=
  match markerIndex modelName with
  | some i => modelName.take i
  | none => modelName

variable {C : Library}

/-- The string with its first unit lower-cased. -/
def lowerFirst (C : Library) : Utf16 → Utf16
  | [] => []
  | c :: rest => C.toLowerCase [c] ++ rest

/-- The index at which the code cuts the object name. -/
def cutLength (C : Library) (modelName : Utf16) : Nat :=
  match markerIndex modelName with
  | some i => loweredLength C.toCharacterData modelName i
  | none => modelName.length

/-- Lower-casing leaves the place of the marker where it is, and the marker is not in front. -/
def MarkerKept (C : Library) (modelName : Utf16) : Prop :=
  ∀ i, markerIndex modelName = some i → 0 < i ∧ loweredLength C.toCharacterData modelName i = i

theorem beforeMarker_prefix (modelName : Utf16) : beforeMarker modelName <+: modelName := by
  unfold beforeMarker
  cases markerIndex modelName with
  | none => exact List.prefix_rfl
  | some i => exact List.take_prefix i modelName

theorem markerIndex_le {modelName : Utf16} {i : Nat} (h : markerIndex modelName = some i) :
    i ≤ modelName.length := by
  unfold markerIndex at h
  rcases Option.or_eq_some_iff.mp h with hfront | ⟨-, hmodel⟩
  · exact (firstMatch_eq_some_iff.mp hfront).1
  · exact (firstMatch_eq_some_iff.mp hmodel).1

/-- The letters of the two markers have the same case forms in all locales. -/
theorem indexOf_frontmodel (hC : C.Documented) (s : Utf16) :
    indexOf (C.toLowerCase s) (lit "frontmodel") =
      match firstMatch SameLetter (lit "frontmodel") s with
      | some i => (loweredLength C.toCharacterData s i : Int)
      | none => -1 :=
  indexOf_toLowerCase hC.characters (by decide) (by decide) s

theorem indexOf_model (hC : C.Documented) (s : Utf16) :
    indexOf (C.toLowerCase s) (lit "model") =
      match firstMatch SameLetter (lit "model") s with
      | some i => (loweredLength C.toCharacterData s i : Int)
      | none => -1 :=
  indexOf_toLowerCase hC.characters (by decide) (by decide) s

theorem cutAtMarker_eq (hC : C.Documented) (modelName : Utf16) :
    cutAtMarker C modelName = substring modelName 0 (cutLength C modelName) := by
  have hwhole : substring modelName 0 modelName.length = .ok modelName :=
    substring_zero_ok_iff.mpr ⟨le_rfl, (List.take_length).symm⟩
  have hpos : ∀ k : Nat, (k : Int) > -1 := by
    intro k
    omega
  unfold cutAtMarker cutLength markerIndex
  rw [indexOf_frontmodel hC, indexOf_model hC]
  cases firstMatch SameLetter (lit "frontmodel") modelName with
  | some i => simp [hpos]
  | none =>
    cases firstMatch SameLetter (lit "model") modelName with
    | some i => simp [hpos]
    | none => simp [hwhole]

/-- The prefix of a model name exists exactly when the index of the cut is neither 0 nor behind the
end, and is the name up to that index with its first unit lower-cased. -/
theorem getModelPrefix_ok_iff (hC : C.Documented) {modelName modelPrefix : Utf16} :
    getModelPrefixFromModelName C modelName = .ok modelPrefix ↔
      0 < cutLength C modelName ∧ cutLength C modelName ≤ modelName.length ∧
        modelPrefix = lowerFirst C (modelName.take (cutLength C modelName)) := by
  unfold getModelPrefixFromModelName
  rw [cutAtMarker_eq hC, Outcome.bind_eq_ok]
  simp only [substring_zero_ok_iff, Outcome.bind_eq_ok, substring_first_ok_iff,
    Outcome.pure_eq_ok, Except.ok.injEq]
  constructor
  · rintro ⟨part, ⟨hle, hpart⟩, first, ⟨c, tail, hcons, rfl⟩, rest, hrest, rfl⟩
    subst hcons
    rw [substring_rest] at hrest
    cases hrest
    refine ⟨?_, hle, by rw [← hpart]; rfl⟩
    by_contra hzero
    rw [Nat.eq_zero_of_not_pos hzero, List.take_zero] at hpart
    cases hpart
  · rintro ⟨hpos, hle, rfl⟩
    have hne : modelName.take (cutLength C modelName) ≠ [] := by
      intro hnil
      have hlength := congrArg List.length hnil
      rw [List.length_take, List.length_nil] at hlength
      omega
    obtain ⟨c, rest, hcons⟩ := List.exists_cons_of_ne_nil hne
    refine ⟨c :: rest, ⟨hle, hcons.symm⟩, [c], ⟨c, rest, rfl, rfl⟩, rest, substring_rest c rest, ?_⟩
    rw [hcons]
    rfl

/-- The code computes the name in front of the marker exactly when the marker is kept. -/
theorem getModelPrefix_expected_iff (hC : C.Documented) {modelName : Utf16}
    (hne : modelName ≠ []) :
    getModelPrefixFromModelName C modelName = .ok (lowerFirst C (beforeMarker modelName)) ↔
      MarkerKept C modelName := by
  obtain ⟨c, rest, rfl⟩ := List.exists_cons_of_ne_nil hne
  rw [getModelPrefix_ok_iff hC]
  unfold MarkerKept cutLength beforeMarker
  cases hmarker : markerIndex (c :: rest) with
  | none => simp
  | some i =>
    have hi := markerIndex_le hmarker
    simp only [Option.some.injEq, forall_eq']
    constructor
    · rintro ⟨hpos, hle, heq⟩
      have hzero : i ≠ 0 := by
        rintro rfl
        simp at hpos
      obtain ⟨k, hk⟩ := Nat.exists_eq_succ_of_ne_zero (Nat.pos_iff_ne_zero.mp hpos)
      obtain ⟨j, rfl⟩ := Nat.exists_eq_succ_of_ne_zero hzero
      -- the two strings begin with the same lower-cased unit, so their lengths decide
      rw [hk, List.take_succ_cons, List.take_succ_cons] at heq
      have hlength := congrArg List.length heq
      simp only [lowerFirst, List.length_append, List.length_take] at hlength
      rw [List.length_cons] at hi hle
      exact ⟨Nat.succ_pos j, by omega⟩
    · rintro ⟨hpos, hkept⟩
      rw [hkept]
      exact ⟨hpos, hi, rfl⟩

/-! ## Keys -/

theorem length_fieldKey (modelPrefix field : Utf16) :
    (fieldKey modelPrefix field).length = 2 * modelPrefix.length + field.length + 3 := by
  have hdot : (lit ".").length = 1 := by decide
  have hopen : (lit "[").length = 1 := by decide
  have hclose : (lit "]").length = 1 := by decide
  simp only [fieldKey, List.length_append, hdot, hopen, hclose]
  omega

/-- For one field, the key tells the prefix. -/
theorem fieldKey_left_injective {p q field : Utf16} (h : fieldKey p field = fieldKey q field) :
    p = q := by
  have hlength := congrArg List.length h
  rw [length_fieldKey, length_fieldKey] at hlength
  unfold fieldKey at h
  simp only [List.append_assoc] at h
  exact List.append_inj_left h (by omega)

/-- The opening bracket. -/
def bracket : UInt16 := 0x5B

/-- For prefixes without an opening bracket, the key tells the prefix and the field. -/
theorem fieldKey_inj {p q f g : Utf16} (hp : bracket ∉ p) (hq : bracket ∉ q) :
    fieldKey p f = fieldKey q g ↔ p = q ∧ f = g := by
  constructor
  · intro h
    have hopen : lit "[" = [bracket] := by decide
    have hdot : bracket ∉ lit "." := by decide
    have hfront : ∀ r, bracket ∉ r → bracket ∉ r ++ lit "." ++ r := by
      intro r hr
      simp [hr, hdot]
    have hkey : ∀ r e, fieldKey r e = (r ++ lit "." ++ r) ++ bracket :: (e ++ lit "]") := by
      intro r e
      simp [fieldKey, hopen]
    have hparts := h
    rw [hkey, hkey] at hparts
    -- no bracket in front of the one that opens the field, so the two fields begin together
    have hplace := congrArg (List.idxOf bracket) hparts
    rw [List.idxOf_append_of_notMem (hfront p hp), List.idxOf_append_of_notMem (hfront q hq),
      List.idxOf_cons_self, List.idxOf_cons_self] at hplace
    have hrest := (List.cons.inj (List.append_inj_right hparts hplace)).2
    obtain rfl : f = g := List.append_cancel_right hrest
    exact ⟨fieldKey_left_injective h, rfl⟩
  · rintro ⟨rfl, rfl⟩
    rfl

/-! ## The loop over the field errors -/

theorem relatedToFieldName_of_ne {error : FieldError} (hne : error.objectName ≠ []) {key : Utf16} :
    relatedToFieldName C error = .ok key ↔
      ∃ modelPrefix, getModelPrefixFromModelName C error.objectName = .ok modelPrefix ∧
        key = fieldKey modelPrefix error.field := by
  unfold relatedToFieldName
  rw [if_neg hne, Outcome.bind_eq_ok]
  simp only [Outcome.pure_eq_ok, Except.ok.injEq, eq_comm]

theorem putFieldError_ok_iff {map map' : FieldMessages} {error : FieldError} :
    putFieldError C map error = .ok map' ↔
      ∃ key, relatedToFieldName C error = .ok key ∧ map' = map.put key error.defaultMessage := by
  unfold putFieldError
  rw [Outcome.bind_eq_ok]
  simp only [Outcome.pure_eq_ok, Except.ok.injEq, eq_comm]

theorem putFieldErrors_append {errors : List FieldError} {error : FieldError}
    {map : FieldMessages} (herrors : putFieldErrors C errors = .ok map) :
    putFieldErrors C (errors ++ [error]) = putFieldError C map error := by
  unfold putFieldErrors at herrors ⊢
  rw [List.foldlM_append, herrors, Outcome.ok_bind, List.foldlM_cons]
  exact bind_pure _

theorem putFieldErrors_singleton (error : FieldError) :
    putFieldErrors C [error] = putFieldError C ∅ error :=
  bind_pure _

theorem methodArgumentNotValid_ok_iff {exception : MethodArgumentNotValidException}
    {id : Option Int32} {detail : CustomExceptionDetailModel} :
    getModelFromMethodArgumentNotValidException C exception id = .ok detail ↔
      ∃ map, putFieldErrors C exception.fieldErrors = .ok map ∧
        detail = ⟨.methodArgumentNotValid exception, idText id, .validationException, some [],
          some map⟩ := by
  unfold getModelFromMethodArgumentNotValidException
  rw [Outcome.bind_eq_ok]
  simp only [Outcome.pure_eq_ok, Except.ok.injEq, eq_comm]

/-- A validation exception goes the way of its one field error. -/
theorem validation_ok_iff {exception : ValidationException} {id : Option Int32}
    {detail : CustomExceptionDetailModel} :
    getModelFromValidationException C exception id = .ok detail ↔
      ∃ error map, C.newFieldError exception.className exception.fieldName
          exception.fieldValidationError = .ok error ∧
        putFieldErrors C [error] = .ok map ∧
        detail = ⟨.validation exception, idText id, .validationException, exception.description,
          some map⟩ := by
  unfold getModelFromValidationException
  simp only [Outcome.bind_eq_ok, Outcome.pure_eq_ok, Except.ok.injEq]
  constructor
  · rintro ⟨error, herror, map, hmap, rfl⟩
    exact ⟨error, map, herror, hmap, rfl⟩
  · rintro ⟨error, map, herror, hmap, rfl⟩
    exact ⟨error, herror, map, hmap, rfl⟩

/-! ## The key of an object name -/

/-- The key that goes by the name in front of the marker. -/
def expectedKey (C : Library) (objectName field : Utf16) : Utf16 :=
  fieldKey (lowerFirst C (beforeMarker objectName)) field

/-- Both loops get past an error with this object name and field, whatever the errors before it, and
store its message under the expected key. -/
structure KeyBuilt (C : Library) (objectName field : Utf16) (message : Option Utf16) :
    Prop where
  methodArgumentNotValid : ∀ object errors map id, putFieldErrors C errors = .ok map →
    ∃ detail, getModelFromMethodArgumentNotValidException C
        ⟨object, errors ++ [⟨objectName, field, message⟩]⟩ id = .ok detail ∧
      detail.fieldValidationError = some (map.put (expectedKey C objectName field) message)
  validation : ∀ object description id,
    ∃ detail, getModelFromValidationException C
        ⟨object, some objectName, some field, message, description⟩ id = .ok detail ∧
      detail.fieldValidationError =
        some ((∅ : FieldMessages).put (expectedKey C objectName field) message)

/-- The message of an error is stored under the key of its object name and field exactly when the
name has no marker, or something in front of the marker whose length lower-casing keeps. -/
theorem key_built_iff (hC : C.Documented) {objectName : Utf16} (field : Utf16)
    (message : Option Utf16) (hne : objectName ≠ []) :
    (KeyBuilt C objectName field message ↔ MarkerKept C objectName) ∧
      beforeMarker objectName <+: objectName := by
  refine ⟨?_, beforeMarker_prefix objectName⟩
  rw [← getModelPrefix_expected_iff hC hne]
  constructor
  · intro h
    obtain ⟨detail, hdetail, hmap⟩ := h.methodArgumentNotValid 0 [] ∅ none rfl
    obtain ⟨map, herrors, rfl⟩ := methodArgumentNotValid_ok_iff.mp hdetail
    obtain ⟨key, hkey, rfl⟩ :=
      putFieldError_ok_iff.mp ((putFieldErrors_singleton _).symm.trans herrors)
    obtain ⟨modelPrefix, hprefix, rfl⟩ := (relatedToFieldName_of_ne hne).mp hkey
    -- the only key of the map is the one that the code built
    have hfind := congrArg (JavaMap.find? · (expectedKey C objectName field))
      (Option.some.inj hmap)
    simp only [JavaMap.find?_put, if_true, JavaMap.find?_empty] at hfind
    have hsame : expectedKey C objectName field = fieldKey modelPrefix field := by
      by_contra hother
      rw [if_neg hother] at hfind
      cases hfind
    rw [fieldKey_left_injective hsame]
    exact hprefix
  · intro hprefix
    have hkey : relatedToFieldName C ⟨objectName, field, message⟩ =
        .ok (expectedKey C objectName field) :=
      (relatedToFieldName_of_ne hne).mpr ⟨_, hprefix, rfl⟩
    constructor
    · intro object errors map id herrors
      refine ⟨_, methodArgumentNotValid_ok_iff.mpr ⟨_, ?_, rfl⟩, rfl⟩
      exact (putFieldErrors_append herrors).trans (putFieldError_ok_iff.mpr ⟨_, hkey, rfl⟩)
    · intro object description id
      refine ⟨_, validation_ok_iff.mpr ⟨_, _, hC.stores _ _ _, ?_, rfl⟩, rfl⟩
      exact (putFieldErrors_singleton _).trans
        (putFieldError_ok_iff.mpr ⟨_, hkey, rfl⟩)

/-! A name with a marker, one that is a marker, and one whose first letter grows in lower case. -/

theorem key_of_userFrontModel_built :
    KeyBuilt .reference (lit "userFrontModel") (lit "name") (some (lit "required")) ∧
      expectedKey .reference (lit "userFrontModel") (lit "name") = lit "user.user[name]" := by
  have hmarker : markerIndex (lit "userFrontModel") = some 4 := by decide
  have hkept : MarkerKept .reference (lit "userFrontModel") := by
    intro i hi
    rw [hmarker] at hi
    cases hi
    exact ⟨by decide, by decide⟩
  exact ⟨(key_built_iff Library.reference_documented (lit "name") (some (lit "required"))
    (by decide)).1.mpr hkept, by decide⟩

theorem key_of_model_not_built :
    getModelFromMethodArgumentNotValidException .reference
        ⟨0, [⟨lit "Model", lit "name", none⟩]⟩ none =
      .error (.ofClass .stringIndexOutOfBounds) ∧
    getModelFromValidationException .reference
        ⟨0, some (lit "Model"), some (lit "name"), none, none⟩ none =
      .error (.ofClass .stringIndexOutOfBounds) ∧
    getModelPrefixFromModelName .reference (0x130 :: lit "Model") =
      .ok ([0x69, 0x307] ++ lit "M") ∧
    ¬ KeyBuilt .reference (lit "Model") (lit "name") none := by
  refine ⟨rfl, rfl, rfl, fun h => ?_⟩
  obtain ⟨detail, hdetail, -⟩ := h.methodArgumentNotValid 0 [] ∅ none rfl
  cases hdetail

end ExceptionManager

end AuthorizationServer
