import Mathlib.Data.List.Find
import Mathlib.Data.List.Perm.Basic
import SecurityOAuth2Jwt.Common.Proofs.JavaMapProofs
import SecurityOAuth2Jwt.AuthorizationServer.Proofs.FieldKeyProofs

/-!
# Proofs: the messages of the field errors

The loop stores the messages one after another under keys that it builds from the errors. Messages
are lost, and the order of the errors shows, exactly when errors that share a key differ in their
message.
-/

namespace AuthorizationServer

namespace ExceptionManager

open Java

variable {C : Library}

/-- The key of the error can be built. -/
def HasKey (C : Library) (error : FieldError) : Prop :=
  ∃ key, relatedToFieldName C error = .ok key

/-- The key of an error and its message; the key is of no importance where it cannot be built. -/
def keyedMessage (C : Library) (error : FieldError) : Utf16 × Option Utf16 :=
  match relatedToFieldName C error with
  | .ok key => (key, error.defaultMessage)
  | .error _ => ([], error.defaultMessage)

@[simp] theorem keyedMessage_message (error : FieldError) :
    (keyedMessage C error).2 = error.defaultMessage := by
  unfold keyedMessage
  cases relatedToFieldName C error with
  | ok key => rfl
  | error e => rfl

theorem keyedMessage_of_key {error : FieldError} {key : Utf16}
    (h : relatedToFieldName C error = .ok key) :
    keyedMessage C error = (key, error.defaultMessage) := by
  simp [keyedMessage, h]

/-- One step of the loop. -/
theorem putFieldError_ok_iff_keyed {map map' : FieldMessages} {error : FieldError} :
    putFieldError C map error = .ok map' ↔
      HasKey C error ∧ map' = map.puts [keyedMessage C error] := by
  rw [putFieldError_ok_iff]
  constructor
  · rintro ⟨key, hkey, rfl⟩
    rw [keyedMessage_of_key hkey]
    exact ⟨⟨key, hkey⟩, rfl⟩
  · rintro ⟨⟨key, hkey⟩, rfl⟩
    rw [keyedMessage_of_key hkey]
    exact ⟨key, hkey, rfl⟩

/-- The loop returns exactly when all keys can be built, with the messages stored in order. -/
theorem foldlM_putFieldError_ok_iff {errors : List FieldError} {map map' : FieldMessages} :
    errors.foldlM (putFieldError C) map = .ok map' ↔
      (∀ error ∈ errors, HasKey C error) ∧ map' = map.puts (errors.map (keyedMessage C)) := by
  induction errors generalizing map with
  | nil =>
    constructor
    · intro h
      cases h
      exact ⟨by simp, rfl⟩
    · rintro ⟨-, rfl⟩
      rfl
  | cons error errors ih =>
    rw [List.foldlM_cons, Outcome.bind_eq_ok, List.forall_mem_cons]
    constructor
    · rintro ⟨map₁, hstep, hrest⟩
      obtain ⟨hkey, rfl⟩ := putFieldError_ok_iff_keyed.mp hstep
      obtain ⟨hkeys, rfl⟩ := ih.mp hrest
      exact ⟨⟨hkey, hkeys⟩, rfl⟩
    · rintro ⟨⟨hkey, hkeys⟩, rfl⟩
      exact ⟨_, putFieldError_ok_iff_keyed.mpr ⟨hkey, rfl⟩, ih.mpr ⟨hkeys, rfl⟩⟩

theorem putFieldErrors_ok_iff {errors : List FieldError} {map : FieldMessages} :
    putFieldErrors C errors = .ok map ↔
      (∀ error ∈ errors, HasKey C error) ∧
        map = (∅ : FieldMessages).puts (errors.map (keyedMessage C)) :=
  foldlM_putFieldError_ok_iff

/-- The message of the last error that has this key. -/
def lastMessage (C : Library) (fieldErrors : List FieldError) (key : Utf16) :
    Option (Option Utf16) :=
  (fieldErrors.reverse.find? fun error =>
    decide ((relatedToFieldName C error).toOption = some key)).map FieldError.defaultMessage

/-- Of the errors with one key, the loop leaves the message of the last one. -/
theorem find?_putFieldErrors {fieldErrors : List FieldError} {map : FieldMessages}
    (h : putFieldErrors C fieldErrors = .ok map) (key : Utf16) :
    map.find? key = lastMessage C fieldErrors key := by
  obtain ⟨hkeys, rfl⟩ := putFieldErrors_ok_iff.mp h
  have hmessage : Prod.snd ∘ keyedMessage C = FieldError.defaultMessage := by
    funext error
    exact keyedMessage_message error
  have hkey : ∀ error ∈ fieldErrors.reverse,
      ((fun e => decide (e.1 = key)) ∘ keyedMessage C) error =
        decide ((relatedToFieldName C error).toOption = some key) := by
    intro error herror
    obtain ⟨key', hkey'⟩ := hkeys error (List.mem_reverse.mp herror)
    simp [keyedMessage_of_key hkey', hkey', Except.toOption]
  rw [JavaMap.find?_puts, JavaMap.find?_empty, Option.or_none, ← List.map_reverse, List.find?_map,
    List.find?_congr hkey, Option.map_map, hmessage]
  rfl

/-! ## Errors that share a key -/

/-- Errors with the same key have the same message. -/
def OneMessagePerKey (C : Library) (errors : List FieldError) : Prop :=
  ∀ e ∈ errors, ∀ e' ∈ errors, ∀ key, relatedToFieldName C e = .ok key →
    relatedToFieldName C e' = .ok key → e.defaultMessage = e'.defaultMessage

theorem oneMessagePerKey_iff {errors : List FieldError} (hkeys : ∀ error ∈ errors, HasKey C error) :
    OneMessagePerKey C errors ↔ JavaMap.OneValuePerKey (errors.map (keyedMessage C)) := by
  constructor
  · intro h x hx x' hx' hkey
    obtain ⟨e, he, rfl⟩ := List.mem_map.mp hx
    obtain ⟨e', he', rfl⟩ := List.mem_map.mp hx'
    obtain ⟨k, hk⟩ := hkeys e he
    obtain ⟨k', hk'⟩ := hkeys e' he'
    rw [keyedMessage_of_key hk, keyedMessage_of_key hk'] at hkey ⊢
    have hsame : k = k' := hkey
    exact h e he e' he' k hk (hsame ▸ hk')
  · intro h e he e' he' key hk hk'
    have hvalue := h _ (List.mem_map_of_mem he) _ (List.mem_map_of_mem he')
    rw [keyedMessage_of_key hk, keyedMessage_of_key hk'] at hvalue
    exact hvalue rfl

/-- The message of the error stands in the detail under the key of the error. -/
def Recoverable (C : Library) (detail : CustomExceptionDetailModel) (error : FieldError) :
    Prop :=
  ∃ key map, relatedToFieldName C error = .ok key ∧ detail.fieldValidationError = some map ∧
    map.find? key = some error.defaultMessage

/-- Two errors share a key exactly when they are of the same field and their object names have the
same prefix. The prefixes are to have no bracket. An error without an object name has its field for
a key, so it shares the key of an error with one exactly when its field is that key. -/
theorem relatedToFieldName_eq_iff {e e' : FieldError} {key key' : Utf16}
    (hkey : relatedToFieldName C e = .ok key) (hkey' : relatedToFieldName C e' = .ok key') :
    (e.objectName = [] → e'.objectName = [] → (key = key' ↔ e.field = e'.field)) ∧
      (e.objectName ≠ [] → e'.objectName ≠ [] →
        ∀ p p', getModelPrefixFromModelName C e.objectName = .ok p →
          getModelPrefixFromModelName C e'.objectName = .ok p' → bracket ∉ p → bracket ∉ p' →
          (key = key' ↔ p = p' ∧ e.field = e'.field)) ∧
      (e.objectName = [] → e'.objectName ≠ [] →
        ∀ p', getModelPrefixFromModelName C e'.objectName = .ok p' →
          (key = key' ↔ e.field = fieldKey p' e'.field)) := by
  refine ⟨?_, ?_, ?_⟩
  · intro hname hname'
    unfold relatedToFieldName at hkey hkey'
    rw [if_pos hname] at hkey
    rw [if_pos hname'] at hkey'
    cases hkey
    cases hkey'
    rfl
  · intro hname hname' p p' hp hp' hfree hfree'
    obtain ⟨q, hq, rfl⟩ := (relatedToFieldName_of_ne hname).mp hkey
    obtain ⟨q', hq', rfl⟩ := (relatedToFieldName_of_ne hname').mp hkey'
    rw [hp] at hq
    rw [hp'] at hq'
    cases hq
    cases hq'
    exact fieldKey_inj hfree hfree'
  · intro hname hname' p' hp'
    unfold relatedToFieldName at hkey
    rw [if_pos hname] at hkey
    obtain ⟨q', hq', rfl⟩ := (relatedToFieldName_of_ne hname').mp hkey'
    rw [hp'] at hq'
    cases hkey
    cases hq'
    rfl

/-- For field errors with keys, every message can be read back, and any order of the errors gives
the same map, exactly when errors with the same key have the same message. Of several messages under
one key the last one stays. -/
theorem field_messages_kept_iff (object : Nat) {errors : List FieldError} (id : Option Int32)
    (hkeys : ∀ error ∈ errors, HasKey C error) :
    ∃ detail, getModelFromMethodArgumentNotValidException C ⟨object, errors⟩ id = .ok detail ∧
      ((∀ error ∈ errors, Recoverable C detail error) ↔ OneMessagePerKey C errors) ∧
      ((∀ errors', errors'.Perm errors → ∃ detail',
          getModelFromMethodArgumentNotValidException C ⟨object, errors'⟩ id = .ok detail' ∧
            detail'.fieldValidationError = detail.fieldValidationError) ↔
        OneMessagePerKey C errors) ∧
      (∃ map, detail.fieldValidationError = some map ∧
        ∀ key, map.find? key = lastMessage C errors key) ∧
      ∀ e ∈ errors, ∀ e' ∈ errors, ∀ key key', relatedToFieldName C e = .ok key →
        relatedToFieldName C e' = .ok key' →
        (e.objectName = [] → e'.objectName = [] → (key = key' ↔ e.field = e'.field)) ∧
        (e.objectName ≠ [] → e'.objectName ≠ [] →
          ∀ p p', getModelPrefixFromModelName C e.objectName = .ok p →
            getModelPrefixFromModelName C e'.objectName = .ok p' → bracket ∉ p → bracket ∉ p' →
            (key = key' ↔ p = p' ∧ e.field = e'.field)) ∧
        (e.objectName = [] → e'.objectName ≠ [] →
          ∀ p', getModelPrefixFromModelName C e'.objectName = .ok p' →
            (key = key' ↔ e.field = fieldKey p' e'.field)) := by
  have hmap := putFieldErrors_ok_iff.mpr ⟨hkeys, rfl⟩
  refine ⟨_, methodArgumentNotValid_ok_iff.mpr ⟨_, hmap, rfl⟩, ?_, ?_,
    ⟨_, rfl, find?_putFieldErrors hmap⟩,
    fun e _ e' _ key key' hkey hkey' => relatedToFieldName_eq_iff hkey hkey'⟩
  · rw [oneMessagePerKey_iff hkeys, ← JavaMap.puts_recovers_iff (m := ∅), List.forall_mem_map]
    refine forall₂_congr fun error herror => ?_
    obtain ⟨key, hkey⟩ := hkeys error herror
    rw [keyedMessage_of_key hkey]
    constructor
    · rintro ⟨key', map, hkey', hmap, hfind⟩
      rw [hkey] at hkey'
      cases hkey'
      cases hmap
      exact hfind
    · intro hfind
      exact ⟨key, _, hkey, rfl, hfind⟩
  · rw [oneMessagePerKey_iff hkeys, ← JavaMap.puts_perm_iff (m := ∅)]
    constructor
    · intro h entries hperm
      -- the entries in another order are those of the errors in another order
      have hcomp := congrFun₂ (List.eq_map_comp_perm (keyedMessage C)) entries errors
      obtain ⟨errors', rfl, herrors'⟩ := (iff_of_eq hcomp).mpr hperm
      obtain ⟨detail', hdetail', hmap⟩ := h errors' herrors'
      obtain ⟨map, hmap', rfl⟩ := methodArgumentNotValid_ok_iff.mp hdetail'
      obtain ⟨-, rfl⟩ := putFieldErrors_ok_iff.mp hmap'
      exact Option.some.inj hmap
    · intro h errors' hperm
      have hkeys' : ∀ error ∈ errors', HasKey C error := fun error herror =>
        hkeys error (hperm.mem_iff.mp herror)
      refine ⟨_, methodArgumentNotValid_ok_iff.mpr
        ⟨_, putFieldErrors_ok_iff.mpr ⟨hkeys', rfl⟩, rfl⟩, ?_⟩
      exact congrArg some (h _ (hperm.map _))

/-! Errors of two fields, and errors whose object names differ in the marker only. -/

def nameRequired : FieldError := ⟨lit "userModel", lit "name", some (lit "required")⟩

def nameTooShort : FieldError := ⟨lit "userFrontModel", lit "name", some (lit "too short")⟩

def mailRequired : FieldError := ⟨lit "userModel", lit "mail", some (lit "required")⟩

theorem relatedToFieldName_nameRequired :
    relatedToFieldName .reference nameRequired = .ok (lit "user.user[name]") := rfl

theorem relatedToFieldName_mailRequired :
    relatedToFieldName .reference mailRequired = .ok (lit "user.user[mail]") := rfl

theorem messages_of_two_fields_kept :
    ∃ detail, getModelFromMethodArgumentNotValidException .reference
        ⟨0, [nameRequired, mailRequired]⟩ none = .ok detail ∧
      ∀ error ∈ [nameRequired, mailRequired], Recoverable .reference detail error := by
  have hkeys : ∀ error ∈ [nameRequired, mailRequired], HasKey .reference error := by
    rw [List.forall_mem_cons, List.forall_mem_singleton]
    exact ⟨⟨_, relatedToFieldName_nameRequired⟩, ⟨_, relatedToFieldName_mailRequired⟩⟩
  have hone : OneMessagePerKey .reference [nameRequired, mailRequired] := by
    intro e he e' he' _ _ _
    simp only [List.mem_cons, List.not_mem_nil, or_false] at he he'
    -- all messages are the same
    rcases he with rfl | rfl <;> rcases he' with rfl | rfl <;> rfl
  obtain ⟨detail, hdetail, hrecoverable, -⟩ := field_messages_kept_iff 0 none hkeys
  exact ⟨detail, hdetail, hrecoverable.mpr hone⟩

/-- The second message replaces the first one, so the order shows; the two object names share a
key, and so do object names with brackets. -/
theorem messages_of_one_key_lost :
    relatedToFieldName .reference nameRequired = relatedToFieldName .reference nameTooShort ∧
    (∃ detail, getModelFromMethodArgumentNotValidException .reference
        ⟨0, [nameRequired, nameTooShort]⟩ none = .ok detail ∧
      ¬ Recoverable .reference detail nameRequired) ∧
    (∃ detail, getModelFromMethodArgumentNotValidException .reference
        ⟨0, [nameTooShort, nameRequired]⟩ none = .ok detail ∧
      Recoverable .reference detail nameRequired) ∧
    relatedToFieldName .reference ⟨lit "a", lit "x.a.a[x[f", none⟩ =
      relatedToFieldName .reference ⟨lit "a.a[x", lit "f", none⟩ := by
  refine ⟨rfl, ⟨_, rfl, ?_⟩, ⟨_, rfl, ⟨_, _, relatedToFieldName_nameRequired, rfl, rfl⟩⟩, rfl⟩
  rintro ⟨key, map, hkey, hmap, hfind⟩
  rw [relatedToFieldName_nameRequired] at hkey
  cases hkey
  cases hmap
  revert hfind
  decide

end ExceptionManager

end AuthorizationServer
