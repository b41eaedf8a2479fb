import SecurityOAuth2Jwt.AuthorizationServer.Proofs.ListExceptionProofs

/-!
# Proofs: whether a report is stored

The guard in front of the call that stores a report looks at the first detail only. So a report of a
list is stored in one order of the entries and dropped in another exactly when the list mixes
entries that pass the guard with entries that do not.
-/

namespace AuthorizationServer

namespace ExceptionManager

open Java

variable {W : Surroundings}

/-- The manager gives a report of the exception to `customExceptionCreate`. -/
def Stored (W : Surroundings) (exception : Exception) (request : Option HttpServletRequest) :
    Prop :=
  (doException W exception request).2 ≠ []

/-- The messages of the entry's exception pass the guard. -/
def Reportable (W : Surroundings) (entry : Entry Exception) : Prop :=
  ∃ exception, entry.getKey = some exception ∧ isReportable W (W.getMessage exception) = true

/-- Looking up the logged-in user throws. -/
def LoginLookupFails (W : Surroundings) : Prop := ∃ e, W.loggedInService = some (.error e)

/-! ## One report -/

/-- The user in a report does not change its details, and is looked up for every report. -/
theorem withUser_returns_iff {model : CustomExceptionModel} :
    (∃ model', withUser W model = .ok model' ∧
      model'.customExceptionDetailModelList = model.customExceptionDetailModelList) ↔
      ¬ LoginLookupFails W := by
  unfold withUser LoginLookupFails
  cases W.loggedInService with
  | none => simp
  | some lookup =>
    cases lookup with
    | error e => simp
    | ok user =>
      cases user with
      | none => simp
      | some user => simp

theorem withUser_fails {model : CustomExceptionModel} (h : LoginLookupFails W) :
    ∃ e, withUser W model = .error e := by
  obtain ⟨e, he⟩ := h
  exact ⟨e, by simp only [withUser, he]; rfl⟩

/-- A translated exception is stored exactly when the lookup of the user returns and the first
detail passes the guard. -/
theorem stored_iff {exception : Exception} {request : Option HttpServletRequest}
    {model : CustomExceptionModel}
    (hmodel : getCustomExceptionModel W (some exception) request = .ok model) :
    Stored W exception request ↔ ¬ LoginLookupFails W ∧ isStored W model = true := by
  unfold Stored doException
  simp only [hmodel]
  by_cases hlogin : LoginLookupFails W
  · obtain ⟨e, he⟩ := @withUser_fails W model hlogin
    simp [he, hlogin]
  · obtain ⟨model', hmodel', hlist⟩ := (@withUser_returns_iff W model).mpr hlogin
    have hguard : isStored W model' = isStored W model := by
      unfold isStored
      rw [hlist]
    cases hstored : isStored W model <;> simp [hmodel', hguard, hstored, hlogin]

/-! ## The report of a list -/

/-- The detail of an entry holds the exception of the entry. -/
theorem getKey_of_getModelFromEntry {C : Library} {entry : Entry Exception}
    {detail : CustomExceptionDetailModel} (h : getModelFromEntry C entry = .ok detail) :
    entry.getKey = some detail.exception := by
  obtain ⟨key, relatedToId⟩ := entry
  cases key with
  | none =>
    unfold getModelFromEntry at h
    obtain ⟨id, -, hnull⟩ := Outcome.bind_eq_ok.mp h
    cases hnull
  | some exception =>
    rw [getModelFromEntry_some, Outcome.bind_eq_ok] at h
    obtain ⟨id, -, hdetail⟩ := h
    rw [(detailOf_ok hdetail).1]

/-- A list that is translated is stored exactly when the lookup of the user returns and the first
entry passes the guard. -/
theorem stored_list_iff {object : Nat} {entries : List (Entry Exception)}
    {request : Option HttpServletRequest}
    (h : ∃ model, getModelFromListException W.library entries = .ok model) :
    Stored W (.list object entries) request ↔
      ¬ LoginLookupFails W ∧ ∃ entry ∈ entries.head?, Reportable W entry := by
  obtain ⟨model, hmodel⟩ := h
  obtain ⟨details, hdetails, rfl⟩ := getModelFromListException_ok_iff.mp hmodel
  have hcustom : ∃ model, getCustomExceptionModel W (some (.list object entries)) request =
      .ok model ∧ model.customExceptionDetailModelList = some details := by
    refine ⟨_, by simp only [getCustomExceptionModel, getModelByClass, hmodel]; rfl, ?_⟩
    exact list_withRequest _ request
  obtain ⟨model, hcustom, hlist⟩ := hcustom
  rw [stored_iff hcustom]
  refine and_congr_right fun _ => ?_
  unfold isStored
  rw [hlist]
  cases entries with
  | nil =>
    cases hdetails
    simp
  | cons entry entries =>
    simp only [List.mapM_cons, Outcome.bind_eq_ok, Outcome.pure_eq_ok, Except.ok.injEq] at hdetails
    obtain ⟨detail, hdetail, rest, -, rfl⟩ := hdetails
    have hkey := getKey_of_getModelFromEntry hdetail
    simp [Reportable, hkey]

/-- Whether a list is translated does not depend on the order of its entries. -/
theorem list_returns_perm {C : Library} {entries entries' : List (Entry Exception)}
    (hperm : entries'.Perm entries)
    (h : ∃ model, getModelFromListException C entries = .ok model) :
    ∃ model, getModelFromListException C entries' = .ok model := by
  obtain ⟨model, hmodel⟩ := h
  obtain ⟨details, hdetails, -⟩ := getModelFromListException_ok_iff.mp hmodel
  have hall := Outcome.mapM_returns_iff.mp ⟨details, hdetails⟩
  obtain ⟨details', hdetails'⟩ := Outcome.mapM_returns_iff.mpr fun entry hentry =>
    hall entry (hperm.mem_iff.mp hentry)
  exact ⟨_, getModelFromListException_ok_iff.mpr ⟨details', hdetails', rfl⟩⟩

/-- A list that is translated is stored in all orders of its entries or in none exactly when the
lookup of the user throws, or all entries pass the guard, or none does. -/
theorem stored_in_all_orders_iff (object : Nat) {entries : List (Entry Exception)}
    (request : Option HttpServletRequest)
    (h : ∃ model, getModelFromListException W.library entries = .ok model) :
    (∀ entries₁ entries₂, entries₁.Perm entries → entries₂.Perm entries →
      (Stored W (.list object entries₁) request ↔ Stored W (.list object entries₂) request)) ↔
    LoginLookupFails W ∨ (∀ entry ∈ entries, Reportable W entry) ∨
      ∀ entry ∈ entries, ¬ Reportable W entry := by
  constructor
  · intro horders
    by_contra hmixed
    rw [not_or, not_or] at hmixed
    obtain ⟨hlogin, hsome, hsome'⟩ := hmixed
    obtain ⟨x, hx, hnot⟩ : ∃ x ∈ entries, ¬ Reportable W x := by
      by_contra hnone
      exact hsome fun x hx => by_contra fun hnot => hnone ⟨x, hx, hnot⟩
    obtain ⟨y, hy, hyes⟩ : ∃ y ∈ entries, Reportable W y := by
      by_contra hnone
      exact hsome' fun y hy hyes => hnone ⟨y, hy, hyes⟩
    -- either of the two can come first
    have hfront : ∀ x ∈ entries, ∃ entries', entries'.Perm entries ∧
        (Stored W (.list object entries') request ↔ Reportable W x) := by
      intro x hx
      obtain ⟨front, back, rfl⟩ := List.append_of_mem hx
      refine ⟨x :: (front ++ back), List.perm_middle.symm, ?_⟩
      rw [stored_list_iff (list_returns_perm List.perm_middle.symm h)]
      simp [hlogin]
    obtain ⟨entries₁, hperm₁, hstored₁⟩ := hfront x hx
    obtain ⟨entries₂, hperm₂, hstored₂⟩ := hfront y hy
    exact hnot (hstored₁.mp ((horders _ _ hperm₁ hperm₂).mpr (hstored₂.mpr hyes)))
  · intro hcases entries₁ entries₂ hperm₁ hperm₂
    rw [stored_list_iff (list_returns_perm hperm₁ h), stored_list_iff (list_returns_perm hperm₂ h)]
    rcases hcases with hlogin | hall | hnone
    · simp [hlogin]
    · have hfirst : ∀ entries' : List (Entry Exception), entries'.Perm entries →
          ((∃ entry ∈ entries'.head?, Reportable W entry) ↔ entries ≠ []) := by
        intro entries' hperm
        cases entries' with
        | nil => simp [← hperm.nil_eq]
        | cons entry entries' =>
          have hmem : entry ∈ entries := hperm.mem_iff.mp (List.mem_cons_self ..)
          simp [hall entry hmem, List.ne_nil_of_mem hmem]
      rw [hfirst _ hperm₁, hfirst _ hperm₂]
    · have hfirst : ∀ entries' : List (Entry Exception), entries'.Perm entries →
          ¬ ∃ entry ∈ entries'.head?, Reportable W entry := by
        rintro entries' hperm ⟨entry, hentry, hyes⟩
        exact hnone entry (hperm.mem_iff.mp (List.mem_of_head? hentry)) hyes
      rw [iff_false_intro (hfirst _ hperm₁), iff_false_intro (hfirst _ hperm₂)]

/-! A list of two reported errors, and one that mixes an error with an exception without one. -/

def lockedEntry : Entry Exception := businessEntry 0 (lit "locked") ⟨[], true⟩

def mixedEntries : List (Entry Exception) := [lockedEntry, validationEntry (lit "userModel")]

theorem reportable_lockedEntry : Reportable referenceSurroundings lockedEntry :=
  ⟨_, rfl, by decide⟩

theorem two_errors_stored_in_both_orders :
    Stored referenceSurroundings
        (.list 0 [lockedEntry, businessEntry 1 (lit "blocked") ⟨[], true⟩]) none ↔
      Stored referenceSurroundings
        (.list 0 [businessEntry 1 (lit "blocked") ⟨[], true⟩, lockedEntry]) none := by
  have hall : ∀ entry ∈ [lockedEntry, businessEntry 1 (lit "blocked") ⟨[], true⟩],
      Reportable referenceSurroundings entry := by
    rw [List.forall_mem_cons, List.forall_mem_singleton]
    exact ⟨reportable_lockedEntry, _, rfl, by decide⟩
  exact (stored_in_all_orders_iff 0 none ⟨_, rfl⟩).mpr (Or.inr (Or.inl hall)) _ _ (.refl _)
    (.swap ..)

/-- The order decides whether the report is stored. -/
theorem mixed_entries_stored_in_one_order :
    (∃ model, getModelFromListException referenceSurroundings.library mixedEntries =
      .ok model) ∧
    Stored referenceSurroundings (.list 0 mixedEntries) none ∧
    ¬ Stored referenceSurroundings (.list 0 mixedEntries.reverse) none := by
  have hmodel : ∃ model, getModelFromListException referenceSurroundings.library mixedEntries =
      .ok model := ⟨_, rfl⟩
  have hlogin : ¬ LoginLookupFails referenceSurroundings := by
    rintro ⟨e, he⟩
    cases he
  refine ⟨hmodel, (stored_list_iff hmodel).mpr ⟨hlogin, lockedEntry, rfl, reportable_lockedEntry⟩,
    fun h => ?_⟩
  obtain ⟨-, entry, hentry, exception, hkey, hyes⟩ :=
    (stored_list_iff (list_returns_perm (List.reverse_perm _) hmodel)).mp h
  cases hentry
  cases hkey
  cases hyes

end ExceptionManager

end AuthorizationServer
