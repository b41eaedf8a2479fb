import SecurityOAuth2Jwt.Java.Proofs.SplitProofs
import SecurityOAuth2Jwt.ResourceServer.Proofs.DecoderProofs

/-!
# Proofs: the two wire shapes of the scope claim

A scope claim is a string of names or a collection of names. The string is read as the set of its
names only when it is single-spaced, so the two shapes agree for all collections but the empty one.
-/

namespace ResourceServer

open Java Spring

namespace CustomAccessTokenConverter

variable {S : SpringSecurity} {conv : CustomAccessTokenConverter}

/-- The set of the names, in the order of their first occurrence. -/
def scopeOf (names : List String) : LinkedHashSet Elem :=
  LinkedHashSet.ofList (names.map Elem.str)

/-- The name can stand in a space-separated list. -/
def IsName (n : String) : Prop := n ≠ "" ∧ ' ' ∉ n.toList

instance (n : String) : Decidable (IsName n) := inferInstanceAs (Decidable (_ ∧ _))

/-- The scope claim of the map is read as the set of the given names, none of them empty. The access
token gets that set. The request of the authentication is built with it, and has it too if it stores
it as given. -/
structure ScopeRead (S : SpringSecurity) (conv : CustomAccessTokenConverter) (m : ClaimsMap)
    (names : List String) : Prop where
  extracted : extractScope m = .ok (scopeOf names)
  nonempty : Elem.str "" ∉ scopeOf names
  token : ∀ value token, extractAccessToken value m = .ok token →
    token.scope = some (scopeOf names)
  authentication : ∀ authentication, conv.extractAuthentication S m = .ok authentication →
    S.BuiltWith (scopeOf names) authentication.storedRequest ∧
      (S.StoresScope (scopeOf names) → authentication.storedRequest.scope = scopeOf names)

theorem extractScope_str {m : ClaimsMap} {s : String} (h : m.find? Claim.scope = some (.str s)) :
    extractScope m = .ok (scopeOf (split ' ' s)) := by
  have hkey : m.containsKey Claim.scope = true := JavaMap.containsKey_eq_true.mpr ⟨_, h⟩
  simp only [extractScope, if_pos hkey, ClaimsMap.get_of_find? h]
  rfl

theorem mem_scopeOf {names : List String} {n : String} :
    Elem.str n ∈ scopeOf names ↔ n ∈ names := by
  simp [scopeOf]

/-- The token and the authentication are made from the scope that `extractScope` returns. -/
theorem scopeRead_iff {m : ClaimsMap} {names : List String} :
    ScopeRead S conv m names ↔ extractScope m = .ok (scopeOf names) ∧ "" ∉ names := by
  constructor
  · intro h
    exact ⟨h.extracted, fun hmem => h.nonempty (mem_scopeOf.mpr hmem)⟩
  · rintro ⟨hextracted, hnonempty⟩
    refine ⟨hextracted, fun hmem => hnonempty (mem_scopeOf.mp hmem), ?_, ?_⟩
    · intro value token htoken
      obtain ⟨expiration, scope, -, hscope, rfl⟩ := extractAccessToken_ok_iff.mp htoken
      rw [hextracted] at hscope
      exact congrArg some (Except.ok.inj hscope).symm
    · intro authentication hauthentication
      obtain ⟨scope, user, clientId, parameters, resourceIds, authorities, hscope, -, -, -, -, -,
        rfl⟩ := extractAuthentication_ok_iff.mp hauthentication
      rw [hextracted] at hscope
      cases hscope
      have hbuilt : S.BuiltWith (scopeOf names) (S.oauth2Request parameters clientId authorities
          true (scopeOf names) resourceIds) :=
        ⟨parameters, clientId, authorities, true, resourceIds, rfl⟩
      exact ⟨hbuilt, hbuilt.scope_eq⟩

/-- A string is read as the set of its names exactly when it is single-spaced. -/
theorem scopeRead_str_iff {m : ClaimsMap} {s : String} {names : List String}
    (h : m.find? Claim.scope = some (.str s)) (hnames : Names ' ' s names) :
    ScopeRead S conv m names ↔ Pieces.SingleSpaced ' ' s.toList := by
  rw [scopeRead_iff, extractScope_str h, ← empty_not_mem_split_iff, hnames.eq_filter]
  constructor
  · rintro ⟨hextracted, -⟩ hmem
    have hsame := Except.ok.inj hextracted
    have hname := mem_scopeOf.mpr hmem
    rw [hsame, mem_scopeOf] at hname
    simp at hname
  · intro hmem
    have hkept : ((split ' ' s).filter fun n => decide (n ≠ "")) = split ' ' s := by
      refine List.filter_eq_self.mpr fun n hn => ?_
      exact decide_eq_true fun hempty => hmem (hempty ▸ hn)
    rw [hkept]
    exact ⟨rfl, hmem⟩

/-- A collection of names is read as the set of its elements. -/
theorem scopeRead_coll {m : ClaimsMap} {names : List String} (hnames : ∀ n ∈ names, IsName n)
    (h : m.find? Claim.scope = some (.coll (names.map Elem.str))) :
    ScopeRead S conv m names :=
  scopeRead_iff.mpr ⟨extractScope_coll h, fun hmem => (hnames "" hmem).1 rfl⟩

/-- The names of a collection, joined by single spaces, are read as the set of its elements exactly
when there are any. -/
theorem scopeRead_join_iff {m : ClaimsMap} {names : List String} (hnames : ∀ n ∈ names, IsName n)
    (h : m.find? Claim.scope = some (.str (" ".intercalate names))) :
    ScopeRead S conv m names ↔ names ≠ [] := by
  rw [scopeRead_iff, extractScope_str h]
  constructor
  · rintro ⟨hextracted, -⟩ hnil
    subst hnil
    have hsame : scopeOf (split ' ' "") = scopeOf [] := Except.ok.inj hextracted
    rw [split_empty] at hsame
    have hmem : Elem.str "" ∈ scopeOf [""] := mem_scopeOf.mpr (List.mem_singleton.mpr rfl)
    rw [hsame] at hmem
    exact absurd (mem_scopeOf.mp hmem) List.not_mem_nil
  · intro hne
    have hsplit : split ' ' (" ".intercalate names) = names := split_intercalate hne hnames
    rw [hsplit]
    exact ⟨rfl, fun hmem => (hnames "" hmem).1 rfl⟩

/-- A string is read as the set of its names exactly when it is single-spaced; a collection of names
and the string of the joined names are read alike exactly when the collection is not empty. -/
theorem scope_shapes_alike_iff :
    (∀ (m : ClaimsMap) (s : String) (names : List String), Names ' ' s names →
      m.find? Claim.scope = some (.str s) →
      (ScopeRead S conv m names ↔ Pieces.SingleSpaced ' ' s.toList)) ∧
    ∀ (m₁ m₂ : ClaimsMap) (names : List String), (∀ n ∈ names, IsName n) →
      m₁.find? Claim.scope = some (.coll (names.map Elem.str)) →
      m₂.find? Claim.scope = some (.str (" ".intercalate names)) →
      ((ScopeRead S conv m₁ names ∧ ScopeRead S conv m₂ names) ↔ names ≠ []) := by
  constructor
  · intro m s names hnames h
    exact scopeRead_str_iff h hnames
  · intro m₁ m₂ names hnames h₁ h₂
    rw [scopeRead_join_iff hnames h₂]
    exact and_iff_right (scopeRead_coll hnames h₁)

/-! A scope in both shapes, and the scopes that are read as the empty name or with it. -/

def claimsWithScope (v : JavaValue) : ClaimsMap := (∅ : ClaimsMap).put Claim.scope v

theorem find?_claimsWithScope (v : JavaValue) :
    (claimsWithScope v).find? Claim.scope = some v := by
  simp [claimsWithScope]

theorem scope_of_two_names_alike :
    ScopeRead .reference {} (claimsWithScope (.str "read write ")) ["read", "write"] ∧
      ScopeRead .reference {} (claimsWithScope (.coll [.str "read", .str "write"]))
        ["read", "write"] ∧
      ScopeRead .reference {} (claimsWithScope (.str (" ".intercalate ["read", "write"])))
        ["read", "write"] := by
  have hnames : Names ' ' "read write " ["read", "write"] :=
    Pieces.words_iff.mpr (by decide +kernel)
  have hshapes := @scope_shapes_alike_iff .reference {}
  have hletters : ∀ n ∈ ["read", "write"], IsName n := by simp [IsName]
  refine ⟨(hshapes.1 _ "read write " _ hnames (find?_claimsWithScope _)).mpr
    (by decide +kernel), ?_⟩
  exact (hshapes.2 _ _ ["read", "write"] hletters (find?_claimsWithScope _)
    (find?_claimsWithScope _)).mpr (by simp)

/-- A space in front adds the empty name, as does a second space between two names. No names at all
are the empty scope as a collection, and the empty name as a string. -/
theorem scope_shapes_differ :
    extractScope (claimsWithScope (.str " read")) = .ok (scopeOf ["", "read"]) ∧
      extractScope (claimsWithScope (.str "read  write")) = .ok (scopeOf ["read", "", "write"]) ∧
      extractScope (claimsWithScope (.coll [])) = .ok (scopeOf []) ∧
      extractScope (claimsWithScope (.str (" ".intercalate []))) = .ok (scopeOf [""]) ∧
      ¬ ScopeRead .reference {} (claimsWithScope (.str " read")) ["read"] := by
  have hfront : split ' ' " read" = ["", "read"] := split_eq_of_pieces (by decide) (by decide)
  have hdouble : split ' ' "read  write" = ["read", "", "write"] :=
    split_eq_of_pieces (by decide) (by decide +kernel)
  refine ⟨?_, ?_, ?_, ?_, fun h => ?_⟩
  · rw [extractScope_str (find?_claimsWithScope _), hfront]
  · rw [extractScope_str (find?_claimsWithScope _), hdouble]
  · exact extractScope_coll (find?_claimsWithScope (.coll []))
  · rw [extractScope_str (find?_claimsWithScope _), String.intercalate_nil, split_empty]
  · have hnames : Names ' ' " read" ["read"] := Pieces.words_iff.mpr (by decide)
    exact absurd ((scopeRead_str_iff (find?_claimsWithScope _) hnames).mp h) (by decide)

end CustomAccessTokenConverter

end ResourceServer
