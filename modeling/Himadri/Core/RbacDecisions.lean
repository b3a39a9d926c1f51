import Himadri.Core.Glob
import Himadri.Core.Rbac

/-!
# What RBAC decisions mean

A pattern grants its glob language (`patternMatches_iff`), and the matcher, which slices the value
at byte offsets, slices at none inside a character (`matchAt_utf8Len`). The policies that count are
those of the roles that exist, or of the default role where none does (`RbacConfig.Applies`): access
is granted by any one of them, whatever the order of the roles.
-/

namespace Himadri

/-! ### Byte offsets -/

/-- `str::len`. -/
def utf8Len : List Char → ℕ
  | [] => 0
  | c :: text => c.utf8Size + utf8Len text

/-- `value[pos..]`: none where `pos` is no boundary of a character, which panics. -/
def sliceFrom : List Char → ℕ → Option (List Char)
  | value, 0 => some value
  | [], _ + 1 => none
  | c :: value, pos + 1 =>
    if c.utf8Size ≤ pos + 1 then sliceFrom value (pos + 1 - c.utf8Size) else none

/-- `str::find`. -/
def findBytes (part : List Char) : List Char → Option ℕ
  | [] => if part.isEmpty then some 0 else none
  | c :: rest =>
    if part.isPrefixOf (c :: rest) then some 0
    else (findBytes part rest).map (c.utf8Size + ·)

/-- The loop of `pattern_matches` as it is written, with `pos`; none where it panics. -/
def matchAt (value : List Char) : (first : Bool) → List (List Char) → (pos : ℕ) → Option Bool
  | _, [], _ => some true
  | first, part :: parts, pos =>
    if part.isEmpty then matchAt value false parts pos
    else
      match sliceFrom value pos with
      | none => none
      | some rest =>
        if first then
          if part.isPrefixOf rest then matchAt value false parts (pos + utf8Len part)
          else some false
        else if parts.isEmpty then some (part.isSuffixOf rest)
        else
          match findBytes part rest with
          | some idx => matchAt value false parts (pos + idx + utf8Len part)
          | none => some false

/-- `pattern_matches` over byte offsets. -/
def patternMatchesAt (pattern value : String) : Option Bool :=
  if pattern = "*" then some true
  else if !pattern.toList.contains '*' then some (pattern == value)
  else matchAt value.toList true (pattern.toList.splitOn '*') 0

section Matcher

variable {part rest : List Char} {parts : List (List Char)}

theorem utf8Len_append (text text' : List Char) :
    utf8Len (text ++ text') = utf8Len text + utf8Len text' := by
  induction text with
  | nil => exact (Nat.zero_add _).symm
  | cons c text ih => rw [List.cons_append, utf8Len, ih, utf8Len, Nat.add_assoc]

theorem sliceFrom_utf8Len (done rest : List Char) :
    sliceFrom (done ++ rest) (utf8Len done) = some rest := by
  induction done with
  | nil =>
    show sliceFrom rest 0 = some rest
    rw [sliceFrom]
  | cons c done ih =>
    show sliceFrom (c :: (done ++ rest)) (c.utf8Size + utf8Len done) = some rest
    have hpos : 0 < c.utf8Size := c.utf8Size_pos
    obtain ⟨pos, hsize⟩ : ∃ pos, c.utf8Size + utf8Len done = pos + 1 :=
      ⟨c.utf8Size + utf8Len done - 1, by omega⟩
    rw [hsize, sliceFrom, if_pos (by omega), ← hsize, Nat.add_sub_cancel_left]
    exact ih

/-- What the two searches find: nothing where the part occurs nowhere, or the leftmost
occurrence. -/
theorem dropThrough_spec (hpart : part ≠ []) (value : List Char) :
    (dropThrough part value = none ∧ findBytes part value = none ∧
      ∀ run rest, value ≠ run ++ (part ++ rest)) ∨
    ∃ before rest, dropThrough part value = some rest ∧
      findBytes part value = some (utf8Len before) ∧ value = before ++ (part ++ rest) ∧
      ∀ run rest', value = run ++ (part ++ rest') → rest' <:+ rest := by
  have hempty : ¬part.isEmpty = true := by rwa [List.isEmpty_iff]
  induction value with
  | nil =>
    refine .inl ⟨by rw [dropThrough, if_neg hempty], by rw [findBytes, if_neg hempty],
      fun run rest heq ↦ ?_⟩
    exact hpart (List.append_eq_nil_iff.1 (List.append_eq_nil_iff.1 heq.symm).2).1
  | cons c value ih =>
    by_cases hstart : part.isPrefixOf (c :: value) = true
    · obtain ⟨rest, hrest⟩ := List.isPrefixOf_iff_prefix.1 hstart
      refine .inr ⟨[], rest, ?_, ?_, hrest.symm, fun run rest' heq ↦ ?_⟩
      · rw [dropThrough, if_pos hstart, ← hrest, List.drop_left]
      · rw [findBytes, if_pos hstart]
        rfl
      · -- both are suffixes of the value, and nothing is longer than what the start leaves
        have hlength := congrArg List.length (hrest.trans heq)
        simp only [List.length_append] at hlength
        have hrest' : rest' <:+ c :: value := by
          rw [heq, ← List.append_assoc]
          exact List.suffix_append _ _
        have hsuffix : rest <:+ c :: value := by
          rw [← hrest]
          exact List.suffix_append _ _
        exact List.suffix_of_suffix_length_le hrest' hsuffix (by omega)
    · have hnot : ∀ rest, c :: value ≠ part ++ rest := fun rest heq ↦
        hstart (List.isPrefixOf_iff_prefix.2 ⟨rest, heq.symm⟩)
      rcases ih with ⟨hdrop, hfind, hnone⟩ | ⟨before, rest, hdrop, hfind, hvalue, hleft⟩
      · refine .inl ⟨by rw [dropThrough, if_neg hstart, hdrop],
          by rw [findBytes, if_neg hstart, hfind]; rfl, ?_⟩
        rintro (- | ⟨d, run⟩) rest heq
        · exact hnot rest heq
        · exact hnone run rest (List.cons.inj heq).2
      · refine .inr ⟨c :: before, rest, by rw [dropThrough, if_neg hstart, hdrop],
          by rw [findBytes, if_neg hstart, hfind]; rfl, congrArg (c :: ·) hvalue, ?_⟩
        rintro (- | ⟨d, run⟩) rest' heq
        · exact absurd heq (hnot rest')
        · exact hleft run rest' (List.cons.inj heq).2

/-- The loop slices at boundaries of characters only, and says what the loop over characters
says. -/
theorem matchAt_utf8Len (first : Bool) (parts : List (List Char)) (done rest : List Char) :
    matchAt (done ++ rest) first parts (utf8Len done) = some (matchParts first parts rest) := by
  induction parts generalizing first done rest with
  | nil => rw [matchAt, matchParts]
  | cons part parts ih =>
    rw [matchAt, matchParts]
    by_cases hempty : part.isEmpty = true
    · rw [if_pos hempty, if_pos hempty]
      exact ih false done rest
    rw [if_neg hempty, if_neg hempty, sliceFrom_utf8Len]
    simp only
    rcases first with - | -
    · rw [if_neg Bool.false_ne_true, if_neg Bool.false_ne_true]
      by_cases hlast : parts.isEmpty = true
      · rw [if_pos hlast, if_pos hlast]
      rw [if_neg hlast, if_neg hlast]
      rcases dropThrough_spec (by rwa [List.isEmpty_iff] at hempty) rest with
        ⟨hdrop, hfind, -⟩ | ⟨before, rest', hdrop, hfind, rfl, -⟩
      · rw [hdrop, hfind]
      · rw [hdrop, hfind]
        have hih := ih false (done ++ (before ++ part)) rest'
        rw [utf8Len_append, utf8Len_append, ← Nat.add_assoc] at hih
        simpa only [List.append_assoc] using hih
    · rw [if_pos rfl, if_pos rfl]
      by_cases hstart : part.isPrefixOf rest = true
      · obtain ⟨rest', rfl⟩ := List.isPrefixOf_iff_prefix.1 hstart
        have hih := ih false (done ++ part) rest'
        rw [if_pos hstart, hstart, List.drop_left, Bool.true_and, ← hih, utf8Len_append,
          List.append_assoc]
      · rw [if_neg hstart, Bool.eq_false_iff.2 hstart, Bool.false_and]

theorem patternMatchesAt_eq (pattern value : String) :
    patternMatchesAt pattern value = some (patternMatches pattern value) := by
  rw [patternMatchesAt, patternMatches]
  split_ifs
  · rfl
  · rfl
  · exact matchAt_utf8Len true _ [] value.toList

/-- Past the first part the loop matches what follows in the segments. -/
theorem matchParts_false_iff (hparts : parts ≠ []) (value : List Char) :
    matchParts false parts value = true ↔ Glob.Follows parts value := by
  induction parts generalizing value with
  | nil => exact absurd rfl hparts
  | cons part parts ih =>
    rw [matchParts]
    by_cases hempty : part.isEmpty = true
    · rw [if_pos hempty, List.isEmpty_iff.1 hempty]
      rcases parts with - | ⟨p, parts⟩
      · rw [Glob.follows_singleton, matchParts]
        exact iff_of_true rfl List.nil_suffix
      · rw [Glob.follows_nil_cons (List.cons_ne_nil _ _)]
        exact ih (List.cons_ne_nil _ _) value
    rw [if_neg hempty, if_neg Bool.false_ne_true]
    by_cases hlast : parts.isEmpty = true
    · rw [if_pos hlast, List.isEmpty_iff.1 hlast, Glob.follows_singleton,
        List.isSuffixOf_iff_suffix]
    rw [if_neg hlast]
    rw [List.isEmpty_iff] at hempty hlast
    rcases dropThrough_spec hempty value with
      ⟨hdrop, -, hnone⟩ | ⟨before, rest, hdrop, -, hvalue, hleft⟩
    · rw [hdrop, Glob.follows_cons hlast]
      exact iff_of_false Bool.false_ne_true fun ⟨run, rest, heq, _⟩ ↦ hnone run rest heq
    · rw [hdrop, Glob.follows_cons_of_leftmost hlast hvalue hleft]
      exact ih hlast rest

/-- A pattern matches the words of its glob language. -/
theorem patternMatches_iff {pattern value : String} :
    patternMatches pattern value = true ↔ Glob.Expands '*' pattern.toList value.toList := by
  rw [patternMatches]
  split_ifs with hall hnone
  · refine iff_of_true rfl ?_
    rw [hall, ← List.append_nil value.toList]
    exact .star value.toList .nil
  · have hmem : '*' ∉ pattern.toList := by simpa using hnone
    rw [Glob.expands_iff_segments, List.splitOn_eq_singleton hmem, beq_iff_eq]
    exact ⟨fun h ↦ by rw [h]; rfl, fun h ↦ (String.toList_inj.1 h).symm⟩
  · have hmem : '*' ∈ pattern.toList := by simpa using hnone
    obtain ⟨part, others, hpattern, hfirst⟩ := List.eq_append_cons_of_mem hmem
    rw [Glob.expands_iff_segments, hpattern, List.splitOn_append_cons_self_of_not_mem hfirst,
      Glob.segments_cons (List.splitOn_ne_nil _ _), matchParts]
    by_cases hempty : part.isEmpty = true
    · rw [if_pos hempty, List.isEmpty_iff.1 hempty,
        matchParts_false_iff (List.splitOn_ne_nil _ _)]
      exact ⟨fun h ↦ ⟨_, rfl, h⟩, fun ⟨_, heq, h⟩ ↦ heq ▸ h⟩
    · rw [if_neg hempty, if_pos rfl, Bool.and_eq_true,
        matchParts_false_iff (List.splitOn_ne_nil _ _), List.isPrefixOf_iff_prefix]
      constructor
      · rintro ⟨⟨rest, hrest⟩, hfollows⟩
        rw [← hrest, List.drop_left] at hfollows
        exact ⟨rest, hrest.symm, hfollows⟩
      · rintro ⟨rest, hrest, hfollows⟩
        rw [hrest, List.drop_left]
        exact ⟨List.prefix_append _ _, hfollows⟩

end Matcher

/-! ### Policies -/

/-- A list that is unset, or has a pattern for the name. -/
def Grants (patterns : Option (List String)) (name : String) : Prop :=
  ∀ listed, patterns = some listed →
    ∃ pattern ∈ listed, Glob.Expands '*' pattern.toList name.toList

/-- What `check_dimension` does with a list. -/
def allows (patterns : Option (List String)) (name : String) : Bool :=
  patterns.elim true (anyMatch · name)

theorem allows_iff {patterns : Option (List String)} {name : String} :
    allows patterns name = true ↔ Grants patterns name := by
  rcases patterns with - | listed
  · exact iff_of_true rfl fun _ h ↦ by cases h
  · show anyMatch listed name = true ↔ _
    rw [anyMatch, List.any_eq_true]
    simp only [patternMatches_iff]
    exact ⟨fun h _ heq ↦ Option.some.inj heq ▸ h, fun h ↦ h listed rfl⟩

theorem allows_mergeDimension {acc item : Option (List String)} {name : String} :
    allows (mergeDimension acc item) name = (allows acc name || allows item name) := by
  rcases item with - | listed
  · exact (Bool.or_true _).symm
  · rcases acc with - | patterns
    · rfl
    · exact List.any_append

/-- The joined list allows what one of the lists allows. -/
theorem allows_foldl (select : RolePolicy → Option (List String)) (policies : List RolePolicy)
    (acc : Option (List String)) (name : String) :
    allows (policies.foldl (fun acc p ↦ mergeDimension acc (select p)) acc) name =
      (allows acc name || policies.any fun p ↦ allows (select p) name) := by
  induction policies generalizing acc with
  | nil => exact (Bool.or_false _).symm
  | cons p policies ih =>
    rw [List.foldl_cons, ih, allows_mergeDimension, List.any_cons, Bool.or_assoc]

namespace RbacConfig

variable (rbac : RbacConfig) (roles : List String) (isAdmin : Bool)

/-- The policies that count: those of the roles that exist, or the default role's. -/
def Applies (p : RolePolicy) : Prop :=
  (∃ role ∈ roles, rbac.roles.get role = some p) ∨
    (∀ role ∈ roles, rbac.roles.get role = none) ∧
      ∃ role, rbac.defaultRole = some role ∧ rbac.roles.get role = some p

/-- The decision by the policies alone. -/
def decision (select : RolePolicy → Option (List String)) (name : String) (denial : RbacDenial) :
    Except RbacDenial Unit :=
  if !rbac.enabled || isAdmin then .ok ()
  else if (rbac.policies roles).isEmpty then .error .noMatchingRole
  else if (rbac.policies roles).any fun p ↦ allows (select p) name then .ok ()
  else .error denial

variable {rbac roles isAdmin} {name : String}

theorem mem_policies {p : RolePolicy} : p ∈ rbac.policies roles ↔ rbac.Applies roles p := by
  rw [policies, Applies]
  rcases hmatched : roles.filterMap rbac.roles.get with - | ⟨q, matched⟩
  · rw [List.filterMap_eq_nil_iff] at hmatched
    rw [Option.mem_toList, Option.bind_eq_some_iff, and_iff_right hmatched, or_iff_right]
    rintro ⟨role, hrole, hget⟩
    rw [hmatched role hrole] at hget
    cases hget
  · show p ∈ q :: matched ↔ _
    rw [← hmatched, List.mem_filterMap, or_iff_left]
    rintro ⟨hnone, -⟩
    rw [List.filterMap_eq_nil_iff.2 hnone] at hmatched
    cases hmatched

/-- A dimension is decided by the policies one by one. -/
theorem checkDimension_eq {select : EffectivePolicy → Option (List String)}
    {pick : RolePolicy → Option (List String)} {deny : String → RbacDenial}
    (h : ∀ policy, rbac.effectivePolicy roles = some policy → select policy =
      (rbac.policies roles).foldl (fun acc p ↦ mergeDimension acc (pick p)) (some [])) :
    rbac.checkDimension roles isAdmin name select deny =
      rbac.decision roles isAdmin pick name (deny name) := by
  rw [checkDimension, decision]
  refine if_congr Iff.rfl rfl ?_
  rcases hpolicies : rbac.policies roles with - | ⟨p, policies⟩
  · rw [effectivePolicy, hpolicies]
    rfl
  · obtain ⟨policy, hpolicy⟩ : ∃ policy, rbac.effectivePolicy roles = some policy := by
      rw [effectivePolicy, hpolicies]
      exact ⟨_, rfl⟩
    have hallows := allows_foldl pick (rbac.policies roles) (some []) name
    rw [← h policy hpolicy, hpolicies] at hallows
    rw [hpolicy, List.isEmpty_cons, if_neg Bool.false_ne_true]
    simp only
    rcases hselect : select policy with - | listed
    · rw [hselect] at hallows
      rw [if_pos]
      exact hallows.symm
    · rw [hselect] at hallows
      exact if_congr (by rw [show anyMatch listed name = _ from hallows]; rfl) rfl rfl

/-- The joined lists of an effective policy. -/
theorem effectivePolicy_eq_some {policy : EffectivePolicy}
    (h : rbac.effectivePolicy roles = some policy) :
    policy.models =
        (rbac.policies roles).foldl (fun acc p ↦ mergeDimension acc p.models) (some []) ∧
      policy.providers =
        (rbac.policies roles).foldl (fun acc p ↦ mergeDimension acc p.providers) (some []) := by
  rw [effectivePolicy] at h
  split at h
  · cases h
  · rw [← Option.some.inj h]
    exact ⟨rfl, rfl⟩

theorem checkModel_eq : rbac.checkModel roles isAdmin name =
    rbac.decision roles isAdmin (·.models) name (.modelForbidden name) :=
  checkDimension_eq fun _ h ↦ (effectivePolicy_eq_some h).1

theorem checkProvider_eq : rbac.checkProvider roles isAdmin name =
    rbac.decision roles isAdmin (·.providers) name (.providerForbidden name) :=
  checkDimension_eq fun _ h ↦ (effectivePolicy_eq_some h).2

section Decision

variable {select : RolePolicy → Option (List String)} {denial : RbacDenial}

theorem any_allows : ((rbac.policies roles).any fun p ↦ allows (select p) name) = true ↔
    ∃ p, rbac.Applies roles p ∧ Grants (select p) name := by
  rw [List.any_eq_true]
  simp only [mem_policies, allows_iff]

theorem isEmpty_policies :
    (rbac.policies roles).isEmpty = true ↔ ∀ p, ¬rbac.Applies roles p := by
  rw [List.isEmpty_iff, List.eq_nil_iff_forall_not_mem]
  simp only [mem_policies]

theorem decision_eq_ok : rbac.decision roles isAdmin select name denial = .ok () ↔
    rbac.enabled = false ∨ isAdmin = true ∨
      ∃ p, rbac.Applies roles p ∧ Grants (select p) name := by
  rw [← or_assoc, ← any_allows, decision]
  have hskip : (!rbac.enabled || isAdmin) = true ↔ rbac.enabled = false ∨ isAdmin = true := by
    rw [Bool.or_eq_true, Bool.not_eq_true']
  split_ifs with hopen hempty hany
  · exact iff_of_true rfl (.inl (hskip.1 hopen))
  · refine iff_of_false (fun h ↦ by cases h) ?_
    rintro (h | h)
    · exact hopen (hskip.2 h)
    · rw [List.isEmpty_iff.1 hempty] at h
      cases h
  · exact iff_of_true rfl (.inr hany)
  · refine iff_of_false (fun h ↦ by cases h) ?_
    rintro (h | h)
    · exact hopen (hskip.2 h)
    · exact hany h

theorem decision_eq_noMatchingRole (hdenial : denial ≠ .noMatchingRole) :
    rbac.decision roles isAdmin select name denial = .error .noMatchingRole ↔
      rbac.enabled = true ∧ isAdmin = false ∧ ∀ p, ¬rbac.Applies roles p := by
  rw [← isEmpty_policies, decision]
  split_ifs with hopen hempty hany
  · refine iff_of_false (fun h ↦ by cases h) ?_
    rintro ⟨henabled, hadmin, -⟩
    rw [henabled, hadmin] at hopen
    cases hopen
  · rw [Bool.or_eq_true, not_or, Bool.not_eq_true', Bool.not_eq_false, Bool.not_eq_true] at hopen
    exact iff_of_true rfl ⟨hopen.1, hopen.2, hempty⟩
  · exact iff_of_false (fun h ↦ by cases h) fun h ↦ hempty h.2.2
  · exact iff_of_false (fun h ↦ hdenial (Except.error.inj h)) fun h ↦ hempty h.2.2

/-- The decision depends on the policies as a set. -/
theorem decision_congr {roles' : List String}
    (h : ∀ p, rbac.Applies roles' p ↔ rbac.Applies roles p) :
    rbac.decision roles' isAdmin select name denial =
      rbac.decision roles isAdmin select name denial := by
  rw [decision, decision]
  refine if_congr Iff.rfl rfl (if_congr ?_ rfl (if_congr ?_ rfl rfl))
  · rw [isEmpty_policies, isEmpty_policies]
    exact forall_congr' fun p ↦ not_congr (h p)
  · rw [any_allows, any_allows]
    exact exists_congr fun p ↦ and_congr_left fun _ ↦ h p

end Decision

theorem applies_congr {roles' : List String} (h : ∀ role, role ∈ roles' ↔ role ∈ roles)
    (p : RolePolicy) : rbac.Applies roles' p ↔ rbac.Applies roles p := by
  simp only [Applies, h]

/-- More roles than some that exist: every policy that counted still does. -/
theorem Applies.mono {roles' : List String} {p : RolePolicy} (h : rbac.Applies roles p)
    (hsub : roles ⊆ roles') (hexists : ∃ role ∈ roles, rbac.roles.get role ≠ none) :
    rbac.Applies roles' p := by
  rcases h with ⟨role, hrole, hget⟩ | ⟨hnone, -⟩
  · exact .inl ⟨role, hsub hrole, hget⟩
  · obtain ⟨role, hrole, hget⟩ := hexists
    exact absurd (hnone role hrole) hget

theorem decision_mono {roles' : List String} {select : RolePolicy → Option (List String)}
    {denial : RbacDenial} (hsub : roles ⊆ roles')
    (hexists : ∃ role ∈ roles, rbac.roles.get role ≠ none)
    (h : rbac.decision roles isAdmin select name denial = .ok ()) :
    rbac.decision roles' isAdmin select name denial = .ok () := by
  rw [decision_eq_ok] at h ⊢
  refine h.imp_right (Or.imp_right ?_)
  rintro ⟨p, happlies, hgrants⟩
  exact ⟨p, happlies.mono hsub hexists, hgrants⟩

end RbacConfig

/-- What RBAC decides. A name is granted without RBAC, to an admin, and by a policy that counts and
leaves the dimension unset or lists a pattern whose glob language has the name; `NoMatchingRole` is
where no policy counts. The matcher never panics. The order and the repetitions of the roles do not
matter, and where a role exists, further roles take nothing away. -/
theorem rbac_decides_by_policies (rbac : RbacConfig) (roles : List String) (isAdmin : Bool)
    (name : String) :
    (rbac.checkModel roles isAdmin name = .ok () ↔ rbac.enabled = false ∨ isAdmin = true ∨
      ∃ p, rbac.Applies roles p ∧ Grants p.models name) ∧
    (rbac.checkProvider roles isAdmin name = .ok () ↔ rbac.enabled = false ∨ isAdmin = true ∨
      ∃ p, rbac.Applies roles p ∧ Grants p.providers name) ∧
    (rbac.checkModel roles isAdmin name = .error .noMatchingRole ↔
      rbac.enabled = true ∧ isAdmin = false ∧ ∀ p, ¬rbac.Applies roles p) ∧
    (rbac.checkProvider roles isAdmin name = .error .noMatchingRole ↔
      rbac.enabled = true ∧ isAdmin = false ∧ ∀ p, ¬rbac.Applies roles p) ∧
    (∀ pattern, patternMatchesAt pattern name = some (patternMatches pattern name) ∧
      (patternMatches pattern name = true ↔ Glob.Expands '*' pattern.toList name.toList)) ∧
    (∀ roles', (∀ role, role ∈ roles' ↔ role ∈ roles) →
      rbac.checkModel roles' isAdmin name = rbac.checkModel roles isAdmin name ∧
      rbac.checkProvider roles' isAdmin name = rbac.checkProvider roles isAdmin name) ∧
    (∀ roles', roles ⊆ roles' → (∃ role ∈ roles, rbac.roles.get role ≠ none) →
      (rbac.checkModel roles isAdmin name = .ok () →
        rbac.checkModel roles' isAdmin name = .ok ()) ∧
      (rbac.checkProvider roles isAdmin name = .ok () →
        rbac.checkProvider roles' isAdmin name = .ok ())) := by
  simp only [RbacConfig.checkModel_eq, RbacConfig.checkProvider_eq]
  refine ⟨RbacConfig.decision_eq_ok, RbacConfig.decision_eq_ok,
    RbacConfig.decision_eq_noMatchingRole RbacDenial.noConfusion,
    RbacConfig.decision_eq_noMatchingRole RbacDenial.noConfusion, fun pattern ↦ ?_,
    fun roles' h ↦ ?_, fun roles' hsub hexists ↦ ?_⟩
  · exact ⟨patternMatchesAt_eq pattern name, patternMatches_iff⟩
  · exact ⟨RbacConfig.decision_congr (RbacConfig.applies_congr h),
      RbacConfig.decision_congr (RbacConfig.applies_congr h)⟩
  · exact ⟨RbacConfig.decision_mono hsub hexists, RbacConfig.decision_mono hsub hexists⟩

end Himadri
