import Himadri.Core.Config

/-!
# Role-based access control

The decisions of `himadri-core`'s `rbac`: which models and providers the roles of a principal grant.
A policy lists patterns, and the policies of several roles are joined.
-/

namespace Himadri

/-- `RbacDenial`. -/
inductive RbacDenial
  | noMatchingRole
  | modelForbidden (model : String)
  | providerForbidden (provider : String)
  deriving DecidableEq

/-- What a denial is rendered as. -/
def RbacDenial.display : RbacDenial → String
  | .noMatchingRole => "no role grants access to this gateway"
  | .modelForbidden model => "model '" ++ model ++ "' is not permitted for your role"
  | .providerForbidden provider => "provider '" ++ provider ++ "' is not permitted for your role"

/-! ### Patterns -/

/-- What follows the first occurrence of `part`. -/
def dropThrough (part : List Char) : List Char → Option (List Char)
  | [] => if part.isEmpty then some [] else none
  | c :: rest =>
    if part.isPrefixOf (c :: rest) then some ((c :: rest).drop part.length)
    else dropThrough part rest

/-- The loop of `pattern_matches`: the parts left of the pattern on what is left of the value. -/
def matchParts : (first : Bool) → List (List Char) → List Char → Bool
  | _, [], _ => true
  | first, part :: parts, value =>
    if part.isEmpty then matchParts false parts value
    else if first then part.isPrefixOf value && matchParts false parts (value.drop part.length)
    -- the last part is anchored at the end, wherever the earlier ones matched
    else if parts.isEmpty then part.isSuffixOf value
    else
      match dropThrough part value with
      | some rest => matchParts false parts rest
      | none => false

/-- `pattern_matches`. -/
def patternMatches (pattern value : String) : Bool :=
  if pattern = "*" then true
  else if !pattern.toList.contains '*' then pattern == value
  else matchParts true (pattern.toList.splitOn '*') value.toList

/-- `any_match`. -/
def anyMatch (patterns : List String) (value : String) : Bool :=
  patterns.any (patternMatches · value)

/-! ### Policies -/

/-- `EffectivePolicy`; `none` grants everything. -/
structure EffectivePolicy where
  models : Option (List String)
  providers : Option (List String)
  deriving DecidableEq

/-- `merge_dimension`: a role without a list lifts the restriction for good. -/
def mergeDimension (acc item : Option (List String)) : Option (List String) :=
  match item with
  | none => none
  | some list => acc.map (· ++ list)

namespace RbacConfig

variable (rbac : RbacConfig) (roles : List String) (isAdmin : Bool)

/-- The policies `effective_policy` joins. -/
def policies : List RolePolicy :=
  match roles.filterMap rbac.roles.get with
  | [] => (rbac.defaultRole.bind rbac.roles.get).toList
  | matched => matched

/-- `RbacConfig::effective_policy`. -/
def effectivePolicy : Option EffectivePolicy :=
  match rbac.policies roles with
  | [] => none
  | policies =>
    some
      { models := policies.foldl (fun acc p ↦ mergeDimension acc p.models) (some [])
        providers := policies.foldl (fun acc p ↦ mergeDimension acc p.providers) (some []) }

/-- `RbacConfig::check_dimension`. -/
def checkDimension (value : String) (select : EffectivePolicy → Option (List String))
    (deny : String → RbacDenial) : Except RbacDenial Unit :=
  if !rbac.enabled || isAdmin then .ok ()
  else
    match rbac.effectivePolicy roles with
    | none => .error .noMatchingRole
    | some policy =>
      match select policy with
      | none => .ok ()
      | some allowed => if anyMatch allowed value then .ok () else .error (deny value)

/-- `RbacConfig::check_model`. -/
def checkModel (model : String) : Except RbacDenial Unit :=
  rbac.checkDimension roles isAdmin model (·.models) .modelForbidden

/-- `RbacConfig::check_provider`. -/
def checkProvider (provider : String) : Except RbacDenial Unit :=
  rbac.checkDimension roles isAdmin provider (·.providers) .providerForbidden

variable {rbac roles isAdmin}

theorem checkDimension_of_disabled {value : String}
    {select : EffectivePolicy → Option (List String)} {deny : String → RbacDenial}
    (h : rbac.enabled = false) : rbac.checkDimension roles isAdmin value select deny = .ok () := by
  simp [checkDimension, h]

theorem checkDimension_of_admin {value : String}
    {select : EffectivePolicy → Option (List String)} {deny : String → RbacDenial} :
    rbac.checkDimension roles true value select deny = .ok () := by
  simp [checkDimension]

end RbacConfig

end Himadri
