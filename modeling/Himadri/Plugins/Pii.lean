import Himadri.Plugins.Pipeline
import Mathlib.Data.Rat.Defs

/-!
# PII engines

What the guardrails ask of a `PiiEngine`, and the counts they keep of what it found. An engine is
its two functions, which may fail; confidences are exact rationals.
-/

namespace Himadri

/-- `RedactStrategy`. -/
inductive RedactStrategy
  | replace
  | mask
  | hash
  | encrypt
  | remove
  deriving DecidableEq

/-- `PiiError`. -/
inductive PiiError
  | engine (message : String)
  | config (message : String)
  deriving DecidableEq

/-- The error's message. -/
def PiiError.display : PiiError → String
  | .engine message => "pii engine error: " ++ message
  | .config message => "pii engine misconfigured: " ++ message

/-- `PiiEntityHit`: the bytes from `start` up to `stop`. -/
structure PiiEntityHit where
  entityType : String
  start : ℕ
  stop : ℕ
  confidence : ℚ
  deriving DecidableEq

/-- `RedactOptions`; `none` stands for every entity type. -/
structure RedactOptions where
  strategy : RedactStrategy
  entities : Option (List String)
  minConfidence : ℚ
  deriving DecidableEq

/-- `RedactOptions::default`. -/
def RedactOptions.default : RedactOptions := ⟨.replace, none, 6 / 10⟩

/-- `RedactOutcome`. -/
structure RedactOutcome where
  text : String
  replaced : List (String × UInt32)
  deriving DecidableEq

/-- `PiiEngine`. -/
structure PiiEngine where
  scan : String → RedactOptions → Except PiiError (List PiiEntityHit)
  redact : String → RedactOptions → Except PiiError RedactOutcome

/-! ### Counts -/

/-- `BTreeMap<String, u32>`: the entity types in ascending order. -/
abbrev EntityCounts := List (String × UInt32)

/-- `*counts.entry(entity).or_insert(0) += n`; the sum wraps. -/
def EntityCounts.add : EntityCounts → String → UInt32 → EntityCounts
  | [], entity, n => [(entity, n)]
  | (e, m) :: counts, entity, n =>
    if entity < e then (entity, n) :: (e, m) :: counts
    else if entity = e then (e, m + n) :: counts
    else (e, m) :: EntityCounts.add counts entity n

/-- Several entities counted one after another. -/
def EntityCounts.addAll (counts : EntityCounts) (found : List (String × UInt32)) : EntityCounts :=
  found.foldl (fun counts f ↦ counts.add f.1 f.2) counts

/-- The hits of a scan, each counted once. -/
def hitCounts (hits : List PiiEntityHit) : List (String × UInt32) := hits.map (·.entityType, 1)

theorem EntityCounts.add_ne_nil (counts : EntityCounts) (entity : String) (n : UInt32) :
    counts.add entity n ≠ [] := by
  rcases counts with - | ⟨⟨e, m⟩, counts⟩
  · exact List.cons_ne_nil _ _
  · rw [EntityCounts.add]
    split
    · exact List.cons_ne_nil _ _
    · split
      · exact List.cons_ne_nil _ _
      · exact List.cons_ne_nil _ _

/-- There are counts exactly where something was counted. -/
theorem EntityCounts.addAll_eq_nil {counts : EntityCounts} {found : List (String × UInt32)} :
    counts.addAll found = [] ↔ counts = [] ∧ found = [] := by
  induction found generalizing counts with
  | nil => exact ⟨fun h ↦ ⟨h, rfl⟩, fun h ↦ h.1⟩
  | cons f found ih =>
    refine iff_of_false (fun h ↦ ?_) fun h ↦ List.cons_ne_nil _ _ h.2
    exact EntityCounts.add_ne_nil _ _ _ (ih.1 h).1

end Himadri
