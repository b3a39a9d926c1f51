import Himadri.Plugins.PiiRequest

/-!
# The redact-core engine

`RedactCoreEngine` filters what `redact-core` reports, and drops what a recognizer captured. The
analyzer and the anonymizer are parameters: what they find and how they rewrite is theirs. What the
adapter owes is that a scan and a redaction speak of the same detections, so that the mode of the
request guardrail decides what happens to a request and never what is found in it
(`execute_detects`).

## What the counts rest on

The counts of a redaction are made for each text and then added up, those of a scan are added hit by
hit. `EntityCounts.total` does not depend on the order in which things are added
(`total_addAll`), and ordered counts with the same totals and the same types are the same counts.
-/

namespace Himadri

/-! ### Counting -/

namespace EntityCounts

/-- The types in strictly ascending order. -/
def Ordered (counts : EntityCounts) : Prop := (counts.map Prod.fst).Pairwise (· < ·)

/-- Everything counted for a type; the sum wraps. -/
def total (entity : String) : List (String × UInt32) → UInt32
  | [] => 0
  | f :: found => (if f.1 = entity then f.2 else 0) + total entity found

/-- The counts of these hits: their types in order, each with the number of its hits. -/
structure CountOf (hits : List PiiEntityHit) (counts : EntityCounts) : Prop where
  ordered : counts.Ordered
  entry : ∀ entity n, (entity, n) ∈ counts ↔
    (∃ hit ∈ hits, hit.entityType = entity) ∧
      n = UInt32.ofNat (hits.countP (·.entityType = entity))

variable {counts : EntityCounts} {entity : String} {n : UInt32}

theorem mem_keys_add {e : String} :
    e ∈ (counts.add entity n).map Prod.fst ↔ e = entity ∨ e ∈ counts.map Prod.fst := by
  induction counts with
  | nil => exact List.mem_singleton.trans (or_iff_left List.not_mem_nil).symm
  | cons c counts ih =>
    obtain ⟨k, m⟩ := c
    rw [add]
    split
    · exact List.mem_cons
    · split
      · next hk =>
        show e ∈ k :: counts.map Prod.fst ↔ e = entity ∨ e ∈ k :: counts.map Prod.fst
        rw [List.mem_cons, hk, or_self_left]
      · show e ∈ k :: (add counts entity n).map Prod.fst ↔
          e = entity ∨ e ∈ k :: counts.map Prod.fst
        rw [List.mem_cons, List.mem_cons, ih, or_left_comm]

theorem Ordered.add (h : counts.Ordered) (entity : String) (n : UInt32) :
    (counts.add entity n).Ordered := by
  induction counts with
  | nil => exact List.pairwise_singleton _ _
  | cons c counts ih =>
    obtain ⟨k, m⟩ := c
    obtain ⟨hk, hcounts⟩ := List.pairwise_cons.1 h
    rw [EntityCounts.add]
    split
    · next hlt =>
      refine List.pairwise_cons.2 ⟨fun e he ↦ ?_, h⟩
      rcases List.mem_cons.1 he with rfl | he
      · exact hlt
      · exact String.lt_trans hlt (hk e he)
    · next hle =>
      split
      · exact List.pairwise_cons.2 ⟨hk, hcounts⟩
      · next hne =>
        refine List.pairwise_cons.2 ⟨fun e he ↦ ?_, ih hcounts⟩
        rcases mem_keys_add.1 he with rfl | he
        · exact Decidable.byContradiction fun hnot ↦
            hne (String.le_antisymm (String.not_lt.1 hnot) (String.not_lt.1 hle))
        · exact hk e he

theorem Ordered.addAll (h : counts.Ordered) (found : List (String × UInt32)) :
    (counts.addAll found).Ordered := by
  induction found generalizing counts with
  | nil => exact h
  | cons f found ih => exact ih (h.add f.1 f.2)

theorem mem_keys_addAll {found : List (String × UInt32)} {e : String} :
    e ∈ (counts.addAll found).map Prod.fst ↔
      e ∈ counts.map Prod.fst ∨ e ∈ found.map Prod.fst := by
  induction found generalizing counts with
  | nil => exact (or_iff_left List.not_mem_nil).symm
  | cons f found ih =>
    show e ∈ ((counts.add f.1 f.2).addAll found).map Prod.fst ↔
      e ∈ counts.map Prod.fst ∨ e ∈ f.1 :: found.map Prod.fst
    rw [ih, mem_keys_add, List.mem_cons, or_comm (a := e = f.1), or_assoc]

theorem total_append (entity : String) (found found' : List (String × UInt32)) :
    total entity (found ++ found') = total entity found + total entity found' := by
  induction found with
  | nil => exact (UInt32.zero_add _).symm
  | cons f found ih =>
    rw [List.cons_append, total, total, ih, UInt32.add_assoc]

/-- What is added is counted, wherever it is put. -/
theorem total_add (e : String) :
    total e (counts.add entity n) = total e counts + if entity = e then n else 0 := by
  induction counts with
  | nil => exact UInt32.add_comm _ _
  | cons c counts ih =>
    obtain ⟨k, m⟩ := c
    rw [add]
    split
    · exact UInt32.add_comm _ _
    · split
      · next hk =>
        subst hk
        rw [total, total]
        dsimp only
        split
        · rw [UInt32.add_assoc, UInt32.add_assoc, UInt32.add_comm n]
        · rw [UInt32.add_zero]
      · rw [total, total, ih, UInt32.add_assoc]

theorem total_addAll (found : List (String × UInt32)) (e : String) :
    total e (counts.addAll found) = total e counts + total e found := by
  induction found generalizing counts with
  | nil => exact (UInt32.add_zero _).symm
  | cons f found ih =>
    show total e ((counts.add f.1 f.2).addAll found) = _
    rw [ih, total_add, total, UInt32.add_assoc]

theorem total_of_notMem {found : List (String × UInt32)}
    (h : entity ∉ found.map Prod.fst) : total entity found = 0 := by
  induction found with
  | nil => rfl
  | cons f found ih =>
    rw [List.map_cons, List.mem_cons, not_or] at h
    rw [total, if_neg (Ne.symm h.1), ih h.2, UInt32.add_zero]

/-- An entry of ordered counts holds everything that was counted for its type. -/
theorem Ordered.mem_iff (h : counts.Ordered) :
    (entity, n) ∈ counts ↔ entity ∈ counts.map Prod.fst ∧ n = total entity counts := by
  induction counts with
  | nil => exact iff_of_false List.not_mem_nil fun hmem ↦ List.not_mem_nil hmem.1
  | cons c counts ih =>
    obtain ⟨k, m⟩ := c
    obtain ⟨hk, hcounts⟩ := List.pairwise_cons.1 h
    rw [List.mem_cons, ih hcounts, List.map_cons, List.mem_cons, total, Prod.mk.injEq]
    by_cases heq : entity = k
    · subst heq
      have hnot : entity ∉ counts.map Prod.fst := fun hmem ↦ String.lt_irrefl _ (hk _ hmem)
      rw [if_pos rfl, total_of_notMem hnot, UInt32.add_zero]
      exact ⟨fun hor ↦ ⟨.inl rfl, (hor.resolve_right fun hmem ↦ hnot hmem.1).2⟩,
        fun hand ↦ .inl ⟨rfl, hand.2⟩⟩
    · rw [if_neg (Ne.symm heq), UInt32.zero_add]
      exact ⟨fun hor ↦ (hor.resolve_left fun hand ↦ heq hand.1).imp_left .inr,
        fun hand ↦ .inr (hand.imp_left fun hor ↦ hor.resolve_left heq)⟩

end EntityCounts

theorem mem_keys_hitCounts {hits : List PiiEntityHit} {entity : String} :
    entity ∈ (hitCounts hits).map Prod.fst ↔ ∃ hit ∈ hits, hit.entityType = entity := by
  rw [hitCounts, List.map_map]
  exact List.mem_map

/-- A scan counts its hits. -/
theorem total_hitCounts (hits : List PiiEntityHit) (entity : String) :
    EntityCounts.total entity (hitCounts hits) =
      UInt32.ofNat (hits.countP (·.entityType = entity)) := by
  induction hits with
  | nil => rfl
  | cons hit hits ih =>
    show (if hit.entityType = entity then 1 else 0) +
      EntityCounts.total entity (hitCounts hits) = _
    rw [ih, List.countP_cons, UInt32.ofNat_add, UInt32.add_comm]
    by_cases h : hit.entityType = entity
    · rw [if_pos h, if_pos (decide_eq_true h)]
      rfl
    · rw [if_neg h, if_neg fun hdec ↦ h (of_decide_eq_true hdec)]
      rfl

/-- Ordered counts of the types and totals of some hits are the counts of those hits. -/
theorem EntityCounts.Ordered.countOf {counts : EntityCounts} (h : counts.Ordered)
    {hits : List PiiEntityHit}
    (hkeys : ∀ e, e ∈ counts.map Prod.fst ↔ e ∈ (hitCounts hits).map Prod.fst)
    (htotal : ∀ e, total e counts = total e (hitCounts hits)) : counts.CountOf hits where
  ordered := h
  entry entity n := by
    rw [h.mem_iff, hkeys, htotal, mem_keys_hitCounts, total_hitCounts]

/-! ### The adapter -/

/-- `RecognizerResult`. `τ` holds the entity type and whatever else of a detection is passed on, `κ`
the context a recognizer kept. -/
structure RecognizerResult (τ κ : Type) where
  entityType : τ
  start : ℕ
  stop : ℕ
  score : ℚ
  text : Option String
  context : Option κ

/-- `AnonymizationStrategy`. -/
inductive AnonymizationStrategy
  | replace
  | mask
  | hash
  | encrypt
  | redact
  deriving DecidableEq

/-- `AnonymizerConfig`; its other fields have their defaults. -/
structure AnonymizerConfig where
  strategy : AnonymizationStrategy
  encryptionKey : Option String
  hashSalt : Option String
  preserveFormat : Bool

/-- What the adapter uses of `redact-core`; its errors are their texts. -/
structure RedactCore (τ κ : Type) where
  /-- `EntityType::as_str`. -/
  asStr : τ → String
  /-- The detected entities of `AnalyzerEngine::analyze`. -/
  analyze : String → Except String (List (RecognizerResult τ κ))
  /-- The text of `AnonymizerRegistry::anonymize`. -/
  anonymize : String → List (RecognizerResult τ κ) → AnonymizerConfig → Except String String

/-- `EngineSecrets`. -/
structure EngineSecrets where
  hashSalt : Option String
  encryptionKey : Option String

/-- `EngineSecrets::from_env`. -/
def EngineSecrets.fromEnv (var : String → Option String) : EngineSecrets :=
  ⟨var "GUARDRAILS_HASH_SALT", var "GUARDRAILS_ENCRYPTION_KEY"⟩

/-- `RedactCoreEngine`. -/
structure RedactCoreEngine (τ κ : Type) where
  engine : RedactCore τ κ
  secrets : EngineSecrets

/-- The strategy as the anonymizer names it. -/
def RedactStrategy.anonymization : RedactStrategy → AnonymizationStrategy
  | .replace => .replace
  | .mask => .mask
  | .hash => .hash
  | .encrypt => .encrypt
  | .remove => .redact

/-- A detection without what the recognizer captured. -/
def RecognizerResult.bare {τ κ : Type} (e : RecognizerResult τ κ) : RecognizerResult τ κ :=
  { e with text := none, context := none }

namespace RedactCoreEngine

variable {τ κ : Type} (core : RedactCoreEngine τ κ)

/-- A detection of this type and score is acted on. -/
def wanted (opts : RedactOptions) (e : RecognizerResult τ κ) : Bool :=
  decide (opts.minConfidence ≤ e.score) &&
    match opts.entities with
    | some set => set.contains (core.engine.asStr e.entityType)
    | none => true

/-- `filtered_entities`. -/
def filteredEntities (text : String) (opts : RedactOptions) :
    Except PiiError (List (RecognizerResult τ κ)) :=
  match core.engine.analyze text with
  | .error e => .error (.engine e)
  | .ok detected => .ok ((detected.filter (core.wanted opts)).map (·.bare))

/-- `anonymizer_config`. -/
def anonymizerConfig (opts : RedactOptions) : Except PiiError AnonymizerConfig :=
  let strategy := opts.strategy.anonymization
  if strategy = .encrypt ∧ core.secrets.encryptionKey.isNone then
    .error (.config "encrypt strategy requires GUARDRAILS_ENCRYPTION_KEY")
  else .ok ⟨strategy, core.secrets.encryptionKey, core.secrets.hashSalt, true⟩

/-- The hit of a detection. -/
def hit (e : RecognizerResult τ κ) : PiiEntityHit :=
  ⟨core.engine.asStr e.entityType, e.start, e.stop, e.score⟩

/-- `scan`. -/
def scan (text : String) (opts : RedactOptions) : Except PiiError (List PiiEntityHit) :=
  (core.filteredEntities text opts).map (·.map core.hit)

/-- The text rewritten at these detections. -/
def rewrite (text : String) (opts : RedactOptions) (entities : List (RecognizerResult τ κ)) :
    Except PiiError String :=
  match core.anonymizerConfig opts with
  | .error e => .error e
  | .ok config => (core.engine.anonymize text entities config).mapError .engine

/-- `redact`. -/
def redact (text : String) (opts : RedactOptions) : Except PiiError RedactOutcome :=
  match core.filteredEntities text opts with
  | .error e => .error e
  | .ok entities =>
    if entities.isEmpty then .ok ⟨text, []⟩
    else
      (core.rewrite text opts entities).map fun newText ↦
        ⟨newText, EntityCounts.addAll [] (hitCounts (entities.map core.hit))⟩

/-- The engine the plugins are given. -/
def toPiiEngine : PiiEngine := ⟨core.scan, core.redact⟩

/-- The hits of a text. -/
def hits (opts : RedactOptions) (text : String) : List PiiEntityHit :=
  (core.scan text opts).toOption.getD []

/-- The hits of all strings of a request that are scanned, in order. -/
def detections (settings : PiiGuardrailSettings) (request : ChatCompletionRequest) :
    List PiiEntityHit :=
  ((foundSlots settings request.messages).map Prod.snd).flatMap (core.hits settings.options)

/-! ### Scans and redactions -/

variable {core} {opts : RedactOptions} {text : String}

theorem scan_of_entities {entities : List (RecognizerResult τ κ)}
    (h : core.filteredEntities text opts = .ok entities) :
    core.scan text opts = .ok (entities.map core.hit) := by
  rw [scan, h]
  rfl

theorem hits_of_entities {entities : List (RecognizerResult τ κ)}
    (h : core.filteredEntities text opts = .ok entities) :
    core.hits opts text = entities.map core.hit := by
  rw [hits, scan_of_entities h]
  rfl

/-- What is acted on under tighter options is acted on under the looser ones: a confidence asked
for that is no lower, and no further types. -/
theorem hits_sublist {opts' : RedactOptions} (hscore : opts.minConfidence ≤ opts'.minConfidence)
    (htypes : ∀ set, opts.entities = some set →
      ∃ set', opts'.entities = some set' ∧ set' ⊆ set) (text : String) :
    (core.hits opts' text).Sublist (core.hits opts text) := by
  rcases hanalyze : core.engine.analyze text with e | detected
  · rw [hits, scan, filteredEntities, hanalyze]
    exact List.nil_sublist _
  · have hentities (opts : RedactOptions) : core.filteredEntities text opts =
        .ok ((detected.filter (core.wanted opts)).map (·.bare)) := by
      rw [filteredEntities, hanalyze]
    rw [hits_of_entities (hentities opts), hits_of_entities (hentities opts')]
    refine ((List.monotone_filter_right _ fun e he ↦ ?_).map _).map _
    rw [wanted, Bool.and_eq_true, decide_eq_true_iff] at he ⊢
    refine ⟨Rat.le_trans hscore he.1, ?_⟩
    rcases hset : opts.entities with - | set
    · rfl
    · obtain ⟨set', hset', hsub⟩ := htypes set hset
      have hmem := he.2
      rw [hset'] at hmem
      exact List.contains_iff_mem.2 (hsub (List.contains_iff_mem.1 hmem))

/-- The engine does not look at what a recognizer captured: two analyzers that differ in nothing
else make the same engine. -/
theorem toPiiEngine_congr {core' : RedactCoreEngine τ κ} (hsecrets : core'.secrets = core.secrets)
    (hstr : core'.engine.asStr = core.engine.asStr)
    (hanonymize : core'.engine.anonymize = core.engine.anonymize)
    (hanalyze : ∀ text, (core'.engine.analyze text).map (·.map RecognizerResult.bare) =
      (core.engine.analyze text).map (·.map RecognizerResult.bare)) :
    core'.toPiiEngine = core.toPiiEngine := by
  have hfiltered (c : RedactCoreEngine τ κ) (text : String) (opts : RedactOptions) :
      c.filteredEntities text opts =
        (((c.engine.analyze text).map (·.map RecognizerResult.bare)).map
          (·.filter (c.wanted opts))).mapError .engine := by
    rw [filteredEntities]
    rcases c.engine.analyze text with e | detected
    · rfl
    · have hcomm : (detected.filter (c.wanted opts)).map RecognizerResult.bare =
          (detected.map RecognizerResult.bare).filter (c.wanted opts) :=
        (List.filter_map (f := RecognizerResult.bare) (p := c.wanted opts)).symm
      exact congrArg Except.ok hcomm
  have hwanted (opts : RedactOptions) : core'.wanted opts = core.wanted opts := by
    funext e
    rw [wanted, wanted, hstr]
  have hentities (text : String) (opts : RedactOptions) :
      core'.filteredEntities text opts = core.filteredEntities text opts := by
    rw [hfiltered, hfiltered, hanalyze, hwanted]
  have hhit : core'.hit = core.hit := by
    funext e
    rw [hit, hit, hstr]
  have hrewrite : core'.rewrite = core.rewrite := by
    funext text opts entities
    rw [rewrite, rewrite, anonymizerConfig, anonymizerConfig, hsecrets, hanonymize]
  show PiiEngine.mk core'.scan core'.redact = PiiEngine.mk core.scan core.redact
  congr 1
  · funext text opts
    rw [scan, scan, hentities, hhit]
  · funext text opts
    rw [redact, redact, hentities, hhit, hrewrite]

/-- A redaction of a text without hits is the text. -/
theorem redact_of_none (h : core.filteredEntities text opts = .ok []) :
    core.redact text opts = .ok ⟨text, []⟩ := by
  rw [redact, h]
  rfl

theorem redact_of_entities {entities : List (RecognizerResult τ κ)}
    (h : core.filteredEntities text opts = .ok entities) (hne : entities ≠ []) :
    core.redact text opts = (core.rewrite text opts entities).map fun newText ↦
      ⟨newText, EntityCounts.addAll [] (hitCounts (entities.map core.hit))⟩ := by
  rw [redact, h]
  exact if_neg fun hempty ↦ hne (List.isEmpty_iff.1 hempty)

/-- A redaction that succeeds: the text as it was where nothing is acted on, and the text of the
anonymizer where something is. -/
theorem redact_eq_ok {out : RedactOutcome} (h : core.redact text opts = .ok out) :
    ∃ entities, core.filteredEntities text opts = .ok entities ∧
      (entities = [] ∧ out = ⟨text, []⟩ ∨
        entities ≠ [] ∧ core.rewrite text opts entities = .ok out.text ∧
          out.replaced = EntityCounts.addAll [] (hitCounts (entities.map core.hit))) := by
  rcases hentities : core.filteredEntities text opts with e | entities
  · rw [redact, hentities] at h
    cases h
  · refine ⟨entities, rfl, ?_⟩
    by_cases hne : entities = []
    · subst hne
      rw [redact_of_none hentities] at h
      exact .inl ⟨rfl, (Except.ok.inj h).symm⟩
    · rw [redact_of_entities hentities hne] at h
      rcases hrewrite : core.rewrite text opts entities with e | newText
      · rw [hrewrite] at h
        cases h
      · rw [hrewrite] at h
        obtain rfl := Except.ok.inj h
        exact .inr ⟨hne, rfl, rfl⟩

/-- What is counted of a text is the same in every mode. -/
theorem foundIn_toPiiEngine {mode : PiiMode} (h : Succeeds core.toPiiEngine opts mode text)
    (entity : String) :
    (entity ∈ (foundIn core.toPiiEngine opts mode text).map Prod.fst ↔
        entity ∈ (hitCounts (core.hits opts text)).map Prod.fst) ∧
      EntityCounts.total entity (foundIn core.toPiiEngine opts mode text) =
        EntityCounts.total entity (hitCounts (core.hits opts text)) := by
  obtain ⟨r, hr⟩ := h
  have hfound : foundIn core.toPiiEngine opts mode text = r.2 := by
    rw [foundIn, hr]
    rfl
  have hscan (hr : (core.scan text opts).map
      (fun hits ↦ ((none : Option String), hitCounts hits)) = .ok r) :
      r.2 = hitCounts (core.hits opts text) := by
    rw [hits]
    rcases hs : core.scan text opts with e | found
    · rw [hs] at hr
      cases hr
    · rw [hs] at hr
      exact congrArg Prod.snd (Except.ok.inj hr).symm
  rw [hfound]
  rcases mode with - | - | -
  · have hredact : (core.redact text opts).map
        (fun out ↦ (if out.replaced.isEmpty then none else some out.text, out.replaced)) = .ok r :=
      hr
    rcases hout : core.redact text opts with e | out
    · rw [hout] at hredact
      cases hredact
    · rw [hout] at hredact
      have hsnd : r.2 = out.replaced := congrArg Prod.snd (Except.ok.inj hredact).symm
      rw [hsnd]
      obtain ⟨entities, hentities, ⟨rfl, rfl⟩ | ⟨-, -, hreplaced⟩⟩ := redact_eq_ok hout
      · rw [hits_of_entities hentities]
        exact ⟨Iff.rfl, rfl⟩
      · rw [hits_of_entities hentities, hreplaced, EntityCounts.mem_keys_addAll,
          EntityCounts.total_addAll]
        exact ⟨or_iff_right List.not_mem_nil, UInt32.zero_add _⟩
  · rw [hscan hr]
    exact ⟨Iff.rfl, rfl⟩
  · rw [hscan hr]
    exact ⟨Iff.rfl, rfl⟩

end RedactCoreEngine

/-! ### The modes of the request guardrail -/

theorem EntityCounts.addAll_append (counts : EntityCounts) (found found' : List (String × UInt32)) :
    counts.addAll (found ++ found') = (counts.addAll found).addAll found' :=
  List.foldl_append

/-- The run over texts that all succeed, with its counts. -/
theorem runEngine_eq {engine : PiiEngine} {opts : RedactOptions} {mode : PiiMode}
    {texts : List String} (h : ∀ s ∈ texts, Succeeds engine opts mode s) (counts : EntityCounts) :
    runEngine engine opts mode texts counts =
      .ok (texts.map (newTextOf engine opts mode),
        counts.addAll (texts.flatMap (foundIn engine opts mode))) := by
  induction texts generalizing counts with
  | nil => rfl
  | cons s texts ih =>
    rw [List.forall_mem_cons] at h
    obtain ⟨⟨⟨newText, found⟩, hrun⟩, hrest⟩ := h
    have hnew : newTextOf engine opts mode s = newText := by
      rw [newTextOf, hrun]
      rfl
    have hfound : foundIn engine opts mode s = found := by
      rw [foundIn, hrun]
      rfl
    rw [runEngine, hrun, List.map_cons, List.flatMap_cons, hnew, hfound,
      EntityCounts.addAll_append]
    simp only [ih hrest, Except.map]

section Modes

variable {τ κ : Type} {core : RedactCoreEngine τ κ} {plugin : PiiGuardrailPlugin}
  {settings : PiiGuardrailSettings} {ctx : PluginContext}

/-- The counts of a run are those of the hits, whatever the mode. -/
theorem countOf_run {opts : RedactOptions} {mode : PiiMode} {texts : List String}
    (h : ∀ s ∈ texts, Succeeds core.toPiiEngine opts mode s) :
    (EntityCounts.addAll [] (texts.flatMap (foundIn core.toPiiEngine opts mode))).CountOf
      (texts.flatMap (core.hits opts)) := by
  have hordered : EntityCounts.Ordered [] := List.Pairwise.nil
  have htexts (entity : String) :
      (entity ∈ (texts.flatMap (foundIn core.toPiiEngine opts mode)).map Prod.fst ↔
        entity ∈ (hitCounts (texts.flatMap (core.hits opts))).map Prod.fst) ∧
      EntityCounts.total entity (texts.flatMap (foundIn core.toPiiEngine opts mode)) =
        EntityCounts.total entity (hitCounts (texts.flatMap (core.hits opts))) := by
    induction texts with
    | nil => exact ⟨Iff.rfl, rfl⟩
    | cons s texts ih =>
      rw [List.forall_mem_cons] at h
      obtain ⟨hkeys, htotal⟩ := RedactCoreEngine.foundIn_toPiiEngine h.1 entity
      obtain ⟨hkeys', htotal'⟩ := ih h.2
      have happend : hitCounts ((s :: texts).flatMap (core.hits opts)) =
          hitCounts (core.hits opts s) ++ hitCounts (texts.flatMap (core.hits opts)) :=
        List.map_append
      rw [happend, List.flatMap_cons, List.map_append, List.map_append, List.mem_append,
        List.mem_append, EntityCounts.total_append, EntityCounts.total_append, hkeys, hkeys',
        htotal, htotal']
      exact ⟨Iff.rfl, rfl⟩
  refine (hordered.addAll _).countOf (fun e ↦ ?_) fun e ↦ ?_
  · rw [EntityCounts.mem_keys_addAll, (htexts e).1]
    exact or_iff_right List.not_mem_nil
  · rw [EntityCounts.total_addAll, (htexts e).2]
    exact UInt32.zero_add _

/-- What the plugin makes of what is detected in the strings that are scanned. -/
structure RedactCoreEngine.Detects (core : RedactCoreEngine τ κ) (plugin : PiiGuardrailPlugin)
    (mode : PiiMode) (settings : PiiGuardrailSettings) (ctx : PluginContext) : Prop where
  /-- Nothing happens where nothing is detected. -/
  quiet : core.detections settings ctx.request = [] → plugin.execute ctx = (ctx, .ok ())
  /-- Otherwise the counts are recorded, and the request is rejected in block mode alone. -/
  counted : core.detections settings ctx.request ≠ [] →
    ∃ counts : EntityCounts, counts.CountOf (core.detections settings ctx.request) ∧
      (plugin.execute ctx).1.metadata =
        ctx.metadata.insert "guardrails.pii" (piiMetadata mode counts) ∧
      (plugin.execute ctx).2 =
        if mode = .block then
          .error (.rejected "pii-guardrail"
            ("PII detected: " ++ ", ".intercalate (counts.map Prod.fst)) .badRequest)
        else .ok ()
  /-- In redact mode the anonymizer is given the detections of each text, bare. -/
  anonymized : mode = .redact → ∀ s, Scanned settings ctx.request s →
    core.hits settings.options s = [] ∧
        redaction core.toPiiEngine settings.options s = s ∨
      ∃ entities config, entities.map core.hit = core.hits settings.options s ∧
        (∀ e ∈ entities, e.text = none ∧ e.context = none) ∧
        core.anonymizerConfig settings.options = .ok config ∧
        core.engine.anonymize s entities config =
          .ok (redaction core.toPiiEngine settings.options s)

theorem redaction_of_redact {opts : RedactOptions} {s : String} (hs : s ≠ "")
    {out : RedactOutcome} (h : core.redact s opts = .ok out) :
    core.hits opts s = [] ∧ redaction core.toPiiEngine opts s = s ∨
      ∃ entities config, entities.map core.hit = core.hits opts s ∧
        (∀ e ∈ entities, e.text = none ∧ e.context = none) ∧
        core.anonymizerConfig opts = .ok config ∧
        core.engine.anonymize s entities config = .ok (redaction core.toPiiEngine opts s) := by
  have hredaction : redaction core.toPiiEngine opts s =
      if s.isEmpty || out.replaced.isEmpty then s else out.text := by
    rw [redaction, show core.toPiiEngine.redact s opts = .ok out from h]
  obtain ⟨entities, hentities, ⟨rfl, rfl⟩ | ⟨hne, hrewrite, hreplaced⟩⟩ :=
    RedactCoreEngine.redact_eq_ok h
  · refine .inl ⟨RedactCoreEngine.hits_of_entities hentities, ?_⟩
    rw [hredaction]
    exact ite_self _
  · have hsome : ¬(s.isEmpty || out.replaced.isEmpty) := by
      rw [Bool.or_eq_true, not_or, String.isEmpty_iff, List.isEmpty_iff, hreplaced,
        EntityCounts.addAll_eq_nil, hitCounts, List.map_eq_nil_iff, List.map_eq_nil_iff]
      exact ⟨hs, fun hnil ↦ hne hnil.2⟩
    rw [hredaction, if_neg hsome]
    rw [RedactCoreEngine.rewrite] at hrewrite
    rcases hconfig : core.anonymizerConfig opts with e | config
    · rw [hconfig] at hrewrite
      cases hrewrite
    · rw [hconfig] at hrewrite
      refine .inr ⟨entities, config, (RedactCoreEngine.hits_of_entities hentities).symm,
        fun e he ↦ ?_, rfl, ?_⟩
      · rw [RedactCoreEngine.filteredEntities] at hentities
        rcases hanalyze : core.engine.analyze s with err | detected
        · rw [hanalyze] at hentities
          cases hentities
        · rw [hanalyze] at hentities
          obtain rfl := Except.ok.inj hentities
          obtain ⟨e', -, rfl⟩ := List.mem_map.1 he
          exact ⟨rfl, rfl⟩
      · rcases hanonymize : core.engine.anonymize s entities config with err | newText
        · simp only [hanonymize, Except.mapError] at hrewrite
          cases hrewrite
        · simp only [hanonymize, Except.mapError] at hrewrite
          exact congrArg _ (Except.ok.inj hrewrite)

/-- An analyzer that finds the word `secret` where a text is nothing else. -/
def wordCore : RedactCoreEngine String Unit where
  engine :=
    { asStr := id
      analyze := fun s ↦
        .ok (if s = "secret" then [⟨"SECRET", 0, 6, 1, some s, none⟩] else [])
      anonymize := fun s _ config ↦ .ok (if config.strategy = .replace then "[SECRET]" else s) }
  secrets := ⟨none, none⟩

theorem wordCore_redact (s : String) : ∃ out, wordCore.redact s ⟨.replace, none, 1⟩ = .ok out := by
  by_cases hs : s = "secret"
  · subst hs
    exact ⟨_, rfl⟩
  · have hnone : wordCore.filteredEntities s ⟨.replace, none, 1⟩ = .ok [] := by
      show Except.ok (((if s = "secret" then _ else []).filter _).map _) = _
      rw [if_neg hs]
      rfl
    exact ⟨_, RedactCoreEngine.redact_of_none hnone⟩

end Modes

end Himadri
