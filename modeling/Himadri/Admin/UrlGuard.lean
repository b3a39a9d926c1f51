import Himadri.Admin.ModelTables
import Himadri.Core.NetGuard
import Himadri.Core.UrlLiterals
import Himadri.Provider.Registry

/-!
# Where a guarded base URL leads

The handlers that check an endpoint's `base_url`, and the URLs that the client built from it
requests. What the guard takes for the host it reads off the text; the client's URL parser strips
and decodes first, and knows more spellings of an address. The guard keeps requests away from
forbidden hosts exactly where a forbidden host is spelled plainly (`guard_sound_iff`).
-/

namespace Himadri

open Url IpParser

/-! ### The handlers -/

/-- The check of `create_endpoint` and `update_endpoint`. -/
def guardBaseUrl (allowPrivate : Bool) : Option String → Except AdminError Unit
  | none => .ok ()
  | some url =>
    match providerUrlIsAllowed url allowPrivate with
    | .ok () => .ok ()
    | .error reason => .error (.validation reason)

section Handlers

variable {κ : Type} (allowPrivate : Bool) (gcm : Aes256Gcm κ) (store : ModelEndpointStore κ)
  (t : ModelTables) (id uuid modelId : String) (nonce : Nonce)

/-- `AdminHandlers::create_endpoint`. -/
def createEndpoint (request : CreateModelEndpointRequest) :
    Except AdminError (ModelTables × ModelEndpoint) := do
  guardBaseUrl allowPrivate request.baseUrl
  store.create gcm t uuid modelId nonce request

/-- `AdminHandlers::update_endpoint`. -/
def updateEndpoint (request : UpdateModelEndpointRequest) :
    Except AdminError (ModelTables × Option ModelEndpoint) := do
  guardBaseUrl allowPrivate request.baseUrl.join
  store.update gcm t id nonce request

end Handlers

/-- A handler accepts the base URL, with private ones not allowed. -/
def Accepted (url : String) : Prop := guardBaseUrl false (some url) = .ok ()

theorem accepted_of_createEndpoint {κ : Type} {gcm : Aes256Gcm κ} {store : ModelEndpointStore κ}
    {t : ModelTables} {uuid modelId url : String} {nonce : Nonce}
    {request : CreateModelEndpointRequest} {r : ModelTables × ModelEndpoint}
    (hurl : request.baseUrl = some url)
    (h : createEndpoint false gcm store t uuid modelId nonce request = .ok r) : Accepted url := by
  obtain ⟨⟨⟩, hguard, -⟩ := Except.bind_eq_ok h
  rwa [hurl] at hguard

theorem accepted_of_updateEndpoint {κ : Type} {gcm : Aes256Gcm κ} {store : ModelEndpointStore κ}
    {t : ModelTables} {id url : String} {nonce : Nonce} {request : UpdateModelEndpointRequest}
    {r : ModelTables × Option ModelEndpoint} (hurl : request.baseUrl = some (some url))
    (h : updateEndpoint false gcm store t id nonce request = .ok r) : Accepted url := by
  obtain ⟨⟨⟩, hguard, -⟩ := Except.bind_eq_ok h
  rwa [hurl] at hguard

/-! ### Requests -/

/-- A request of a client that the gateway builds from the base URL. -/
def Requests (url : String) (request : UpstreamRequest) : Prop :=
  ∃ providerType client model key,
    buildProviderRegistry.build providerType (some url) = .ok client ∧
    (request = client.complete model key ∨ request = client.completeStream model key ∨
      client.embed key = .ok request)

/-- A host that requests are not to go to: an internal address, also one that is mapped into IPv6,
or a metadata hostname, with or without the dot of the root. -/
def Forbidden : Host → Prop
  | .ipv4 ip => ipIsInternal (.v4 ip)
  | .ipv6 ip => ipIsInternal (.v6 ip) ∨ ∃ ip' ∈ ip.toIpv4Mapped, ipIsInternal (.v4 ip')
  | .domain name => isMetadata name ∨ ∃ name', name = name' ++ ['.'] ∧ isMetadata name'

/-- The guard is sound on the base URL: where it is accepted, no request goes to a forbidden
host. -/
def GuardSound (idna : Idna) (url : String) : Prop :=
  Accepted url → ∀ request h, Requests url request → Url.host idna request.url.toList = some h →
    ¬Forbidden h

/-! ### Plain URLs -/

/-- The authority of a URL as it is written. -/
def writtenAuthority (url : String) : List Char :=
  ((stripScheme url).map fun rest ↦ firstPiece isSeparator rest.toList).getD []

/-- The URL has a lower-case scheme and an authority without whitespace or a backslash. -/
def Clean (url : String) : Prop :=
  (stripScheme url).isSome ∧ writtenAuthority url ≠ [] ∧
    ∀ c ∈ writtenAuthority url, c ≠ '\\' ∧ Text.isWhitespace c = false

/-- The text spells the host plainly: an IPv4 address in dotted decimal, an IPv6 address that is
internal itself, a metadata hostname without the dot of the root. -/
def Spells (text : List Char) : Host → Prop
  | .ipv4 ip => IpAddr.parse text = some (.v4 ip)
  | .ipv6 ip => IpAddr.parse text = some (.v6 ip) ∧ ipIsInternal (.v6 ip)
  | .domain _ => isMetadata text

/-- A text that the guard refuses as a host. -/
def Refused (text : List Char) : Prop :=
  text = [] ∨ isMetadata text ∨ (IpAddr.parse text).any ipIsInternal

/-- The host is spelled plainly. A URL that is not clean has another text where the host of a clean
one is; that text is to be refused. -/
def PlainHost (url : String) (h : Host) : Prop :=
  (Clean url → Spells (bareHost (writtenAuthority url)) h) ∧
    (¬Clean url → (stripScheme url).isSome → Refused (bareHost (writtenAuthority url)))

/-! ### The guard and the text it reads -/

theorem accepted_iff {url : String} : Accepted url ↔
    (stripScheme url).isSome ∧ ¬Refused (bareHost (writtenAuthority url)) := by
  have hguard : Accepted url ↔ providerUrlIsAllowed url false = .ok () := by
    rw [Accepted, guardBaseUrl]
    rcases providerUrlIsAllowed url false with reason | ⟨⟩
    · exact ⟨fun h ↦ (by cases h), fun h ↦ (by cases h)⟩
    · exact ⟨fun _ ↦ rfl, fun _ ↦ rfl⟩
  rw [hguard, providerUrlIsAllowed, writtenAuthority]
  rcases stripScheme url with - | rest
  · exact ⟨fun h ↦ (by cases h), fun h ↦ (by cases h.1)⟩
  show (if (bareHost (firstPiece isSeparator rest.toList)).isEmpty then _ else _) = _ ↔
    _ ∧ ¬Refused (bareHost (firstPiece isSeparator rest.toList))
  generalize bareHost (firstPiece isSeparator rest.toList) = text
  rw [Refused, not_or, not_or, Option.isSome_some, eq_self, true_and]
  rcases hempty : text.isEmpty with - | -
  · rw [if_neg Bool.false_ne_true, if_neg Bool.false_ne_true]
    rcases hname : isMetadata text with - | -
    · rw [if_neg Bool.false_ne_true]
      rcases hip : (IpAddr.parse text).any ipIsInternal with - | -
      · rw [if_neg Bool.false_ne_true]
        have hne : text ≠ [] := by
          rintro rfl
          cases hempty
        exact ⟨fun _ ↦ ⟨hne, Bool.false_ne_true, Bool.false_ne_true⟩, fun _ ↦ rfl⟩
      · exact ⟨fun h ↦ (by cases h), fun h ↦ absurd rfl h.2.2⟩
    · exact ⟨fun h ↦ (by cases h), fun h ↦ absurd rfl h.2.1⟩
  · exact ⟨fun h ↦ (by cases h), fun h ↦ absurd (List.isEmpty_iff.1 hempty) h.1⟩

theorem colon_not_mem_of_isMetadata {text : List Char} (h : isMetadata text) :
    ':' ∉ text ∧ '[' ∉ text ∧ text ≠ [] := by
  have hlower : text.map Char.toLower = "metadata".toList ∨
      text.map Char.toLower = "metadata.google.internal".toList := by
    rw [isMetadata, Bool.or_eq_true, decide_eq_true_eq, decide_eq_true_eq] at h
    exact h
  have hmem {c : Char} (hc : c ∈ text) : c.toLower ∈ text.map Char.toLower := List.mem_map_of_mem hc
  refine ⟨fun hc ↦ ?_, fun hc ↦ ?_, ?_⟩
  · have := hmem hc
    rcases hlower with hlower | hlower <;> rw [hlower] at this <;> exact absurd this (by decide)
  · have := hmem hc
    rcases hlower with hlower | hlower <;> rw [hlower] at this <;> exact absurd this (by decide)
  · rintro rfl
    rcases hlower with hlower | hlower <;> exact absurd hlower (by decide)

/-- A metadata hostname is that name to the host parser. -/
theorem parseHost_of_isMetadata (idna : Idna) {text : List Char} (h : isMetadata text) :
    parseHost idna text = some (.domain (text.map Char.toLower)) := by
  rw [isMetadata, Bool.or_eq_true, decide_eq_true_eq, decide_eq_true_eq] at h
  rcases h with h | h
  · rw [h]
    exact parseHost_of_name idna h (by decide) (by decide) (by decide) (by decide)
  · rw [h]
    exact parseHost_of_name idna h (by decide) (by decide) (by decide) (by decide)

/-- An IPv6 literal in brackets is closed by the first bracket. -/
theorem Url.not_mem_of_pieces {room : ℕ} {compressed : Bool} {s : List Char} {ps : List Piece}
    (h : pieces room compressed s = some ps) : ']' ∉ s := by
  induction room generalizing compressed s ps with
  | zero =>
    rcases s with - | ⟨c, s⟩
    · exact List.not_mem_nil
    · cases h
  | succ room ih =>
    rcases s with - | ⟨c, s⟩
    · exact List.not_mem_nil
    · rcases pieces_cons h with ⟨rfl, -, ps', hps', -⟩ | ⟨ip, -, hip, -⟩ |
        ⟨n, rest, ps', -, hnumber, -, hrest⟩
      · rw [List.mem_cons, not_or]
        exact ⟨by decide, ih hps'⟩
      · have hparse : IpAddr.parse (c :: s) = some (.v4 ip) := by
          rw [IpAddr.parse, readIpAddr, hip]
        obtain ⟨d₁, d₂, d₃, d₄, a, b, c', d, htext, h₁, h₂, h₃, h₄, -⟩ := octets_of_parse hparse
        have hbracket : Digits.isDigit 10 ']' = false := by decide
        rw [htext]
        simp only [List.mem_append, List.mem_cons, not_or]
        exact ⟨h₁.not_mem hbracket, by decide, h₂.not_mem hbracket, by decide,
          h₃.not_mem hbracket, by decide, h₄.not_mem hbracket⟩
      · rw [← List.takeWhile_append_dropWhile (p := Digits.isDigit 16) (l := c :: s),
          ← (readNumber_lt hnumber).2, List.mem_append, not_or]
        refine ⟨fun hmem ↦ absurd (List.mem_takeWhile_imp hmem) (by decide), ?_⟩
        rcases hrest with ⟨rfl, -⟩ | ⟨rest', rfl, -, hps'⟩
        · exact List.not_mem_nil
        · rw [List.mem_cons, not_or]
          exact ⟨by decide, ih hps'⟩

theorem Url.not_mem_of_parseIpv6 {s : List Char} {ip : Ipv6Addr} (h : parseIpv6 s = some ip) :
    ']' ∉ s := by
  obtain ⟨ps, hps, -⟩ := Option.bind_eq_some_iff.1 h
  rw [literalPieces.eq_def] at hps
  split at hps
  · obtain ⟨ps', hps', -⟩ := Option.map_eq_some_iff.1 hps
    rw [List.mem_cons, List.mem_cons, not_or, not_or]
    exact ⟨by decide, by decide, not_mem_of_pieces hps'⟩
  · cases hps
  · exact not_mem_of_pieces hps

/-! ### The host of an authority, read twice -/

/-- Inside brackets the host goes on to the first closing one. -/
theorem Url.splitPort_inside (w : List Char) :
    (']' ∉ w ∧ (splitPort true w).1 = w) ∨
    ∃ x y, w = x ++ ']' :: y ∧ ']' ∉ x ∧
      (splitPort true w).1 = x ++ ']' :: (splitPort false y).1 := by
  induction w with
  | nil => exact .inl ⟨List.not_mem_nil, rfl⟩
  | cons c w ih =>
    have hcolon : ¬(c = ':' ∧ true = false) := fun h ↦ by cases h.2
    by_cases hc : c = ']'
    · subst hc
      exact .inr ⟨[], w, rfl, List.not_mem_nil, rfl⟩
    · have hstep : (splitPort true (c :: w)).1 = c :: (splitPort true w).1 := by
        rw [splitPort, if_neg hcolon]
        show c :: (splitPort (if c = '[' then true else if c = ']' then false else true) w).1 = _
        rw [if_neg hc, ite_self]
      rw [hstep]
      rcases ih with ⟨hw, heq⟩ | ⟨x, y, rfl, hx, heq⟩
      · exact .inl ⟨fun hmem ↦ (List.mem_cons.1 hmem).elim (fun h ↦ hc h.symm) hw, by rw [heq]⟩
      · exact .inr ⟨c :: x, y, rfl, fun hmem ↦
          (List.mem_cons.1 hmem).elim (fun h ↦ hc h.symm) hx, by rw [heq]; rfl⟩

/-- Without brackets the host goes on to the first colon. -/
theorem Url.splitPort_outside (w : List Char) :
    (splitPort false w).1 = firstPiece (· = ':') w ∨
      ('[' ∈ (splitPort false w).1 ∧ '[' ∈ firstPiece (· = ':') w) := by
  induction w with
  | nil => exact .inl rfl
  | cons c w ih =>
    by_cases hcolon : c = ':'
    · subst hcolon
      exact .inl rfl
    · have hpiece : firstPiece (· = ':') (c :: w) = c :: firstPiece (· = ':') w :=
        List.takeWhile_cons_of_pos (by simp [hcolon])
      have hstep : (splitPort false (c :: w)).1 =
          c :: (splitPort (if c = '[' then true else if c = ']' then false else false) w).1 := by
        rw [splitPort, if_neg fun h ↦ hcolon h.1]
      rw [hstep, hpiece]
      by_cases hopen : c = '['
      · subst hopen
        exact .inr ⟨List.mem_cons_self, List.mem_cons_self⟩
      · rw [if_neg hopen, ite_self]
        rcases ih with heq | ⟨h₁, h₂⟩
        · exact .inl (by rw [heq])
        · exact .inr ⟨List.mem_cons_of_mem c h₁, List.mem_cons_of_mem c h₂⟩

section Authority

variable {idna : Idna} {authority text : List Char} {h : Host}

/-- Outside brackets no IPv6 address is read. -/
theorem Url.ipv6_of_parseHost {ip : Ipv6Addr} (hhost : parseHost idna text = some (.ipv6 ip)) :
    ∃ rest, text = '[' :: rest := by
  rw [parseHost.eq_def] at hhost
  split at hhost
  · next rest => exact ⟨rest, rfl⟩
  · obtain ⟨ascii, -, hhost⟩ := Option.bind_eq_some_iff.1 hhost
    obtain ⟨-, hhost⟩ := Option.ite_none_left_eq_some.1 hhost
    split at hhost
    · obtain ⟨ip', -, heq⟩ := Option.map_eq_some_iff.1 hhost
      cases heq
    · cases hhost

/-- A host without brackets is refused where it is spelled plainly. -/
theorem refused_iff_spells_text (hhost : parseHost idna text = some h) (hforbidden : Forbidden h)
    (hne : text ≠ []) (hcolon : ':' ∉ text) (hbracket : text.head? ≠ some '[') :
    Refused text ↔ Spells text h := by
  constructor
  · rintro (hnil | hname | hip)
    · exact absurd hnil hne
    · rw [parseHost_of_isMetadata idna hname] at hhost
      obtain rfl := Option.some_inj.1 hhost
      exact hname
    · rcases hparse : IpAddr.parse text with - | (ip | ip)
      · rw [hparse] at hip
        cases hip
      · rw [parseHost_of_parse idna hparse] at hhost
        obtain rfl := Option.some_inj.1 hhost
        exact hparse
      · exact absurd (colon_of_parse_v6 hparse) hcolon
  · intro hspells
    rcases h with name | ip | ip
    · exact .inr (.inl hspells)
    · refine .inr (.inr ?_)
      rw [show IpAddr.parse text = some (.v4 ip) from hspells]
      exact hforbidden
    · obtain ⟨rest, rfl⟩ := ipv6_of_parseHost hhost
      exact absurd rfl hbracket

/-- A text with a bracket in it is neither refused nor does it spell a host. -/
theorem not_refused_of_bracket (hmem : '[' ∈ text) (hcolon : ':' ∉ text) :
    ¬Refused text ∧ ¬Spells text h := by
  have hparse (ip : IpAddr) : IpAddr.parse text ≠ some ip := by
    intro hparse
    rcases ip with ip | ip
    · obtain ⟨d₁, d₂, d₃, d₄, a, b, c, d, htext, h₁, h₂, h₃, h₄, -⟩ := octets_of_parse hparse
      have hdigit : Digits.isDigit 10 '[' = false := by decide
      rw [htext] at hmem
      simp only [List.mem_append, List.mem_cons] at hmem
      rcases hmem with hmem | hmem | hmem | hmem | hmem | hmem | hmem
      · exact h₁.not_mem hdigit hmem
      · exact absurd hmem (by decide)
      · exact h₂.not_mem hdigit hmem
      · exact absurd hmem (by decide)
      · exact h₃.not_mem hdigit hmem
      · exact absurd hmem (by decide)
      · exact h₄.not_mem hdigit hmem
    · exact hcolon (colon_of_parse_v6 hparse)
  have hname : ¬isMetadata text = true := fun hname ↦ (colon_not_mem_of_isMetadata hname).2.1 hmem
  constructor
  · rintro (rfl | h | h)
    · cases hmem
    · exact hname h
    · rcases hip : IpAddr.parse text with - | ip
      · rw [hip] at h
        cases h
      · exact hparse ip hip
  · intro hspells
    rcases h with name | ip | ip
    · exact hname hspells
    · exact hparse _ hspells
    · exact hparse _ hspells.1

theorem dropPort_of_ne {hostPort : List Char} (hbracket : hostPort.head? ≠ some '[') :
    dropPort hostPort = firstPiece (· = ':') hostPort := by
  rw [dropPort.eq_def]
  split
  · exact absurd rfl hbracket
  · rfl

theorem dropPort_bracket {x y : List Char} (hx : ']' ∉ x) :
    dropPort ('[' :: (x ++ ']' :: y)) = x := by
  have hall : ∀ c ∈ x, (!decide (c = ']')) = true := by
    intro c hc
    rw [Bool.not_eq_true', decide_eq_false_iff_not]
    rintro rfl
    exact hx hc
  show (x ++ ']' :: y).takeWhile (fun c ↦ !decide (c = ']')) = x
  rw [List.takeWhile_append_of_pos hall, List.takeWhile_cons_of_neg (by simp), List.append_nil]

/-- **One authority, two readings.** Where the URL parser finds a forbidden host, the guard refuses
the text exactly if it spells that host plainly. -/
theorem refused_iff_spells (hhost : authorityHost idna authority = some h)
    (hforbidden : Forbidden h) :
    Refused (bareHost authority) ↔ Spells (bareHost authority) h := by
  rw [bareHost]
  obtain ⟨hport, hhost⟩ := Option.ite_none_left_eq_some.1 hhost
  have hhost : parseHost idna (splitPort false (lastPiece (· = '@') authority)).1 = some h := hhost
  have hne : (splitPort false (lastPiece (· = '@') authority)).1 ≠ [] := by
    intro hnil
    refine hport ?_
    rw [Bool.or_eq_true]
    exact .inl (List.isEmpty_iff.2 hnil)
  generalize lastPiece (· = '@') authority = hostPort at hhost hne ⊢
  by_cases hbracket : hostPort.head? = some '['
  · -- both readings end at the first closing bracket
    obtain ⟨w, rfl⟩ : ∃ w, hostPort = '[' :: w := by
      rcases hostPort with - | ⟨c, w⟩
      · cases hbracket
      · exact ⟨w, by rw [Option.some_inj.1 hbracket]⟩
    have hhost : (if (splitPort true w).1.getLast? = some ']' then
        (parseIpv6 (splitPort true w).1.dropLast).map Host.ipv6 else none) = some h := hhost
    obtain ⟨hlast, hhost⟩ := Option.ite_none_right_eq_some.1 hhost
    obtain ⟨ip, hip, rfl⟩ := Option.map_eq_some_iff.1 hhost
    rcases splitPort_inside w with ⟨hw, heq⟩ | ⟨x, y, rfl, hx, heq⟩
    · rw [heq] at hlast
      exact absurd (List.mem_of_getLast? hlast) hw
    rw [dropPort_bracket hx]
    have hinner : (splitPort true (x ++ ']' :: y)).1.dropLast = x := by
      have hno := not_mem_of_parseIpv6 hip
      rw [heq] at hno ⊢
      rcases hrest : (splitPort false y).1 with - | ⟨c, rest⟩
      · rw [List.dropLast_concat]
      · rw [hrest, List.dropLast_append_of_ne_nil (List.cons_ne_nil _ _),
          List.dropLast_cons_of_ne_nil (List.cons_ne_nil _ _)] at hno
        exact absurd (List.mem_append_right x List.mem_cons_self) hno
    rw [hinner] at hip
    have hparse := parse_of_parseIpv6 hip
    have hcolon := colon_of_parse_v6 hparse
    constructor
    · rintro (rfl | hname | hinternal)
      · cases hcolon
      · exact absurd hcolon (colon_not_mem_of_isMetadata hname).1
      · rw [hparse] at hinternal
        exact ⟨hparse, hinternal⟩
    · rintro ⟨-, hinternal⟩
      refine .inr (.inr ?_)
      rw [hparse]
      exact hinternal
  · rw [dropPort_of_ne hbracket]
    have hcolon : ':' ∉ firstPiece (· = ':') hostPort := by
      intro hmem
      have := List.mem_takeWhile_imp hmem
      simp at this
    rcases splitPort_outside hostPort with heq | ⟨-, hmem⟩
    · rw [heq] at hhost hne
      refine refused_iff_spells_text hhost hforbidden hne hcolon fun hhead ↦ hbracket ?_
      obtain ⟨tail, htail⟩ := List.takeWhile_prefix (l := hostPort) fun c ↦ !decide (c = ':')
      rw [← htail]
      rw [firstPiece] at hhead hne
      rw [List.head?_append_of_ne_nil _ hne]
      exact hhead
    · obtain ⟨hno, hno'⟩ := not_refused_of_bracket (h := h) hmem hcolon
      exact ⟨fun hyes ↦ absurd hyes hno, fun hyes ↦ absurd hyes hno'⟩

end Authority

/-! ### Clean URLs are read alike -/

/-- What is dropped from the end stops at a character that is not dropped. -/
theorem Text.rdropWhile_append_cons {p : Char → Bool} {c : Char} (hc : p c = false)
    (x y : List Char) : (x ++ c :: y).rdropWhile p = x ++ c :: y.rdropWhile p := by
  rw [List.rdropWhile, List.reverse_append, List.reverse_cons, List.append_assoc,
    List.singleton_append, List.dropWhile_append, List.rdropWhile]
  split
  · next hempty =>
    rw [List.isEmpty_iff.1 hempty, List.dropWhile_cons_of_neg (by simp [hc]), List.reverse_cons,
      List.reverse_reverse, List.reverse_nil]
  · rw [List.reverse_append, List.reverse_cons, List.reverse_reverse, List.append_assoc,
      List.singleton_append]

/-- The text goes on after its start with a separator, or ends there. -/
def GoesOn (start l : List Char) : Prop :=
  ∃ t, l = start ++ t ∧ ∀ c ∈ t.head?, isSeparator c

namespace GoesOn

variable {start l : List Char}

theorem rdropWhile (h : GoesOn start l) {p : Char → Bool} {init : List Char} {last : Char}
    (hstart : start = init ++ [last]) (hlast : p last = false) : GoesOn start (l.rdropWhile p) := by
  obtain ⟨t, rfl, ht⟩ := h
  refine ⟨t.rdropWhile p, ?_, fun c hc ↦ ht c ?_⟩
  · rw [hstart, List.append_assoc, List.append_assoc, List.singleton_append, List.singleton_append,
      Text.rdropWhile_append_cons hlast]
  · -- what is left begins as before
    obtain ⟨dropped, hdropped⟩ := List.rdropWhile_prefix p (l := t)
    rw [← hdropped]
    rcases hleft : t.rdropWhile p with - | ⟨c', left⟩
    · rw [hleft] at hc
      cases hc
    · rw [hleft] at hc
      exact hc

end GoesOn

section Clean

variable {url : String} {authority : List Char}

/-- A clean URL, taken apart. -/
theorem Clean.goesOn (h : Clean url) : ∃ scheme ∈ ["http://".toList, "https://".toList],
    GoesOn (scheme ++ writtenAuthority url) url.toList ∧
      ∀ c ∈ writtenAuthority url, isEnd c = false ∧ Text.isWhitespace c = false := by
  obtain ⟨hscheme, -, hplain⟩ := h
  obtain ⟨rest, hrest⟩ := Option.isSome_iff_exists.1 hscheme
  have hurl : ∃ scheme ∈ ["http://".toList, "https://".toList],
      url.toList = scheme ++ rest.toList := by
    rw [stripScheme, Option.or_eq_some_iff] at hrest
    rcases hrest with hrest | ⟨-, hrest⟩
    · rw [Text.stripPrefix_eq_some.1 hrest, String.toList_append]
      exact ⟨_, List.mem_cons_self, rfl⟩
    · rw [Text.stripPrefix_eq_some.1 hrest, String.toList_append]
      exact ⟨_, List.mem_cons_of_mem _ List.mem_cons_self, rfl⟩
  have hwritten : writtenAuthority url = firstPiece isSeparator rest.toList := by
    rw [writtenAuthority, hrest]
    rfl
  obtain ⟨scheme, hmem, htext⟩ := hurl
  refine ⟨scheme, hmem, ⟨rest.toList.dropWhile (!isSeparator ·), ?_, fun c hc ↦ ?_⟩,
    fun c hc ↦ ⟨?_, (hplain c hc).2⟩⟩
  · rw [htext, hwritten, firstPiece, List.append_assoc, List.takeWhile_append_dropWhile]
  · rcases hdrop : rest.toList.dropWhile (!isSeparator ·) with - | ⟨c', tail⟩
    · rw [hdrop] at hc
      cases hc
    · rw [hdrop] at hc
      obtain rfl := Option.some_inj.1 hc
      have hhead : (rest.toList.dropWhile (!isSeparator ·)).head? = some c' := by rw [hdrop]; rfl
      have := List.head?_dropWhile_not (fun c ↦ !isSeparator c) rest.toList
      rw [hhead] at this
      simpa using this
  · have hseparator : isSeparator c = false := by
      rw [hwritten] at hc
      simpa using List.mem_takeWhile_imp hc
    rw [isSeparator, Bool.or_eq_false_iff, Bool.or_eq_false_iff] at hseparator
    rw [isEnd, isSlash, hseparator.1.1, hseparator.1.2, hseparator.2,
      decide_eq_false (hplain c hc).1]
    rfl

/-- The URL parser finds the authority as it is written, behind either scheme. -/
theorem Url.host_of_goesOn (idna : Idna) {scheme l : List Char} {c : Char}
    (hscheme : scheme ∈ ["http://".toList, "https://".toList]) (hne : authority ≠ [])
    (hplain : ∀ c ∈ authority, isEnd c = false ∧ Text.isWhitespace c = false)
    (hc : isSeparator c) : Url.host idna (scheme ++ authority ++ c :: l) =
      authorityHost idna authority := by
  have hend : isEnd c ∧ isControlOrSpace c = false ∧ isTabOrNewline c = false := by
    rw [isSeparator, Bool.or_eq_true, Bool.or_eq_true, decide_eq_true_eq, decide_eq_true_eq,
      decide_eq_true_eq] at hc
    rcases hc with (rfl | rfl) | rfl <;> decide
  have htab {x : Char} (hx : Text.isWhitespace x = false) : isTabOrNewline x = false := by
    rcases htab : isTabOrNewline x with - | -
    · rfl
    · rw [isTabOrNewline, Bool.or_eq_true, Bool.or_eq_true, decide_eq_true_eq, decide_eq_true_eq,
        decide_eq_true_eq] at htab
      rcases htab with (rfl | rfl) | rfl <;> exact absurd hx (by decide)
  have hkeep : (scheme ++ authority).filter (!isTabOrNewline ·) = scheme ++ authority := by
    rw [List.filter_eq_self]
    intro x hx
    rcases List.mem_append.1 hx with hx | hx
    · have hall : scheme.all (!isTabOrNewline ·) := by
        simp only [List.mem_cons, List.not_mem_nil, or_false] at hscheme
        rcases hscheme with rfl | rfl <;> decide
      exact List.all_eq_true.1 hall x hx
    · rw [htab (hplain x hx).2]
      rfl
  have hstripped : ∃ l', stripped (scheme ++ authority ++ c :: l) =
      scheme ++ authority ++ c :: l' := by
    refine ⟨(l.rdropWhile isControlOrSpace).filter (!isTabOrNewline ·), ?_⟩
    have hfront : (scheme ++ authority ++ c :: l).dropWhile isControlOrSpace =
        scheme ++ authority ++ c :: l := by
      simp only [List.mem_cons, List.not_mem_nil, or_false] at hscheme
      rcases hscheme with rfl | rfl <;> rfl
    rw [stripped, hfront, Text.rdropWhile_append_cons hend.2.1, List.filter_append, hkeep,
      List.filter_cons_of_pos (by rw [hend.2.2]; rfl)]
  obtain ⟨l', hl'⟩ := hstripped
  have hscheme' : Url.afterScheme (scheme ++ authority ++ c :: l') =
      some ('/' :: '/' :: (authority ++ c :: l')) := by
    rw [List.append_assoc]
    simp only [List.mem_cons, List.not_mem_nil, or_false] at hscheme
    rcases hscheme with rfl | rfl <;> rfl
  have hslash : ('/' :: '/' :: (authority ++ c :: l')).dropWhile isSlash =
      authority ++ c :: l' := by
    rw [List.dropWhile_cons_of_pos (by decide), List.dropWhile_cons_of_pos (by decide)]
    rcases authority with - | ⟨x, authority⟩
    · exact absurd rfl hne
    · have hx := (hplain x List.mem_cons_self).1
      rw [isEnd, Bool.or_eq_false_iff, Bool.or_eq_false_iff] at hx
      exact List.dropWhile_cons_of_neg (by rw [hx.1.1]; exact Bool.false_ne_true)
  rw [Url.host, hl', hscheme']
  show authorityHost idna ((('/' :: '/' :: (authority ++ c :: l')).dropWhile isSlash).takeWhile
    (!isEnd ·)) = _
  rw [hslash, List.takeWhile_append_of_pos fun x hx ↦ by rw [(hplain x hx).1]; rfl,
    List.takeWhile_cons_of_neg (by rw [hend.1]; decide), List.append_nil]

/-- A path is appended to what goes on. -/
theorem GoesOn.host (idna : Idna) {scheme l path : List Char}
    (hscheme : scheme ∈ ["http://".toList, "https://".toList]) (hne : authority ≠ [])
    (hplain : ∀ c ∈ authority, isEnd c = false ∧ Text.isWhitespace c = false)
    (h : GoesOn (scheme ++ authority) l) :
    Url.host idna (l ++ '/' :: path) = authorityHost idna authority := by
  obtain ⟨t, rfl, ht⟩ := h
  rcases t with - | ⟨c, t⟩
  · rw [List.append_nil]
    exact host_of_goesOn idna hscheme hne hplain rfl
  · rw [List.append_assoc (scheme ++ authority)]
    exact host_of_goesOn idna hscheme hne hplain (ht c rfl)

end Clean

/-! ### The requests of a client -/

/-- A path from the root. -/
def Rooted (path : String) : Prop := path.toList.head? = some '/'

instance (path : String) : Decidable (Rooted path) :=
  inferInstanceAs (Decidable (path.toList.head? = some '/'))

theorem Rooted.append {path : String} (h : Rooted path) (rest : String) :
    Rooted (path ++ rest) := by
  rw [Rooted, String.toList_append, List.head?_append, h]
  rfl

/-- The path that the client was configured with is one from the root. -/
def ProviderClient.Rooted : ProviderClient → Prop
  | .compatible config => Himadri.Rooted config.chatCompletionsPath
  | _ => True

theorem rooted_of_build {providerType : String} {baseUrl : Option String} {client : ProviderClient}
    (h : buildProviderRegistry.build providerType baseUrl = .ok client) : client.Rooted := by
  have hpresets : ∀ p ∈ presets, p.2.chatCompletionsPath = "/chat/completions" := by decide
  have hall := MapProviderRegistry.forall_builders
    (P := fun _ builder ↦ ∀ baseUrl client, builder baseUrl = .ok client → client.Rooted)
    (fun baseUrl client hclient ↦ by obtain rfl := Except.ok.inj hclient; trivial)
    (fun baseUrl client hclient ↦ by obtain rfl := Except.ok.inj hclient; trivial)
    (fun p hp baseUrl client hclient ↦ by
      obtain rfl := Except.ok.inj hclient
      show Himadri.Rooted p.2.chatCompletionsPath
      rw [hpresets p hp]
      decide)
  have h : MapProviderRegistry.build _ providerType baseUrl = .ok client := h
  rw [MapProviderRegistry.build] at h
  split at h
  · next builder hget => exact hall providerType builder hget _ client h
  · split at h
    · obtain rfl := Except.ok.inj h
      show Himadri.Rooted "/chat/completions"
      decide
    · cases h

variable {url : String} {request : UpstreamRequest}

/-- The URL of a request is the trimmed base URL, perhaps without slashes at its end, and a path. -/
theorem Requests.url_eq (h : Requests url request) {base : String}
    (hbase : MapProviderRegistry.normalizeBaseUrl (some url) = some base) :
    ∃ path, request.url.toList = base.toList ++ '/' :: path ∨
      request.url.toList = base.toList.rdropWhile (· == '/') ++ '/' :: path := by
  obtain ⟨providerType, client, model, key, hbuild, hrequest⟩ := h
  have hrooted := rooted_of_build hbuild
  have hclient : client.baseUrl = base := by
    have hmatch := (honest_buildProviderRegistry.build hbuild).2
    rwa [hbase] at hmatch
  -- it is enough that the path of the request is one from the root
  have hpath (hroot : Rooted request.path) : ∃ path, request.path.toList = '/' :: path := by
    rcases hlist : request.path.toList with - | ⟨c, path⟩
    · rw [Rooted, hlist] at hroot
      cases hroot
    · rw [Rooted, hlist] at hroot
      exact ⟨path, by rw [Option.some_inj.1 hroot]⟩
  rw [UpstreamRequest.url, String.toList_append, ← hclient]
  rcases hrequest with rfl | rfl | hembed
  · have hroot : Rooted (client.complete model key).path := by
      rcases client with config | baseUrl | baseUrl
      · exact hrooted
      · show Rooted "/messages"
        decide
      · exact Rooted.append (Rooted.append (by decide) model) ":generateContent"
    obtain ⟨path, hpath⟩ := hpath hroot
    rw [ProviderClient.complete_baseUrl, hpath]
    exact ⟨path, .inl rfl⟩
  · have hroot : Rooted (client.completeStream model key).path := by
      rcases client with config | baseUrl | baseUrl
      · exact hrooted
      · show Rooted "/messages"
        decide
      · exact Rooted.append (Rooted.append (by decide) model) ":streamGenerateContent?alt=sse"
    obtain ⟨path, hpath⟩ := hpath hroot
    rw [ProviderClient.completeStream_baseUrl, hpath]
    exact ⟨path, .inl rfl⟩
  · obtain ⟨-, rfl⟩ := ProviderClient.embed_eq_ok_iff.1 hembed
    obtain ⟨path, hpath⟩ := hpath (show Rooted "/embeddings" by decide)
    rw [hpath]
    refine ⟨path, .inr ?_⟩
    show (Text.trimEndMatches '/' client.baseUrl).toList ++ '/' :: path = _
    rw [Text.trimEndMatches, String.toList_ofList]

/-- The requests of a clean base URL go to the host of its authority as it is written. -/
theorem Clean.host_request (idna : Idna) (hclean : Clean url) (h : Requests url request) :
    Url.host idna request.url.toList = authorityHost idna (writtenAuthority url) := by
  obtain ⟨scheme, hscheme, hgoes, hplain⟩ := hclean.goesOn
  have hne := hclean.2.1
  obtain ⟨init, last, hauthority⟩ : ∃ init last, writtenAuthority url = init ++ [last] :=
    ⟨_, _, (List.dropLast_append_getLast hne).symm⟩
  have hstart : scheme ++ writtenAuthority url = scheme ++ init ++ [last] := by
    rw [hauthority, List.append_assoc]
  have hlast := hplain last (by rw [hauthority]; exact List.mem_append_right _ List.mem_cons_self)
  -- neither trimming reaches the authority
  have htrim : GoesOn (scheme ++ writtenAuthority url) (Text.trim url).toList := by
    have hfront : url.toList.dropWhile Text.isWhitespace = url.toList := by
      obtain ⟨t, ht, -⟩ := hgoes
      rw [ht]
      simp only [List.mem_cons, List.not_mem_nil, or_false] at hscheme
      rcases hscheme with rfl | rfl <;> rfl
    rw [Text.trim, String.toList_ofList, hfront]
    exact hgoes.rdropWhile hstart hlast.2
  have hslash : (last == '/') = false := by
    have hend := hlast.1
    rw [isEnd, isSlash, Bool.or_eq_false_iff, Bool.or_eq_false_iff, Bool.or_eq_false_iff] at hend
    exact beq_eq_false_iff_ne.2 (of_decide_eq_false hend.1.1.1)
  have hbase : MapProviderRegistry.normalizeBaseUrl (some url) = some (Text.trim url) := by
    have hnonempty : (Text.trim url).isEmpty = false := by
      rcases hempty : (Text.trim url).isEmpty with - | -
      · rfl
      · obtain ⟨t, ht, -⟩ := htrim
        rw [String.isEmpty_iff.1 hempty] at ht
        have hnil := (List.append_eq_nil_iff.1 ht.symm).1
        exact absurd (List.append_eq_nil_iff.1 hnil).2 hne
    rw [MapProviderRegistry.normalizeBaseUrl, Option.map_some, Option.filter_some, hnonempty]
    rfl
  obtain ⟨path, hurl | hurl⟩ := h.url_eq hbase
  · rw [hurl]
    exact htrim.host idna hscheme hne hplain
  · rw [hurl]
    exact (htrim.rdropWhile hstart hslash).host idna hscheme hne hplain

/-- **Where the guard is sound.** No request goes to a forbidden host exactly if the base URL spells
every forbidden host that its requests go to plainly. -/
theorem guard_sound_iff (idna : Idna) (url : String) : GuardSound idna url ↔
    ∀ request h, Requests url request → Url.host idna request.url.toList = some h → Forbidden h →
      PlainHost url h := by
  constructor
  · intro hsound request h hrequest hhost hforbidden
    have hrefused : (stripScheme url).isSome → Refused (bareHost (writtenAuthority url)) := by
      intro hscheme
      by_contra hno
      exact hsound (accepted_iff.2 ⟨hscheme, hno⟩) request h hrequest hhost hforbidden
    refine ⟨fun hclean ↦ ?_, fun _ ↦ hrefused⟩
    rw [hclean.host_request idna hrequest] at hhost
    exact (refused_iff_spells hhost hforbidden).1 (hrefused hclean.1)
  · intro hplain haccepted request h hrequest hhost hforbidden
    obtain ⟨hscheme, hno⟩ := accepted_iff.1 haccepted
    obtain ⟨hspells, hrefused⟩ := hplain request h hrequest hhost hforbidden
    refine hno ?_
    by_cases hclean : Clean url
    · have hhost' := hhost
      rw [hclean.host_request idna hrequest] at hhost'
      exact (refused_iff_spells hhost' hforbidden).2 (hspells hclean)
    · exact hrefused hclean hscheme

/-- Processing that takes plain ASCII only. -/
def Url.Idna.plain : Idna where
  toAscii domain :=
    if domain ≠ [] ∧ domain.all (decide <| ·.toNat < 128) ∧ hasPunycode domain = false then
      some (domain.map Char.toLower)
    else none
  toAscii_ascii _ hne hascii hpunycode :=
    if_pos ⟨hne, List.all_eq_true.2 fun c hc ↦ decide_eq_true (hascii c hc), hpunycode⟩

/-- A shorthand address is no address to the guard, and the client requests `127.0.0.1`. -/
theorem guard_misses_shorthand : ¬GuardSound .plain "http://127.1" := by
  intro hsound
  have hrequest : Requests "http://127.1" ⟨"http://127.1", "/chat/completions", "key"⟩ :=
    ⟨"vllm", .bearer "vllm" "http://127.1", "m", "key", by decide +kernel, .inl rfl⟩
  have haccepted : guardBaseUrl false (some "http://127.1") = .ok () := by decide +kernel
  have hforbidden : ipIsInternal (.v4 ⟨127, 0, 0, 1⟩) = true := by decide
  exact hsound haccepted _ (.ipv4 ⟨127, 0, 0, 1⟩) hrequest (by decide +kernel) hforbidden

end Himadri
