import Himadri.Core.Utf8
import Himadri.Gateway.Dispatch
import Himadri.Provider.Registry
import Himadri.Server.RemoteIp

/-!
# The passthrough proxy

`passthrough` takes a request apart for `Gateway::proxy`, which rebuilds it for the first target and
the response of the upstream for the client. The HTTP client, and what it adds or follows by itself,
is given as a function.

The query is never handed on, the path is written after the base URL also where that ends in `/v1`
already, and of the response headers of one name only the last is kept. In everything else the proxy
is transparent (`passthrough_transparent_iff`).
-/

namespace Himadri

/-- A request to an upstream. -/
structure HttpRequest where
  method : String
  url : String
  headers : HeaderMap
  body : List UInt8

/-- A response. -/
structure HttpResponse where
  status : ℕ
  headers : HeaderMap
  body : List UInt8

/-- A request that reaches `passthrough`. A path ends before the first `?`. -/
structure ProxyCall where
  method : String
  path : String
  path_mem : '?' ∉ path.toList
  query : Option String
  headers : HeaderMap
  body : List UInt8

/-- `PROXY_CLIENT`. -/
structure ProxyClient where
  /-- `reqwest::Method::from_str(..).is_ok()`. -/
  isMethod : String → Bool
  /-- The error of a request with an invalid header. -/
  builderError : String
  send : HttpRequest → Except String HttpResponse

/-- `MAX_PROXY_BODY_BYTES`. -/
def maxProxyBodyBytes : ℕ := 10 * 1024 * 1024

/-- What the client is answered instead of an upstream's response. -/
inductive PassthroughError
  | tooLarge
  | gateway (e : GatewayError)

/-- What passes between the proxy and the upstream, and what the client is answered. -/
structure ProxyExchange where
  /-- The base URL, without slashes at its end. -/
  root : String
  sent : HttpRequest
  received : HttpResponse
  returned : HttpResponse

/-- The headers that are copied. -/
def isCopied (name : String) : Bool :=
  !(name == "authorization" || name == "host" || name == "content-length")

/-- A byte that a header value may have. -/
def isHeaderByte (b : UInt8) : Bool := (32 ≤ b && b != 127) || b == 9

/-- The `authorization` line, where there is a key; `none` where it is no header value. -/
def authorizationLines (key : String) : Option HeaderMap :=
  if key.isEmpty then some []
  else
    let value := Utf8.bytes ("Bearer " ++ key)
    if value.all isHeaderByte then some [("authorization", value)] else none

/-- The request of `proxy`. -/
def proxyRequest (call : ProxyCall) (target : UpstreamRequest) : Option HttpRequest :=
  (authorizationLines target.key).map fun authorization ↦
    { method := call.method
      url := target.baseUrl ++ target.path
      headers := call.headers.filter (fun h ↦ isCopied h.1) ++ authorization
      body := call.body }

/-- `HeaderMap::insert`: one value under the name. -/
def HeaderMap.insert (headers : HeaderMap) (line : String × HeaderValue) : HeaderMap :=
  headers.filter (fun h ↦ h.1 != line.1) ++ [line]

/-- The headers that are inserted into the response. -/
def isInserted (name : String) : Bool := !(name == "transfer-encoding" || name == "connection")

/-- The response of `proxy`. -/
def proxyResponse (response : HttpResponse) : HttpResponse :=
  { response with
    headers := (response.headers.filter fun h ↦ isInserted h.1).foldl HeaderMap.insert [] }

/-- `passthrough`. -/
def passthrough (client : ProxyClient) (g : Gateway) (env : String → Option String)
    (call : ProxyCall) : Except PassthroughError ProxyExchange :=
  if maxProxyBodyBytes < call.body.length then .error .tooLarge
  else
    match g.proxy env client.isMethod call.method call.path with
    | .error e => .error (.gateway e)
    | .ok (_, target) =>
      match proxyRequest call target with
      | none => .error (.gateway (.provider ("Proxy request failed: " ++ client.builderError)))
      | some sent =>
        match client.send sent with
        | .error e => .error (.gateway (.provider ("Proxy request failed: " ++ e)))
        | .ok received => .ok ⟨target.baseUrl, sent, received, proxyResponse received⟩

/-! ### A transparent proxy -/

/-- The headers that are meant for one connection. -/
def hopByHop : List String :=
  ["connection", "keep-alive", "proxy-authenticate", "proxy-authorization", "te", "trailer",
    "transfer-encoding", "upgrade"]

/-- The headers of a request that are the client's. -/
def isRequestHeader (name : String) : Bool := isCopied name && !hopByHop.contains name

/-- The headers of a response that are the upstream's. -/
def isResponseHeader (name : String) : Bool := !hopByHop.contains name

/-- The headers of some names. -/
def HeaderMap.only (p : String → Bool) (headers : HeaderMap) : HeaderMap :=
  headers.filter fun h ↦ p h.1

/-- The path below an API root that itself may end in `/v1`, with the query. -/
def apiUrl (root path : String) (query : Option String) : String :=
  root ++ (if Text.endsWith root "/v1" then (Text.stripPrefix path "/v1").getD path else path) ++
    query.elim "" ("?" ++ ·)

/-- The upstream gets the client's request, and the client the upstream's response. -/
structure ProxyExchange.Transparent (x : ProxyExchange) (call : ProxyCall) : Prop where
  method : x.sent.method = call.method
  url : x.sent.url = apiUrl x.root call.path call.query
  headers : (x.sent.headers.only isRequestHeader).Perm (call.headers.only isRequestHeader)
  body : x.sent.body = call.body
  status : x.returned.status = x.received.status
  responseHeaders :
    (x.returned.headers.only isResponseHeader).Perm (x.received.headers.only isResponseHeader)
  responseBody : x.returned.body = x.received.body

namespace HeaderMap

variable {headers : HeaderMap}

theorem only_append (p : String → Bool) (a b : HeaderMap) :
    only p (a ++ b) = only p a ++ only p b := List.filter_append ..

theorem only_cons_of_pos {p : String → Bool} {line : String × HeaderValue} (h : p line.1)
    (headers : HeaderMap) : only p (line :: headers) = line :: only p headers :=
  List.filter_cons_of_pos (p := fun h : String × HeaderValue ↦ p h.1) h

theorem only_cons_of_neg {p : String → Bool} {line : String × HeaderValue} (h : ¬p line.1)
    (headers : HeaderMap) : only p (line :: headers) = only p headers :=
  List.filter_cons_of_neg (p := fun h : String × HeaderValue ↦ p h.1) h

theorem only_only_of_imp {p q : String → Bool} (h : ∀ name, p name → q name) (headers : HeaderMap) :
    only p (only q headers) = only p headers := by
  rw [only, only, only, List.filter_filter]
  refine List.filter_congr fun line _ ↦ ?_
  by_cases hp : p line.1
  · rw [hp, h _ hp, Bool.and_self]
  · rw [Bool.not_eq_true] at hp
    rw [hp, Bool.false_and]

/-- Inserting lines one by one keeps the names apart. -/
theorem nodup_foldl_insert (lines : HeaderMap) (h : (headers.map Prod.fst).Nodup) :
    ((lines.foldl insert headers).map Prod.fst).Nodup := by
  induction lines generalizing headers with
  | nil => exact h
  | cons line lines ih =>
    refine ih ?_
    rw [insert, List.map_append, List.map_singleton, List.nodup_append]
    refine ⟨(h.sublist (List.filter_sublist.map _)), List.nodup_singleton _, fun n hn n' hn' heq ↦ ?_⟩
    obtain ⟨other, hother, rfl⟩ := List.mem_map.1 hn
    have hne := (List.mem_filter.1 hother).2
    rw [bne_iff_ne] at hne
    exact hne (heq.trans (List.mem_singleton.1 hn'))

theorem only_insert_of_pos {p : String → Bool} {line : String × HeaderValue} (h : p line.1) :
    only p (insert headers line) = insert (only p headers) line := by
  rw [insert, insert, only_append, only_cons_of_pos h]
  show List.filter _ (List.filter _ headers) ++ _ = List.filter _ (List.filter _ headers) ++ _
  rw [List.filter_filter, List.filter_filter]
  refine congrArg (· ++ [line]) (List.filter_congr fun line' _ ↦ ?_)
  exact Bool.and_comm ..

theorem only_insert_of_neg {p : String → Bool} {line : String × HeaderValue} (h : ¬p line.1) :
    only p (insert headers line) = only p headers := by
  rw [insert, only_append, only_cons_of_neg h]
  show List.filter _ (List.filter _ headers) ++ [] = List.filter _ headers
  rw [List.filter_filter, List.append_nil]
  refine List.filter_congr fun line' _ ↦ ?_
  by_cases hp : p line'.1
  · have hne : line'.1 ≠ line.1 := fun heq ↦ h (heq ▸ hp)
    rw [hp, bne_iff_ne.2 hne, Bool.and_self]
  · rw [Bool.not_eq_true] at hp
    rw [hp, Bool.false_and]

/-- Lines of other names do not matter for those of some names. -/
theorem only_foldl_insert (p : String → Bool) (lines : HeaderMap) :
    only p (lines.foldl insert headers) = (only p lines).foldl insert (only p headers) := by
  induction lines generalizing headers with
  | nil => rfl
  | cons line lines ih =>
    rw [List.foldl_cons, ih]
    by_cases hp : p line.1
    · rw [only_insert_of_pos hp, only_cons_of_pos hp]
      rfl
    · rw [only_insert_of_neg hp, only_cons_of_neg hp]

/-- Lines of different names are all kept. -/
theorem foldl_insert_of_nodup (lines : HeaderMap) (h : ((headers ++ lines).map Prod.fst).Nodup) :
    lines.foldl insert headers = headers ++ lines := by
  induction lines generalizing headers with
  | nil => exact (List.append_nil headers).symm
  | cons line lines ih =>
    have hnew : ∀ line' ∈ headers, line'.1 ≠ line.1 := fun line' hmem heq ↦ by
      rw [List.map_append, List.nodup_append] at h
      exact h.2.2 line'.1 (List.mem_map_of_mem hmem) line.1 List.mem_cons_self heq
    have hinsert : insert headers line = headers ++ [line] := by
      rw [insert, List.filter_eq_self.2 fun line' hmem ↦ bne_iff_ne.2 (hnew line' hmem)]
    rw [List.foldl_cons, hinsert, ih (by rwa [List.append_assoc]), List.append_assoc]
    rfl

end HeaderMap

/-! ### What the proxy keeps -/

section Kept

variable {call : ProxyCall} {target : UpstreamRequest} {sent : HttpRequest}

/-- The headers of a request go on. -/
theorem only_headers_proxyRequest (h : proxyRequest call target = some sent) :
    sent.headers.only isRequestHeader = call.headers.only isRequestHeader := by
  obtain ⟨authorization, hlines, rfl⟩ := Option.map_eq_some_iff.1 h
  have hown : HeaderMap.only isRequestHeader authorization = [] := by
    rw [authorizationLines] at hlines
    split at hlines
    · obtain rfl := Option.some_inj.1 hlines
      rfl
    · obtain ⟨-, heq⟩ := Option.ite_none_right_eq_some.1 hlines
      obtain rfl := Option.some_inj.1 heq
      rfl
  rw [HeaderMap.only_append, hown, List.append_nil]
  exact HeaderMap.only_only_of_imp (fun name hname ↦ (Bool.and_eq_true_iff.1 hname).1) _

/-- The headers of a response go on exactly where no name is repeated. -/
theorem headers_proxyResponse_iff (response : HttpResponse) :
    ((proxyResponse response).headers.only isResponseHeader).Perm
        (response.headers.only isResponseHeader) ↔
      ((response.headers.only isResponseHeader).map Prod.fst).Nodup := by
  have himp (name : String) (h : isResponseHeader name) : isInserted name := by
    rw [isResponseHeader, Bool.not_eq_true'] at h
    rw [isInserted, Bool.not_eq_true', Bool.or_eq_false_iff, beq_eq_false_iff_ne,
      beq_eq_false_iff_ne]
    refine ⟨fun heq ↦ ?_, fun heq ↦ ?_⟩
    · rw [heq] at h
      revert h
      decide
    · rw [heq] at h
      revert h
      decide
  have hkept : (proxyResponse response).headers.only isResponseHeader =
      (response.headers.only isResponseHeader).foldl HeaderMap.insert [] := by
    rw [proxyResponse, HeaderMap.only_foldl_insert, ← HeaderMap.only,
      HeaderMap.only_only_of_imp himp]
    rfl
  rw [hkept]
  constructor
  · intro hperm
    exact (hperm.map Prod.fst).nodup_iff.1 (HeaderMap.nodup_foldl_insert _ List.nodup_nil)
  · intro hnodup
    rw [HeaderMap.foldl_insert_of_nodup _ hnodup]
    exact .refl _

/-- The URL is that of the API exactly without a query and below a root that does not end in
`/v1`. -/
theorem url_eq_apiUrl_iff {root path rest : String} {query : Option String}
    (hpath : path = "/v1" ++ rest) (hmem : '?' ∉ path.toList) :
    root ++ path = apiUrl root path query ↔ query = none ∧ ¬Text.endsWith root "/v1" := by
  rw [apiUrl]
  by_cases hends : Text.endsWith root "/v1"
  · -- the version stands in the root and in the path
    refine iff_of_false (fun heq ↦ ?_) fun h ↦ h.2 hends
    rw [if_pos hends, Text.stripPrefix_eq_some.2 hpath, Option.getD_some, String.append_assoc,
      String.append_right_inj] at heq
    have hlist := congrArg String.toList heq
    rcases query with - | q
    · have hlength := congrArg List.length hlist
      rw [hpath, Option.elim_none, String.append_empty, String.toList_append,
        List.length_append] at hlength
      have hversion : "/v1".toList.length = 3 := rfl
      omega
    · rw [hlist, Option.elim_some, String.toList_append, String.toList_append] at hmem
      exact hmem (List.mem_append_right _ (List.mem_append_left _ List.mem_cons_self))
  · rw [if_neg hends, and_iff_left hends]
    constructor
    · intro heq
      rcases query with - | q
      · rfl
      · have hlength := congrArg String.length heq
        rw [Option.elim_some, String.length_append, String.length_append, String.length_append,
          String.length_append] at hlength
        have hmark : "?".length = 1 := rfl
        omega
    · rintro rfl
      exact (String.append_empty).symm

/-- The path of a proxied request is the client's. -/
theorem path_of_proxy {g : Gateway} {env : String → Option String} {isMethod : String → Bool}
    {method path : String} {sent : Sent} (h : g.proxy env isMethod method path = .ok sent) :
    sent.2.path = path := by
  rw [Gateway.proxy] at h
  split at h
  · cases h
  split at h
  · cases h
  split at h
  · cases h
  split at h
  · obtain rfl := Except.ok.inj h
    rfl
  · cases h

/-- The proxy is transparent exactly without a query, below a root that does not end in `/v1`, and
for a response whose headers, but those of the connection, have different names. -/
theorem passthrough_transparent_iff {client : ProxyClient} {g : Gateway}
    {env : String → Option String} {call : ProxyCall} {x : ProxyExchange} {rest : String}
    (h : passthrough client g env call = .ok x) (hpath : call.path = "/v1" ++ rest) :
    x.Transparent call ↔ call.query = none ∧ ¬Text.endsWith x.root "/v1" ∧
      ((x.received.headers.only isResponseHeader).map Prod.fst).Nodup := by
  rw [passthrough] at h
  split at h
  · cases h
  split at h
  · cases h
  next target hproxy =>
  split at h
  · cases h
  next sent hsent =>
  split at h
  · cases h
  next received hreceived =>
  obtain rfl := Except.ok.inj h
  have hurl : sent.url = target.baseUrl ++ call.path := by
    obtain ⟨authorization, -, rfl⟩ := Option.map_eq_some_iff.1 hsent
    rw [← path_of_proxy hproxy]
  have hroot : target.baseUrl ++ call.path = apiUrl target.baseUrl call.path call.query ↔
      call.query = none ∧ ¬Text.endsWith target.baseUrl "/v1" :=
    url_eq_apiUrl_iff hpath call.path_mem
  constructor
  · intro htransparent
    obtain ⟨hquery, hends⟩ := hroot.1 (hurl.symm.trans htransparent.url)
    exact ⟨hquery, hends, (headers_proxyResponse_iff received).1 htransparent.responseHeaders⟩
  · rintro ⟨hquery, hends, hnodup⟩
    have hsame : sent.method = call.method ∧ sent.body = call.body := by
      obtain ⟨authorization, -, rfl⟩ := Option.map_eq_some_iff.1 hsent
      exact ⟨rfl, rfl⟩
    exact
      { method := hsame.1
        url := hurl.trans (hroot.2 ⟨hquery, hends⟩)
        headers := by rw [only_headers_proxyRequest hsent]
        body := hsame.2
        status := rfl
        responseHeaders := (headers_proxyResponse_iff received).2 hnodup
        responseBody := rfl }

/-- A client that gets one response. -/
def ProxyClient.answering (response : HttpResponse) : ProxyClient where
  isMethod _ := true
  builderError := "builder error"
  send _ := .ok response

/-- A request for the files of an account. -/
def listFiles (query : Option String) : ProxyCall where
  method := "GET"
  path := "/v1/files"
  path_mem := by decide
  query
  headers := [("accept", Utf8.bytes "application/json")]
  body := []

/-- A gateway with one target, of a base URL of its own. -/
def proxied (baseUrl : String) : Gateway :=
  (Gateway.new (fun _ ↦ none)
    { Config.default with
      targets := [{ Target.ofProvider "openai" with baseUrl := some baseUrl }] }).registerProvider
    (.compatible .openai)

theorem list_files_transparent : ∃ x,
    passthrough (.answering ⟨200, [("content-type", Utf8.bytes "application/json")], []⟩)
      (proxied "https://llm.example.com") (fun _ ↦ none) (listFiles none) = .ok x ∧
    x.Transparent (listFiles none) := by
  have hpath : (listFiles none).path = "/v1" ++ "/files" := rfl
  exact ⟨_, rfl, (passthrough_transparent_iff
    (rfl : passthrough (.answering ⟨200, [("content-type", Utf8.bytes "application/json")], []⟩)
      (proxied "https://llm.example.com") (fun _ ↦ none) (listFiles none) = .ok _) hpath).2
    ⟨rfl, by decide +kernel, by decide +kernel⟩⟩

/-- The query is lost, the version doubled, and one of two cookies dropped. -/
theorem list_files_changed : ∃ x,
    passthrough (.answering ⟨200, [("set-cookie", [97]), ("set-cookie", [98])], []⟩)
      (proxied "https://api.openai.com/v1") (fun _ ↦ none) (listFiles (some "limit=2")) = .ok x ∧
    x.sent.url = "https://api.openai.com/v1/v1/files" ∧
    x.returned.headers = [("set-cookie", [98])] ∧ ¬x.Transparent (listFiles (some "limit=2")) := by
  refine ⟨_, rfl, by decide +kernel, by decide +kernel, fun htransparent ↦ ?_⟩
  exact absurd htransparent.url (by decide +kernel)

end Kept

end Himadri
