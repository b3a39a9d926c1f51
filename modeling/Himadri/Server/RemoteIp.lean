import Himadri.Core.NetGuard

/-!
# The address of the client

`resolve_remote_ip` of the server's `handlers`, and the reverse proxies it trusts: a peer with an
internal address, which records the client's address as the last element of `X-Forwarded-For`, at
the end of the client's last line or in a line of its own.

The handler reads the first line of that name only, and where its value is not visible ASCII it goes
on to a header that is the client's. What the proxy recorded is returned whichever it is exactly if
the proxy's line is the first and the client's part of it is visible ASCII (`remote_ip_iff`).
-/

namespace Himadri

/-! ### Addresses as texts -/

/-- `Display` of `Ipv4Addr`. -/
def Ipv4Addr.display (ip : Ipv4Addr) : String :=
  toString ip.a.val ++ "." ++ toString ip.b.val ++ "." ++ toString ip.c.val ++ "." ++
    toString ip.d.val

/-- The segments from the start, in hexadecimal and with colons between them. -/
def fmtSubslice (segments : List (Fin 65536)) : String :=
  ":".intercalate (segments.map fun s ↦ .ofList (Nat.toDigits 16 s.val))

/-- The longest run of zeros so far and the current one, each by its start and length. -/
structure ZeroSpans where
  longest : ℕ × ℕ
  current : ℕ × ℕ

/-- The loop over the segments that looks for the longest run, the first of its length. -/
def zeroSpans (segments : List (Fin 65536)) : ZeroSpans :=
  segments.zipIdx.foldl (fun spans (segment, i) ↦
    if segment.val = 0 then
      let current := (if spans.current.2 = 0 then i else spans.current.1, spans.current.2 + 1)
      ⟨if spans.longest.2 < current.2 then current else spans.longest, current⟩
    else { spans with current := (0, 0) }) ⟨(0, 0), (0, 0)⟩

/-- `Display` of `Ipv6Addr`. -/
def Ipv6Addr.display (ip : Ipv6Addr) : String :=
  match ip.toIpv4Mapped with
  | some ip4 => "::ffff:" ++ ip4.display
  | none =>
    let (start, length) := (zeroSpans ip.segments).longest
    if 1 < length then
      fmtSubslice (ip.segments.take start) ++ "::" ++
        fmtSubslice (ip.segments.drop (start + length))
    else fmtSubslice ip.segments

/-- `Display` of `IpAddr`. -/
def IpAddr.display : IpAddr → String
  | .v4 ip => ip.display
  | .v6 ip => ip.display

example : (Ipv6Addr.ofSegments ([0x2001, 0xdb8, 0, 0, 1, 0, 0, 1].map segment)).display =
    "2001:db8::1:0:0:1" := by decide +kernel

/-! ### Headers -/

/-- A header value. -/
abbrev HeaderValue := List UInt8

/-- `HeaderMap`: the lines of a request in order, by their names in lower case. -/
abbrev HeaderMap := List (String × HeaderValue)

namespace HeaderMap

/-- `HeaderMap::get_all`. -/
def getAll (headers : HeaderMap) (name : String) : List HeaderValue :=
  (headers.filter (·.1 == name)).map (·.2)

/-- `HeaderMap::get`: the first value. -/
def get (headers : HeaderMap) (name : String) : Option HeaderValue := (headers.getAll name).head?

end HeaderMap

/-- A byte of visible ASCII, or a tab. -/
def isVisible (b : UInt8) : Bool := (32 ≤ b && b < 127) || b = 9

/-- `HeaderValue::to_str`. -/
def headerText (value : HeaderValue) : Option (List Char) :=
  if value.all isVisible then some (value.map fun b ↦ .ofNat b.toNat) else none

/-! ### The handler -/

/-- A public address out of an element of a header. -/
def publicIp (element : List Char) : Option String :=
  match IpAddr.parse ((element.dropWhile Text.isWhitespace).rdropWhile Text.isWhitespace) with
  | some addr => if ipIsInternal addr then none else some addr.display
  | none => none

/-- `trusted_proxy_ip`. -/
def trustedProxyIp (headers : HeaderMap) : Option String :=
  match (headers.get "x-forwarded-for").bind headerText with
  | some s =>
    match (s.splitOn ',').reverse.findSome? publicIp with
    | some ip => some ip
    | none => ((headers.get "x-real-ip").bind headerText).bind publicIp
  | none => ((headers.get "x-real-ip").bind headerText).bind publicIp

/-- `resolve_remote_ip`, of a peer by its address. -/
def resolveRemoteIp (peer : IpAddr) (headers : HeaderMap) : Option String :=
  if ipIsInternal peer then
    match trustedProxyIp headers with
    | some ip => some ip
    | none => some peer.display
  else some peer.display

/-- The key of the per-IP limit: an address, or no limit. -/
def perIpKey (remoteIp : Option String) : Option String :=
  remoteIp.filter fun ip ↦ (IpAddr.parse ip.toList).isSome

/-! ### The proxy -/

/-- Optional whitespace of a header. -/
def isBlank (b : UInt8) : Bool := b = 32 || b = 9

/-- How a proxy records an address: with a comma and blanks at the end of the last line, or in a
further line. -/
inductive ReverseProxy
  | append (blanks : List UInt8) (h : blanks.all isBlank)
  | addLine

/-- The lines with a text put at the end of the last one for `X-Forwarded-For`. -/
def HeaderMap.extendLast (text : HeaderValue) : HeaderMap → HeaderMap
  | [] => []
  | (name, value) :: rest =>
    if name = "x-forwarded-for" ∧ HeaderMap.getAll rest "x-forwarded-for" = [] then
      (name, value ++ text) :: rest
    else (name, value) :: HeaderMap.extendLast text rest

/-- The headers the proxy passes on. -/
def ReverseProxy.record (proxy : ReverseProxy) (headers : HeaderMap) (address : HeaderValue) :
    HeaderMap :=
  match proxy with
  | .append blanks _ =>
    if headers.getAll "x-forwarded-for" = [] then headers ++ [("x-forwarded-for", address)]
    else headers.extendLast (44 :: blanks ++ address)
  | .addLine => headers ++ [("x-forwarded-for", address)]

/-- The text of an address. -/
def Writes (address : HeaderValue) (ip : IpAddr) : Prop :=
  (headerText address).bind IpAddr.parse = some ip

/-- The proxy's line is the first for `X-Forwarded-For`, and what the client wrote in it is visible
ASCII. -/
def ReverseProxy.ReadFirst (headers : HeaderMap) : ReverseProxy → Prop
  | .append _ _ => ∀ value ∈ headers.getAll "x-forwarded-for",
      headers.getAll "x-forwarded-for" = [value] ∧ value.all isVisible
  | .addLine => headers.getAll "x-forwarded-for" = []

/-! ### What the handler reads -/

namespace HeaderMap

variable (headers : HeaderMap) (name : String) (address text : HeaderValue)

theorem getAll_cons (line : String × HeaderValue) : getAll (line :: headers) name =
    if line.1 = name then line.2 :: getAll headers name else getAll headers name := by
  rw [getAll, List.filter_cons]
  by_cases hname : line.1 = name
  · rw [if_pos hname, if_pos (beq_iff_eq.2 hname)]
    rfl
  · rw [if_neg hname, if_neg fun h ↦ hname (beq_iff_eq.1 h)]
    rfl

theorem getAll_append_line : getAll (headers ++ [("x-forwarded-for", address)]) name =
    getAll headers name ++ if "x-forwarded-for" = name then [address] else [] := by
  induction headers with
  | nil => exact getAll_cons [] name ("x-forwarded-for", address)
  | cons line headers ih =>
    rw [List.cons_append, getAll_cons, getAll_cons, ih]
    split
    · rfl
    · rfl

theorem getAll_extendLast_of_ne (hname : "x-forwarded-for" ≠ name) :
    getAll (headers.extendLast text) name = getAll headers name := by
  induction headers with
  | nil => rfl
  | cons line headers ih =>
    rw [extendLast]
    split
    · next h => rw [getAll_cons, getAll_cons, if_neg (by rw [h.1]; exact hname),
        if_neg (by rw [h.1]; exact hname)]
    · rw [getAll_cons, getAll_cons, ih]

/-- The last of the lines gets the text. -/
theorem getAll_extendLast {init : List HeaderValue} {last : HeaderValue}
    (h : getAll headers "x-forwarded-for" = init ++ [last]) :
    getAll (headers.extendLast text) "x-forwarded-for" = init ++ [last ++ text] := by
  induction headers generalizing init with
  | nil => exact absurd h.symm (List.append_ne_nil_of_right_ne_nil _ (List.cons_ne_nil _ _))
  | cons line headers ih =>
    rw [getAll_cons] at h
    rw [extendLast]
    by_cases hname : line.1 = "x-forwarded-for"
    · rw [if_pos hname] at h
      by_cases hlast : getAll headers "x-forwarded-for" = []
      · rw [if_pos ⟨hname, hlast⟩, getAll_cons, if_pos hname, hlast]
        rw [hlast] at h
        rcases init with - | ⟨v, init⟩
        · obtain ⟨rfl, -⟩ := List.cons.inj h
          rfl
        · exact absurd (List.cons.inj h).2.symm
            (List.append_ne_nil_of_right_ne_nil _ (List.cons_ne_nil _ _))
      · rw [if_neg fun hboth ↦ hlast hboth.2, getAll_cons, if_pos hname]
        rcases init with - | ⟨v, init⟩
        · exact absurd (List.cons.inj h).2 hlast
        · obtain ⟨rfl, hrest⟩ := List.cons.inj h
          rw [ih hrest]
          rfl
    · rw [if_neg hname] at h
      rw [if_neg fun hboth ↦ hname hboth.1, getAll_cons, if_neg hname]
      exact ih h

end HeaderMap

variable {peer ip : IpAddr} {headers : HeaderMap} {address : HeaderValue} {proxy : ReverseProxy}

/-- The bytes of an address: visible, and neither commas nor blanks. -/
theorem Writes.bytes (h : Writes address ip) : address.all isVisible ∧
    IpAddr.parse (address.map fun b ↦ .ofNat b.toNat) = some ip ∧
      ∀ c ∈ address.map fun b ↦ Char.ofNat b.toNat, c ≠ ',' ∧ Text.isWhitespace c = false := by
  obtain ⟨s, hs, hparse⟩ := Option.bind_eq_some_iff.1 h
  obtain ⟨hvisible, heq⟩ := Option.ite_none_right_eq_some.1 hs
  obtain rfl := Option.some_inj.1 heq
  refine ⟨hvisible, hparse, fun c hc ↦ ?_⟩
  have hchar := IpAddr.isAddressChar_of_parse hparse c hc
  have hascii : ∀ n < 128, isAddressChar (.ofNat n) →
      Char.ofNat n ≠ ',' ∧ Text.isWhitespace (.ofNat n) = false := by decide
  obtain ⟨b, hb, rfl⟩ := List.mem_map.1 hc
  have hlt : b.toNat < 128 := by
    have hbv := List.all_eq_true.1 hvisible b hb
    rw [isVisible, Bool.or_eq_true, Bool.and_eq_true, decide_eq_true_iff, decide_eq_true_iff,
      decide_eq_true_iff] at hbv
    rcases hbv with ⟨-, hb⟩ | rfl
    · have := UInt8.lt_iff_toNat_lt.1 hb
      show b.toNat < 128
      exact Nat.lt_succ_of_lt this
    · decide
  exact hascii b.toNat hlt hchar

/-- The handler takes a public address out of an element that the proxy wrote. -/
theorem publicIp_of_writes (h : Writes address ip) (hpublic : ipIsInternal ip = false)
    (blanks : List UInt8) (hblanks : blanks.all isBlank) :
    publicIp ((blanks ++ address).map fun b ↦ .ofNat b.toNat) = some ip.display := by
  obtain ⟨-, hparse, hchars⟩ := h.bytes
  have hspace : ∀ c ∈ blanks.map fun b ↦ Char.ofNat b.toNat, Text.isWhitespace c := by
    intro c hc
    obtain ⟨b, hb, rfl⟩ := List.mem_map.1 hc
    have hbb := List.all_eq_true.1 hblanks b hb
    rw [isBlank, Bool.or_eq_true, decide_eq_true_iff, decide_eq_true_iff] at hbb
    rcases hbb with rfl | rfl
    · decide
    · decide
  have hstart : ((address.map fun b ↦ Char.ofNat b.toNat).dropWhile Text.isWhitespace) =
      address.map fun b ↦ Char.ofNat b.toNat :=
    List.dropWhile_eq_self_iff.2 fun hpos ↦ by
      rw [(hchars _ (List.getElem_mem hpos)).2]
      exact Bool.false_ne_true
  have hend : ((address.map fun b ↦ Char.ofNat b.toNat).rdropWhile Text.isWhitespace) =
      address.map fun b ↦ Char.ofNat b.toNat :=
    List.rdropWhile_eq_self_iff.2 fun hne ↦ by
      rw [(hchars _ (List.getLast_mem hne)).2]
      exact Bool.false_ne_true
  rw [publicIp, List.map_append, List.dropWhile_append_of_pos hspace, hstart, hend, hparse]
  exact if_neg (by rw [hpublic]; exact Bool.false_ne_true)

/-- The walk from the right finds what the proxy recorded in the line it reads. -/
theorem trustedProxyIp_of_line (h : Writes address ip) (hpublic : ipIsInternal ip = false)
    {l : List Char} (hget : (headers.get "x-forwarded-for").bind headerText = some l)
    {w : List UInt8} (hblanks : w.all isBlank) {f : List (List Char)}
    (hsplit : l.splitOn ',' = f ++ [(w ++ address).map fun b ↦ .ofNat b.toNat]) :
    trustedProxyIp headers = some ip.display := by
  have hfind : (l.splitOn ',').reverse.findSome? publicIp = some ip.display := by
    rw [hsplit, List.reverse_append, List.reverse_singleton, List.singleton_append,
      List.findSome?_cons, publicIp_of_writes h hpublic w hblanks]
  rw [trustedProxyIp, hget]
  simp only [hfind]

/-- A text without a comma is one element. -/
theorem splitOn_of_writes (h : Writes address ip) {w : List UInt8}
    (hblanks : w.all isBlank) :
    ((w ++ address).map fun b ↦ Char.ofNat b.toNat).splitOn ',' =
      [(w ++ address).map fun b ↦ .ofNat b.toNat] := by
  refine List.splitOn_eq_singleton fun hcomma ↦ ?_
  rw [List.map_append, List.mem_append] at hcomma
  rcases hcomma with hcomma | hcomma
  · obtain ⟨b, hb, hcomma⟩ := List.mem_map.1 hcomma
    have hbb := List.all_eq_true.1 hblanks b hb
    rw [isBlank, Bool.or_eq_true, decide_eq_true_iff, decide_eq_true_iff] at hbb
    rcases hbb with rfl | rfl
    · exact absurd hcomma (by decide)
    · exact absurd hcomma (by decide)
  · exact (h.bytes.2.2 ',' hcomma).1 rfl

theorem isVisible_of_isBlank {b : UInt8} (h : isBlank b) : isVisible b := by
  rw [isBlank, Bool.or_eq_true, decide_eq_true_iff, decide_eq_true_iff] at h
  rcases h with rfl | rfl
  · decide
  · decide

/-- Where the proxy's line is read, what it recorded is what the handler returns. -/
theorem trustedProxyIp_record (hread : proxy.ReadFirst headers) (h : Writes address ip)
    (hpublic : ipIsInternal ip = false) :
    trustedProxyIp (proxy.record headers address) = some ip.display := by
  have hsingle (hnone : headers.getAll "x-forwarded-for" = []) :
      trustedProxyIp (headers ++ [("x-forwarded-for", address)]) = some ip.display := by
    refine trustedProxyIp_of_line (l := address.map fun b ↦ .ofNat b.toNat) (w := [])
      (f := []) h hpublic ?_ rfl (splitOn_of_writes (w := []) h rfl)
    rw [HeaderMap.get, HeaderMap.getAll_append_line, hnone, if_pos rfl]
    exact if_pos h.bytes.1
  rcases proxy with ⟨blanks, hblanks⟩ | -
  · rw [ReverseProxy.record]
    rcases hall : headers.getAll "x-forwarded-for" with - | ⟨value, rest⟩
    · rw [if_pos rfl]
      exact hsingle hall
    · obtain ⟨hone, hvisible⟩ := hread value (by rw [hall]; exact List.mem_cons_self)
      rw [if_neg (List.cons_ne_nil _ _)]
      -- the element after the proxy's comma is the last
      refine trustedProxyIp_of_line
        (l := (value ++ 44 :: (blanks ++ address)).map fun b ↦ .ofNat b.toNat) h hpublic ?_
        hblanks ?_ (f := (value.map fun b ↦ .ofNat b.toNat).splitOn ',')
      · have hone' : headers.getAll "x-forwarded-for" = [] ++ [value] := hone
        rw [HeaderMap.get, HeaderMap.getAll_extendLast headers _ hone']
        refine if_pos ?_
        rw [List.cons_append, List.all_append, List.all_cons, List.all_append, hvisible, h.bytes.1,
          List.all_eq_true.2 fun b hb ↦ isVisible_of_isBlank (List.all_eq_true.1 hblanks b hb)]
        rfl
      · rw [List.map_append, List.map_cons]
        exact (List.splitOn_append_cons_self _ _).trans (by rw [splitOn_of_writes h hblanks])
  · exact hsingle hread

/-- The lines of another name are the client's. -/
theorem getAll_record_of_ne {name : String} (hname : "x-forwarded-for" ≠ name) :
    (proxy.record headers address).getAll name = headers.getAll name := by
  have happend : HeaderMap.getAll (headers ++ [("x-forwarded-for", address)]) name =
      headers.getAll name := by
    rw [HeaderMap.getAll_append_line, if_neg hname, List.append_nil]
  rcases proxy with ⟨blanks, hblanks⟩ | -
  · rw [ReverseProxy.record]
    split
    · exact happend
    · exact HeaderMap.getAll_extendLast_of_ne headers name _ hname
  · exact happend

/-- Where the proxy's line is not read, what the handler reads is the same whatever was recorded. -/
theorem headerText_record (hread : ¬proxy.ReadFirst headers) :
    ((proxy.record headers address).get "x-forwarded-for").bind headerText =
      (headers.get "x-forwarded-for").bind headerText := by
  rcases proxy with ⟨blanks, hblanks⟩ | -
  · rcases List.eq_nil_or_concat' (headers.getAll "x-forwarded-for") with hall | ⟨init, last, hall⟩
    · exact absurd (fun value hvalue ↦ by rw [hall] at hvalue; cases hvalue) hread
    · have hne : headers.getAll "x-forwarded-for" ≠ [] := by
        rw [hall]
        exact List.append_ne_nil_of_right_ne_nil _ (List.cons_ne_nil _ _)
      rw [ReverseProxy.record, if_neg hne, HeaderMap.get, HeaderMap.get,
        HeaderMap.getAll_extendLast headers _ hall, hall]
      rcases init with - | ⟨value, init⟩
      · -- the one line is invisible before and after
        have hinvisible : ¬last.all isVisible := fun hvisible ↦ hread fun value hvalue ↦ by
          rw [hall, List.nil_append, List.mem_singleton] at hvalue
          rw [hvalue, hall]
          exact ⟨rfl, hvisible⟩
        refine (if_neg fun hboth ↦ hinvisible ?_).trans (if_neg hinvisible).symm
        rw [List.all_append, Bool.and_eq_true] at hboth
        exact hboth.1
      · rfl
  · rw [ReverseProxy.record, HeaderMap.get, HeaderMap.get, HeaderMap.getAll_append_line]
    rcases hall : headers.getAll "x-forwarded-for" with - | ⟨value, rest⟩
    · exact absurd hall hread
    · rfl

theorem trustedProxyIp_record_eq (hread : ¬proxy.ReadFirst headers) (address' : HeaderValue) :
    trustedProxyIp (proxy.record headers address) =
      trustedProxyIp (proxy.record headers address') := by
  have hreal (name : String) (hname : "x-forwarded-for" ≠ name) :
      (proxy.record headers address).get name = (proxy.record headers address').get name := by
    rw [HeaderMap.get, HeaderMap.get, getAll_record_of_ne hname, getAll_record_of_ne hname]
  rw [trustedProxyIp, trustedProxyIp, headerText_record hread, headerText_record hread,
    hreal "x-real-ip" (by decide)]

/-! ### The address that counts -/

/-- The address of a text, in bytes. -/
def addressBytes (text : String) : HeaderValue := text.toList.map fun c ↦ .ofNat c.toNat

/-- The client's line, with one address of its choice. -/
def spoofed : HeaderMap := [("x-forwarded-for", addressBytes "1.1.1.1")]

/-- A proxy behind which the client chooses its address: the handler returns it, and not the one
that the proxy recorded. -/
theorem remote_ip_spoofed :
    ipIsInternal (.v4 ⟨10, 0, 0, 1⟩) ∧ ipIsInternal (.v4 ⟨8, 8, 8, 8⟩) = false ∧
      Writes (addressBytes "8.8.8.8") (.v4 ⟨8, 8, 8, 8⟩) ∧
      resolveRemoteIp (.v4 ⟨10, 0, 0, 1⟩)
        (ReverseProxy.addLine.record spoofed (addressBytes "8.8.8.8")) = some "1.1.1.1" ∧
      ¬∀ (peer ip : IpAddr) (proxy : ReverseProxy) (headers : HeaderMap) (address : HeaderValue),
        ipIsInternal peer → ipIsInternal ip = false → Writes address ip →
          resolveRemoteIp peer (proxy.record headers address) = some ip.display := by
  have hwrites : Writes (addressBytes "8.8.8.8") (.v4 ⟨8, 8, 8, 8⟩) := by
    show (headerText _).bind _ = _
    decide
  have hspoofed : resolveRemoteIp (.v4 ⟨10, 0, 0, 1⟩)
      (ReverseProxy.addLine.record spoofed (addressBytes "8.8.8.8")) = some "1.1.1.1" := by
    decide +kernel
  refine ⟨rfl, rfl, hwrites, hspoofed, fun h ↦ ?_⟩
  have heq := h (.v4 ⟨10, 0, 0, 1⟩) (.v4 ⟨8, 8, 8, 8⟩) .addLine spoofed _ rfl rfl hwrites
  rw [hspoofed] at heq
  exact absurd heq (by decide +kernel)

/-- Behind a proxy the handler returns what the proxy recorded, whichever address it is, exactly if
the proxy's line is the first and the client's part of it is visible ASCII; requests of one client
then count in one bucket. Of a public peer it returns the address. -/
theorem remote_ip_iff (peer : IpAddr) :
    (ipIsInternal peer → ∀ (proxy : ReverseProxy) (headers : HeaderMap),
      ((∀ ip address, ipIsInternal ip = false → Writes address ip →
          resolveRemoteIp peer (proxy.record headers address) = some ip.display) ↔
        proxy.ReadFirst headers) ∧
      ∀ headers' ip address, proxy.ReadFirst headers → proxy.ReadFirst headers' →
        ipIsInternal ip = false → Writes address ip →
          perIpKey (resolveRemoteIp peer (proxy.record headers address)) =
            perIpKey (resolveRemoteIp peer (proxy.record headers' address))) ∧
    (ipIsInternal peer = false → ∀ headers, resolveRemoteIp peer headers = some peer.display) := by
  have hresolve (hpeer : ipIsInternal peer) {proxy : ReverseProxy} {headers : HeaderMap}
      {address : HeaderValue} {ip : IpAddr} (hread : proxy.ReadFirst headers)
      (hpublic : ipIsInternal ip = false) (h : Writes address ip) :
      resolveRemoteIp peer (proxy.record headers address) = some ip.display := by
    rw [resolveRemoteIp, if_pos hpeer]
    simp only [trustedProxyIp_record hread h hpublic]
  refine ⟨fun hpeer proxy headers ↦ ⟨⟨fun h ↦ ?_, fun hread ip address hpublic hwrites ↦
    hresolve hpeer hread hpublic hwrites⟩,
    fun headers' ip address hread hread' hpublic hwrites ↦ ?_⟩, fun hpeer headers ↦ ?_⟩
  · by_contra hread
    -- two addresses that the handler cannot tell apart
    have hone := h (.v4 ⟨1, 1, 1, 1⟩) (addressBytes "1.1.1.1") rfl (by
      show (headerText _).bind _ = _
      decide)
    have height := h (.v4 ⟨8, 8, 8, 8⟩) (addressBytes "8.8.8.8") rfl (by
      show (headerText _).bind _ = _
      decide)
    rw [resolveRemoteIp, if_pos hpeer] at hone height
    rw [trustedProxyIp_record_eq hread (addressBytes "8.8.8.8")] at hone
    exact absurd (hone.symm.trans height) (by decide +kernel)
  · rw [hresolve hpeer hread hpublic hwrites, hresolve hpeer hread' hpublic hwrites]
  · rw [resolveRemoteIp, if_neg (by rw [hpeer]; exact Bool.false_ne_true)]

end Himadri
