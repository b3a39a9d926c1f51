import Mathlib.Data.List.TakeDrop
import Mathlib.Data.List.TakeWhile
import Mathlib.Tactic.Common

/-!
# IP addresses and their texts

`std::net`'s `Ipv4Addr`, `Ipv6Addr` and `IpAddr`, as far as the gateway uses them: the predicates on
ranges, the parser of `FromStr`, which reads a text from the left and takes an address only where it
comes to its end, and `Display`. Texts are lists of characters here.
-/

namespace Himadri

/-! ### Digits -/

namespace Digits

/-- `char::to_digit`, of a radix up to 36. -/
def toDigit (radix : ℕ) (c : Char) : Option ℕ :=
  let n :=
    if '0' ≤ c ∧ c ≤ '9' then c.toNat - '0'.toNat
    else if 'a' ≤ c ∧ c ≤ 'z' then c.toNat - 'a'.toNat + 10
    else if 'A' ≤ c ∧ c ≤ 'Z' then c.toNat - 'A'.toNat + 10
    else 36
  if n < radix then some n else none

/-- The character is a digit. -/
def isDigit (radix : ℕ) (c : Char) : Bool := (toDigit radix c).isSome

/-- The number that the digits write. -/
def value (radix : ℕ) (digits : List Char) : ℕ :=
  digits.foldl (fun n c ↦ n * radix + (toDigit radix c).getD 0) 0

/-- A digit is one in a greater radix. -/
theorem isDigit_mono {r r' : ℕ} (hr : r ≤ r') {c : Char} (h : isDigit r c) : isDigit r' c := by
  obtain ⟨n, hn⟩ := Option.isSome_iff_exists.1 h
  rw [toDigit, Option.ite_none_right_eq_some] at hn
  rw [isDigit, toDigit, if_pos (Nat.lt_of_lt_of_le hn.1 hr)]
  rfl

theorem toDigit_of_isDigit {c : Char} (h : c.isDigit) :
    toDigit 10 c = some (c.toNat - '0'.toNat) := by
  obtain ⟨hlow, hhigh⟩ := Char.isDigit_iff_toNat.1 h
  have hrange : '0' ≤ c ∧ c ≤ '9' := ⟨hlow, hhigh⟩
  rw [toDigit, if_pos hrange]
  have hnine : '9'.toNat - '0'.toNat = 9 := rfl
  exact if_pos (by omega)

/-- The digits of a number write it. -/
theorem value_toDigits (n : ℕ) : value 10 (Nat.toDigits 10 n) = n := by
  have hvalue (l : List Char) (hl : ∀ c ∈ l, c.isDigit) (a : ℕ) :
      l.foldl (fun n c ↦ n * 10 + (toDigit 10 c).getD 0) a = Nat.ofDigitChars 10 l a := by
    induction l generalizing a with
    | nil => rfl
    | cons c l ih =>
      obtain ⟨hc, hl⟩ := List.forall_mem_cons.1 hl
      rw [List.foldl_cons, toDigit_of_isDigit hc, ih hl, Nat.ofDigitChars_cons, Nat.mul_comm]
      rfl
  exact (hvalue _ (fun _ ↦ Nat.isDigit_of_mem_toDigits (by omega) (by omega)) 0).trans
    Nat.ofDigitChars_ten_toDigits

end Digits

open Digits

/-- A text of digits without the plus it may begin with. -/
def afterPlus : List Char → List Char
  | '+' :: digits => digits
  | digits => digits

/-- `str::parse::<u64>`. -/
def parseU64 (s : String) : Option ℕ :=
  let digits := afterPlus s.toList
  if digits.isEmpty || !digits.all (isDigit 10) then none
  else (some (value 10 digits)).filter (· < UInt64.size)

/-- A number reads back. -/
theorem parseU64_toString {n : ℕ} (h : n < UInt64.size) : parseU64 (toString n) = some n := by
  have hdigits : (toString n).toList = Nat.toDigits 10 n := Nat.toList_repr
  have hall : ∀ c ∈ Nat.toDigits 10 n, c.isDigit := fun _ ↦
    Nat.isDigit_of_mem_toDigits (by omega) (by omega)
  have hplus : afterPlus (Nat.toDigits 10 n) = Nat.toDigits 10 n := by
    rw [afterPlus.eq_def]
    split
    · next heq =>
      have hdigit := hall '+' (heq ▸ List.mem_cons_self)
      exact absurd hdigit (by decide)
    · rfl
  rw [parseU64, hdigits, hplus, value_toDigits, if_neg ?_, Option.filter_some,
    if_pos (decide_eq_true h)]
  rw [Bool.or_eq_true, not_or, List.isEmpty_iff, Bool.not_eq_true', Bool.not_eq_false,
    List.all_eq_true]
  refine ⟨Nat.toDigits_ne_nil, fun c hc ↦ ?_⟩
  rw [isDigit, toDigit_of_isDigit (hall c hc)]
  rfl

/-! ### Addresses -/

/-- The octet of a number, modulo 256. -/
def octet (n : ℕ) : Fin 256 := .ofNat 256 n

theorem val_octet {n : ℕ} (h : n < 256) : (octet n).val = n := Nat.mod_eq_of_lt h

/-- The segment of a number, modulo 65536. -/
def segment (n : ℕ) : Fin 65536 := .ofNat 65536 n

/-- `Ipv4Addr`, by its octets. -/
structure Ipv4Addr where
  a : Fin 256
  b : Fin 256
  c : Fin 256
  d : Fin 256
  deriving DecidableEq

namespace Ipv4Addr

variable (ip : Ipv4Addr)

/-- `Ipv4Addr::is_loopback`. -/
def isLoopback : Bool := ip.a = 127

/-- `Ipv4Addr::is_private`. -/
def isPrivate : Bool :=
  ip.a = 10 || (ip.a = 172 && (16 ≤ ip.b && ip.b ≤ 31)) || (ip.a = 192 && ip.b = 168)

/-- `Ipv4Addr::is_link_local`. -/
def isLinkLocal : Bool := ip.a = 169 && ip.b = 254

/-- `Ipv4Addr::is_unspecified`. -/
def isUnspecified : Bool := ip = ⟨0, 0, 0, 0⟩

/-- `Ipv4Addr::is_broadcast`. -/
def isBroadcast : Bool := ip = ⟨255, 255, 255, 255⟩

/-- `Ipv4Addr::is_documentation`. -/
def isDocumentation : Bool :=
  (ip.a = 192 && ip.b = 0 && ip.c = 2) || (ip.a = 198 && ip.b = 51 && ip.c = 100) ||
    (ip.a = 203 && ip.b = 0 && ip.c = 113)

end Ipv4Addr

/-- `Ipv6Addr`, by its eight segments. -/
structure Ipv6Addr where
  segments : List (Fin 65536)
  length_segments : segments.length = 8
  deriving DecidableEq

namespace Ipv6Addr

/-- The address of eight segments: an array of eight holds no more and is filled with zeros. -/
def ofSegments (l : List (Fin 65536)) : Ipv6Addr where
  segments := (l ++ List.replicate 8 (segment 0)).take 8
  length_segments := by
    rw [List.length_take, List.length_append, List.length_replicate]
    omega

variable (ip : Ipv6Addr)

/-- `Ipv6Addr::is_loopback`. -/
def isLoopback : Bool := ip.segments = [0, 0, 0, 0, 0, 0, 0, 1]

/-- `Ipv6Addr::is_unspecified`. -/
def isUnspecified : Bool := ip.segments = [0, 0, 0, 0, 0, 0, 0, 0]

/-- `Ipv6Addr::is_unique_local`: `fc00::/7`. -/
def isUniqueLocal : Bool := (ip.segments.headD 0).val &&& 0xfe00 = 0xfc00

/-- `Ipv6Addr::is_unicast_link_local`: `fe80::/10`. -/
def isUnicastLinkLocal : Bool := (ip.segments.headD 0).val &&& 0xffc0 = 0xfe80

/-- `Ipv6Addr::to_ipv4_mapped`: the IPv4 address in `::ffff:0:0/96`. -/
def toIpv4Mapped : Option Ipv4Addr :=
  match ip.segments with
  | [0, 0, 0, 0, 0, 0xffff, ab, cd] =>
    some ⟨octet (ab.val / 256), octet ab, octet (cd.val / 256), octet cd⟩
  | _ => none

end Ipv6Addr

/-- `IpAddr`. -/
inductive IpAddr
  | v4 (ip : Ipv4Addr)
  | v6 (ip : Ipv6Addr)
  deriving DecidableEq

/-! ### The parser -/

namespace IpParser

/-- `Parser::read_number`, of a number below `size`; a text it does not begin is left alone. -/
def readNumber (radix maxDigits size : ℕ) (allowZeroPrefix : Bool) (s : List Char) :
    Option (ℕ × List Char) :=
  let digits := s.takeWhile (isDigit radix)
  if digits.isEmpty || maxDigits < digits.length ||
      (!allowZeroPrefix && digits.head? == some '0' && 1 < digits.length) ||
      size ≤ value radix digits then none
  else some (value radix digits, s.dropWhile (isDigit radix))

/-- `Parser::read_separator`: the separator comes before every item but the first. -/
def readSeparator {α : Type} (sep : Char) (first : Bool)
    (inner : List Char → Option (α × List Char)) (s : List Char) : Option (α × List Char) :=
  if first then inner s
  else
    match s with
    | c :: s => if c = sep then inner s else none
    | [] => none

/-- An octet of a dotted address. -/
def readOctet (first : Bool) : List Char → Option (ℕ × List Char) :=
  readSeparator '.' first (readNumber 10 3 256 false)

/-- `Parser::read_ipv4_addr`. -/
def readIpv4Addr (s : List Char) : Option (Ipv4Addr × List Char) := do
  let (a, s) ← readOctet true s
  let (b, s) ← readOctet false s
  let (c, s) ← readOctet false s
  let (d, s) ← readOctet false s
  return (⟨octet a, octet b, octet c, octet d⟩, s)

/-- The two segments of an IPv4 address. -/
def segmentsOf (ip : Ipv4Addr) : List (Fin 65536) :=
  [segment (ip.a * 256 + ip.b), segment (ip.c * 256 + ip.d)]

/-- `read_groups`, into `limit` groups: what it read, whether that ends in an IPv4 address, and what
it left. -/
def readGroups : ℕ → Bool → List Char → List (Fin 65536) × Bool × List Char
  | 0, _, s => ([], false, s)
  | limit + 1, first, s =>
    -- an IPv4 address takes two groups
    match if 0 < limit then readSeparator ':' first readIpv4Addr s else none with
    | some (ip, rest) => (segmentsOf ip, true, rest)
    | none =>
      match readSeparator ':' first (readNumber 16 4 65536 true) s with
      | some (group, rest) =>
        let (groups, ipv4, rest) := readGroups limit false rest
        (segment group :: groups, ipv4, rest)
      | none => ([], false, s)

/-- `Parser::read_ipv6_addr`. -/
def readIpv6Addr (s : List Char) : Option (Ipv6Addr × List Char) :=
  let (head, headIpv4, rest) := readGroups 8 true s
  if head.length = 8 then some (.ofSegments head, rest)
  else if headIpv4 then none
  else
    match rest with
    | ':' :: ':' :: rest =>
      -- the `::` stands for at least one zero
      let (tail, _, rest) := readGroups (8 - (head.length + 1)) true rest
      some (.ofSegments
        (head ++ List.replicate (8 - tail.length - head.length) (segment 0) ++ tail), rest)
    | _ => none

/-- `Parser::read_ip_addr`. -/
def readIpAddr (s : List Char) : Option (IpAddr × List Char) :=
  match readIpv4Addr s with
  | some (ip, rest) => some (.v4 ip, rest)
  | none => (readIpv6Addr s).map fun (ip, rest) ↦ (.v6 ip, rest)

end IpParser

/-- `str::parse::<IpAddr>`. -/
def IpAddr.parse (s : List Char) : Option IpAddr :=
  match IpParser.readIpAddr s with
  | some (ip, []) => some ip
  | _ => none

/-! ### What is read -/

/-- A character of an address. -/
def isAddressChar (c : Char) : Bool := isDigit 16 c || c = '.' || c = ':'

namespace IpParser

/-- What was read is made of the characters of addresses. -/
def Reads (s rest : List Char) : Prop := ∃ read, s = read ++ rest ∧ ∀ c ∈ read, isAddressChar c

theorem Reads.refl (s : List Char) : Reads s s := ⟨[], rfl, fun _ hc ↦ by cases hc⟩

theorem Reads.trans {s t u : List Char} (h : Reads s t) (h' : Reads t u) : Reads s u := by
  obtain ⟨read, rfl, hread⟩ := h
  obtain ⟨read', rfl, hread'⟩ := h'
  refine ⟨read ++ read', (List.append_assoc _ _ _).symm, fun c hc ↦ ?_⟩
  exact (List.mem_append.1 hc).elim (hread c) (hread' c)

theorem reads_readNumber {radix maxDigits size n : ℕ} {allow : Bool} {s rest : List Char}
    (hradix : radix ≤ 16) (h : readNumber radix maxDigits size allow s = some (n, rest)) :
    Reads s rest := by
  obtain ⟨-, heq⟩ := Option.ite_none_left_eq_some.1 h
  obtain ⟨-, rfl⟩ := Prod.mk.inj (Option.some_inj.1 heq)
  refine ⟨s.takeWhile (isDigit radix), List.takeWhile_append_dropWhile.symm, fun c hc ↦ ?_⟩
  rw [isAddressChar, isDigit_mono hradix (List.mem_takeWhile_imp hc)]
  rfl

theorem reads_readSeparator {α : Type} {sep : Char} {first : Bool}
    {inner : List Char → Option (α × List Char)} {s rest : List Char} {a : α}
    (hsep : isAddressChar sep) (hinner : ∀ t, inner t = some (a, rest) → Reads t rest)
    (h : readSeparator sep first inner s = some (a, rest)) : Reads s rest := by
  rcases first with - | -
  · rcases s with - | ⟨c, s⟩
    · cases h
    · obtain ⟨rfl, hread⟩ := Option.ite_none_right_eq_some.1 h
      refine Reads.trans ⟨[c], rfl, fun c' hc' ↦ ?_⟩ (hinner s hread)
      rw [List.mem_singleton.1 hc']
      exact hsep
  · exact hinner s h

theorem reads_readIpv4Addr {s rest : List Char} {ip : Ipv4Addr}
    (h : readIpv4Addr s = some (ip, rest)) : Reads s rest := by
  have hoctet {first : Bool} {s rest : List Char} {n : ℕ}
      (hn : readOctet first s = some (n, rest)) : Reads s rest :=
    reads_readSeparator (by decide) (fun _ ↦ reads_readNumber (by omega)) hn
  obtain ⟨⟨a, s₁⟩, ha, h₁⟩ := Option.bind_eq_some_iff.1 h
  obtain ⟨⟨b, s₂⟩, hb, h₂⟩ := Option.bind_eq_some_iff.1 h₁
  obtain ⟨⟨c, s₃⟩, hc, h₃⟩ := Option.bind_eq_some_iff.1 h₂
  obtain ⟨⟨d, s₄⟩, hd, h₄⟩ := Option.bind_eq_some_iff.1 h₃
  obtain ⟨-, rfl⟩ := Prod.mk.inj (Option.some_inj.1 h₄)
  exact (hoctet ha).trans ((hoctet hb).trans ((hoctet hc).trans (hoctet hd)))

theorem reads_readGroups (limit : ℕ) (first : Bool) (s : List Char) :
    Reads s (readGroups limit first s).2.2 := by
  induction limit generalizing first s with
  | zero => exact Reads.refl s
  | succ limit ih =>
    rw [readGroups]
    split
    · next ip rest heq =>
      obtain ⟨-, heq⟩ := Option.ite_none_right_eq_some.1 heq
      exact reads_readSeparator (by decide) (fun _ ↦ reads_readIpv4Addr) heq
    · split
      · next n rest heq =>
        exact (reads_readSeparator (by decide) (fun _ ↦ reads_readNumber (Nat.le_refl 16)) heq).trans
          (ih false rest)
      · exact Reads.refl s

theorem reads_readIpv6Addr {s rest : List Char} {ip : Ipv6Addr}
    (h : readIpv6Addr s = some (ip, rest)) : Reads s rest := by
  have hhead := reads_readGroups 8 true s
  rw [readIpv6Addr] at h
  generalize readGroups 8 true s = groups at h hhead
  obtain ⟨head, headIpv4, left⟩ := groups
  replace h : (if head.length = 8 then some (Ipv6Addr.ofSegments head, left) else _) = _ := h
  by_cases hfull : head.length = 8
  · rw [if_pos hfull] at h
    obtain ⟨-, rfl⟩ := Prod.mk.inj (Option.some_inj.1 h)
    exact hhead
  · rw [if_neg hfull] at h
    replace h := (Option.ite_none_left_eq_some.1 h).2
    split at h
    · next tail =>
      obtain ⟨-, rfl⟩ := Prod.mk.inj (Option.some_inj.1 h)
      have hgap : Reads (':' :: ':' :: tail) tail := by
        refine ⟨[':', ':'], rfl, fun c hc ↦ ?_⟩
        simp only [List.mem_cons, List.not_mem_nil, or_false, or_self] at hc
        rw [hc]
        decide
      exact hhead.trans (hgap.trans (reads_readGroups _ true tail))
    · cases h

end IpParser

/-- The text of an address is made of digits, dots and colons. -/
theorem IpAddr.isAddressChar_of_parse {s : List Char} {ip : IpAddr} (h : IpAddr.parse s = some ip) :
    ∀ c ∈ s, isAddressChar c := by
  have hreads : IpParser.Reads s [] := by
    rw [IpAddr.parse] at h
    split at h
    · next ip' hread =>
      rw [IpParser.readIpAddr] at hread
      split at hread
      · next ip4 rest hipv4 =>
        obtain ⟨-, rfl⟩ := Prod.mk.inj (Option.some_inj.1 hread)
        exact IpParser.reads_readIpv4Addr hipv4
      · obtain ⟨⟨ip6, rest⟩, hipv6, heq⟩ := Option.map_eq_some_iff.1 hread
        obtain ⟨-, rfl⟩ := Prod.mk.inj heq
        exact IpParser.reads_readIpv6Addr hipv6
    · cases h
  obtain ⟨read, rfl, hread⟩ := hreads
  rw [List.append_nil]
  exact hread

example : IpAddr.parse "192.168.0.1".toList = some (.v4 ⟨192, 168, 0, 1⟩) := by decide

example : IpAddr.parse "127.1".toList = none := by decide

example : IpAddr.parse "2001:db8::1.2.3.4".toList =
    some (.v6 (.ofSegments [0x2001, 0xdb8, 0, 0, 0, 0, 0x102, 0x304])) := by decide

end Himadri
