import Headscale.Netip.Addr

/-!
# Parsing addresses and prefixes

The grammar of Go's `netip.ParseAddr` and `netip.ParsePrefix`, with their error order. Positions in
the byte arrays of the source are the lengths of the lists read so far, and `&text[offset..]` is the
list that is left.
-/

namespace Headscale.GoNetip

/-! ## Errors -/

/-- What `ParseAddr` reports: the whole input, the problem, and the text where it was found. -/
structure AddrError where
  input : String
  message : String
  place : String
deriving DecidableEq, Repr

/-- The text of an address error; `quote` is Go's `strconv.Quote`. -/
def AddrError.text (quote : String → String) (error : AddrError) : String :=
  "ParseAddr(" ++ quote error.input ++ "): " ++ error.message ++
    if error.place = "" then "" else " (at " ++ quote error.place ++ ")"

def addressError (input : List Char) (message : String) (place : List Char) : AddrError :=
  ⟨String.ofList input, message, String.ofList place⟩

/-! ## IPv4 -/

/-- The loop of `ipv4_fields` over the characters left. `prev` is the character before them, absent
at the start of the text. -/
def ipv4Loop (input : List Char) :
    Option Char → List Nat → Nat → Nat → List Char → Except AddrError (List Nat)
  | _, fields, value, _, [] =>
    if fields.length < 3 then .error (addressError input "IPv4 address too short" [])
    else .ok (fields ++ [value])
  | prev, fields, value, digits, c :: rest =>
    match Text.decDigit c with
    | some digit =>
      if digits = 1 ∧ value = 0 then
        .error (addressError input "IPv4 field has octet with leading zero" [])
      else if value * 10 + digit > 255 then
        .error (addressError input "IPv4 field has value >255" [])
      else ipv4Loop input (some c) fields (value * 10 + digit) (digits + 1) rest
    | none =>
      if c = '.' then
        if prev = none ∨ rest = [] ∨ prev = some '.' then
          .error (addressError input "IPv4 field must have at least one digit" (c :: rest))
        else if fields.length = 3 then .error (addressError input "IPv4 address too long" [])
        else ipv4Loop input (some c) (fields ++ [value]) 0 0 rest
      else .error (addressError input "unexpected character" (c :: rest))

def ipv4Fields (input text : List Char) : Except AddrError (List Nat) :=
  ipv4Loop input none [] 0 0 text

/-! ## IPv6 -/

/-- The hexadecimal digits at the start of a field: their value, how many they are, and what
follows them. -/
def hexField (input text : List Char) :
    Nat → Nat → List Char → Except AddrError (Nat × Nat × List Char)
  | value, offset, [] => .ok (value, offset, [])
  | value, offset, c :: rest =>
    match Text.hexDigit c with
    | none => .ok (value, offset, c :: rest)
    | some digit =>
      if offset > 3 then
        .error (addressError input "each group must have 4 or less digits" text)
      else if value * 16 + digit > 65535 then
        .error (addressError input "IPv6 field has value >=2^16" text)
      else hexField input text (value * 16 + digit) (offset + 1) rest

/-- The field loop of `ipv6_address`: the text left, the octets read and where `::` stood. Each turn
reads two octets, so eight turns fill the address. -/
def ipv6Loop (input : List Char) :
    Nat → List Char → List Nat → Option Nat →
      Except AddrError (List Char × List Nat × Option Nat)
  | 0, text, octets, ellipsis => .ok (text, octets, ellipsis)
  | turns + 1, text, octets, ellipsis =>
    if octets.length < 16 then
      match hexField input text 0 0 text with
      | .error e => .error e
      | .ok (value, offset, rest) =>
        if offset = 0 then
          .error (addressError input
            "each colon-separated field must have at least one digit" text)
        else if rest.head? = some '.' then
          if ellipsis = none ∧ octets.length ≠ 12 then
            .error (addressError input
              "embedded IPv4 address must replace the final 2 fields of the address" text)
          else if octets.length + 4 > 16 then
            .error (addressError input
              "too many hex fields to fit an embedded IPv4 at the end of the address" text)
          else (ipv4Fields input text).map fun fields => ([], octets ++ fields, ellipsis)
        else
          let read := octets ++ [value / 256, value % 256]
          match rest with
          | [] => .ok ([], read, ellipsis)
          | [':'] =>
            .error (addressError input "colon must be followed by more characters" rest)
          | ':' :: ':' :: more =>
            if ellipsis.isSome then
              .error (addressError input "multiple :: in address" (':' :: more))
            else if more = [] then .ok ([], read, some read.length)
            else ipv6Loop input turns more read (some read.length)
          | ':' :: more => ipv6Loop input turns more read ellipsis
          | _ => .error (addressError input "unexpected character, want colon" rest)
    else .ok (text, octets, ellipsis)

/-- The octets of an address from what the field loop read: the zeros of `::` go in where it
stood. -/
def expandEllipsis (input : List Char) :
    List Char × List Nat × Option Nat → Except AddrError (List Nat)
  | (text, octets, ellipsis) =>
    if text ≠ [] then .error (addressError input "trailing garbage after address" text)
    else if octets.length < 16 then
      match ellipsis with
      | none => .error (addressError input "address string too short" [])
      | some start =>
        .ok (octets.take start ++ List.replicate (16 - octets.length) 0 ++ octets.drop start)
    else if ellipsis.isSome then
      .error (addressError input "the :: must expand to at least one field of zeros" [])
    else .ok octets

/-- The address of `text`, the part of `input` before its zone. -/
def ipv6Octets (input text : List Char) : Except AddrError (List Nat) :=
  match Text.stripStart "::".toList text with
  | some [] => .ok (List.replicate 16 0)
  | some rest => ipv6Loop input 8 rest [] (some 0) >>= expandEllipsis input
  | none => ipv6Loop input 8 text [] none >>= expandEllipsis input

def ipv6Address (input : List Char) : Except AddrError (IpAddr × Option String) :=
  match Text.splitOnce '%' input with
  | some (_, []) => .error (addressError input "zone must be a non-empty string" [])
  | some (text, zone) =>
    (ipv6Octets input text).map fun octets => (.ofV6Octets octets, some (String.ofList zone))
  | none => (ipv6Octets input input).map fun octets => (.ofV6Octets octets, none)

/-! ## Addresses and prefixes -/

/-- The first dot, colon or percent sign decides how the text is read. -/
def parseAddress (text : List Char) : Except AddrError (IpAddr × Option String) :=
  match text.find? fun c => c = '.' ∨ c = ':' ∨ c = '%' with
  | some '.' => (ipv4Fields text text).map fun fields => (.ofV4Octets fields, none)
  | some ':' => ipv6Address text
  | some _ => .error (addressError text "missing IPv6 address" [])
  | none => .error (addressError text "unable to parse IP" [])

def parseAddr (text : String) : Except AddrError (IpAddr × Option String) :=
  parseAddress text.toList

/-- Why `ParsePrefix` rejects a text. -/
inductive PrefixProblem where
  | noSlash
  | address (error : AddrError)
  | zone
  | badBits (bits : String)
  | outOfRange
deriving DecidableEq, Repr

structure PrefixError where
  input : String
  problem : PrefixProblem
deriving DecidableEq, Repr

def PrefixProblem.text (quote : String → String) : PrefixProblem → String
  | .noSlash => "no '/'"
  | .address error => error.text quote
  | .zone => "IPv6 zones cannot be present in a prefix"
  | .badBits bits => "bad bits after slash: " ++ quote bits
  | .outOfRange => "prefix length out of range"

def PrefixError.text (quote : String → String) (error : PrefixError) : String :=
  "netip.ParsePrefix(" ++ quote error.input ++ "): " ++ error.problem.text quote

/-- The number of prefix bits after the slash: more than one character must not start with a sign or
a zero, and `strconv.Atoi` must read them. -/
def parseBits (bits : List Char) : Option Int :=
  if bits.length > 1 ∧ ¬ bits.head?.any fun c => '1' ≤ c ∧ c ≤ '9' then none
  else Text.parseInt (-2 ^ 63) (2 ^ 63 - 1) bits

def parsePrefixChars (text : List Char) : Except PrefixProblem (IpAddr × Nat) :=
  match Text.rsplitOnce '/' text with
  | none => .error .noSlash
  | some (address, bits) =>
    match parseAddress address with
    | .error e => .error (.address e)
    | .ok (_, some _) => .error .zone
    | .ok (ip, none) =>
      match parseBits bits with
      | none => .error (.badBits (String.ofList bits))
      | some n =>
        if 0 ≤ n ∧ n ≤ ip.family.bits then .ok (ip, n.toNat) else .error .outOfRange

def parsePrefix (text : String) : Except PrefixError (IpAddr × Nat) :=
  (parsePrefixChars text.toList).mapError fun problem => ⟨text, problem⟩

/-! ## The order of prefixes -/

/-- The address with all bits after the first `bits` cleared, as a number. -/
def maskedValue (ip : IpAddr) (bits : Nat) : Nat :=
  ip.value / 2 ^ (ip.family.bits - bits) * 2 ^ (ip.family.bits - bits)

/-- `compare_address`: masked address, length, then the address as it was given. Comparing octets
in order is comparing the numbers. -/
def compareAddress (a : IpAddr) (aBits : Nat) (b : IpAddr) (bBits : Nat) : Ordering :=
  ((compare (maskedValue a aBits) (maskedValue b bBits)).then (compare aBits bBits)).then
    (compare a.value b.value)

/-- Go `Prefix.Compare`: the zero prefix (empty text), then by family and by `compare_address`.
Other text that is no prefix cannot be compared. -/
def prefixCompare (a b : String) : Option Ordering :=
  match prefixParts a, prefixParts b with
  | some none, some none => some .eq
  | some none, some (some _) => some .lt
  | some (some _), some none => some .gt
  | some (some (a, aBits)), some (some (b, bBits)) =>
    match a, b with
    | .v4 _, .v6 _ => some .lt
    | .v6 _, .v4 _ => some .gt
    | _, _ => some (compareAddress a aBits b bBits)
  | _, _ => none
where
  /-- Absent when the text is invalid; `some none` is the zero prefix. -/
  prefixParts (text : String) : Option (Option (IpAddr × Nat)) :=
    if text = "" then some none
    else
      match parsePrefix text with
      | .ok parts => some (some parts)
      | .error _ => none

end Headscale.GoNetip
