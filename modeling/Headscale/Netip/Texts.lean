import Headscale.Routes.Primary

/-!
# Canonical texts

`addr_text`, `prefix_text` and `addr_port_text` read a text and print what they read. What they print
reads as the same value, zone and all, so that a text printed once stays as it is. The empty text is
the zero value of each type.
-/

namespace Headscale.GoNetip

open IpAddr Option Text

/-! ## Printing -/

/-- `Ipv6Addr::to_ipv4_mapped`. -/
def toIpv4Mapped (value : Fin (2 ^ 128)) : Option IpAddr :=
  if value.val / 2 ^ 32 = 0xffff then some (.ofNat .v4 (value.val % 2 ^ 32)) else none

/-- The address without its zone. -/
def unzonedText : IpAddr → String
  | .v6 value =>
    match toIpv4Mapped value with
    | some ipv4 => "::ffff:" ++ ipv4.toString
    | none => (v6 value).toString
  | .v4 value => (v4 value).toString

def addressText (ip : IpAddr) (zone : Option String) : String :=
  match zone with
  | some zone => unzonedText ip ++ "%" ++ zone
  | none => unzonedText ip

def addrText (text : String) : Option String :=
  if text = "" then some ""
  else
    match parseAddr text with
    | .ok (ip, zone) => some (addressText ip zone)
    | .error _ => none

def prefixText (text : String) : Option String :=
  if text = "" then some "" else (Routes.parsePrefixText text).toOption

/-! ## Addresses with a port -/

/-- One digit of a port; neither the product nor the sum may overflow 16 bits. -/
def portStep (value : Nat) (c : Char) : Option Nat :=
  match decDigit c with
  | none => none
  | some digit =>
    if value * 10 > 65535 then none
    else if value * 10 + digit > 65535 then none
    else some (value * 10 + digit)

/-- `decimal`. -/
def portDecimal (text : List Char) : Option Nat :=
  if text = [] then none else text.foldlM portStep 0

/-- The text inside brackets, or all of it where it does not start with one. -/
def unbracket : List Char → Option (List Char × Bool)
  | '[' :: ip => (stripLast ']' ip).map fun ip => (ip, true)
  | ip => some (ip, false)

/-- An address, its zone and a port. -/
structure AddrPort where
  ip : IpAddr
  zone : Option String
  port : Nat
deriving DecidableEq, Repr

/-- What `addr_port_text` reads. Only an IPv6 address stands in brackets, and it always does. -/
def addrPort (text : String) : Option AddrPort := do
  let (ip, port) ← rsplitOnce ':' text.toList
  let (ip, bracketed) ← unbracket ip
  let (ip, zone) ← (parseAddress ip).toOption
  if decide (ip.family = .v6) ≠ bracketed then none
  else
    let port ← portDecimal port
    return ⟨ip, zone, port⟩

def AddrPort.text (parts : AddrPort) : String :=
  let ip := addressText parts.ip parts.zone
  let port := String.ofList (decimal parts.port)
  if parts.ip.family = .v6 then "[" ++ ip ++ "]:" ++ port else ip ++ ":" ++ port

def addrPortText (text : String) : Option String :=
  if text = "" then some "" else (addrPort text).map AddrPort.text

/-! ## Printed addresses -/

/-- `Display` writes mapped addresses the same way. -/
theorem unzonedText_eq (ip : IpAddr) : unzonedText ip = ip.toString := by
  cases ip with
  | v4 value => rfl
  | v6 value =>
    have hlow : (ofNat .v4 (value.val % 2 ^ 32)).chars = v4Chars (value.val % 2 ^ 32) := by
      change v4Chars (value.val % 2 ^ 32 % 2 ^ 32) = _
      rw [Nat.mod_mod]
    rw [unzonedText, toIpv4Mapped]
    by_cases hmapped : value.val / 2 ^ 32 = 0xffff
    · rw [if_pos hmapped]
      apply String.toList_inj.mp
      simp only [String.toList_append, IpAddr.toString, String.toList_ofList, hlow]
      change _ = v6Chars value
      rw [v6Chars, if_pos hmapped]
    · rw [if_neg hmapped]

lemma parseAddr_addressText_none (ip : IpAddr) : parseAddr (addressText ip none) = .ok (ip, none) := by
  rw [addressText, unzonedText_eq, parseAddr_toString]

lemma parseAddr_addressText_zone (value : Fin (2 ^ 128)) {zone : String} (hzone : zone ≠ "") :
    parseAddr (addressText (.v6 value) (some zone)) = .ok (.v6 value, some zone) := by
  have hchars : zone.toList ≠ [] := by simpa using hzone
  have hparse := parseAddress_zoned value.isLt hchars
  rw [show ofNat .v6 value = .v6 value from ofNat_family_value (.v6 value),
    String.ofList_toList] at hparse
  rw [parseAddr, ← hparse, addressText, unzonedText_eq]
  simp [IpAddr.toString, chars]

/-- An address that was read is read again from its text. -/
theorem parseAddr_addressText {text : List Char} {ip : IpAddr} {zone : Option String}
    (h : parseAddress text = .ok (ip, zone)) : parseAddr (addressText ip zone) = .ok (ip, zone) := by
  cases zone with
  | none => exact parseAddr_addressText_none ip
  | some zone =>
    obtain ⟨hfamily, hzone⟩ := zone_of_parseAddress h
    cases ip with
    | v4 value => cases hfamily
    | v6 value => exact parseAddr_addressText_zone value (by simpa using hzone)

variable {text canonical : String}

lemma addrText_canonical (h : addrText text = some canonical) :
    addrText canonical = some canonical ∧ parseAddr canonical = parseAddr text := by
  unfold addrText at h
  split at h
  · rename_i hempty
    cases h
    exact ⟨rfl, by rw [hempty]⟩
  split at h <;> cases h
  rename_i ip zone hparse
  have hread := parseAddr_addressText hparse
  have hne : addressText ip zone ≠ "" := by
    intro hempty
    rw [hempty] at hread
    cases hread
  exact ⟨by rw [addrText, if_neg hne, hread], by rw [hread, hparse]⟩

/-! ## Printed prefixes -/

lemma prefixText_canonical (h : prefixText text = some canonical) :
    prefixText canonical = some canonical ∧ parsePrefix canonical = parsePrefix text := by
  unfold prefixText at h
  split at h
  · rename_i hempty
    obtain rfl := Option.some.inj h
    exact ⟨rfl, by rw [hempty]⟩
  cases hprinted : Routes.parsePrefixText text with
  | error e =>
    rw [hprinted] at h
    cases h
  | ok route =>
    rw [hprinted] at h
    obtain rfl := Option.some.inj h
    have hagain := Routes.canonical_of_parse hprinted
    have hne : route ≠ "" := by
      rintro rfl
      exact absurd hagain (by unfold Routes.Canonical; decide)
    refine ⟨by rw [prefixText, if_neg hne, hagain]; rfl, ?_⟩
    obtain ⟨⟨ip, bits⟩, hparse, hroute⟩ := Result.bind_eq_ok.mp hprinted
    cases hroute
    rw [hparse, ← parsePrefix_toString ⟨ip, bits, Routes.parsePrefix_bits hparse⟩]
    congr 1
    apply String.toList_inj.mp
    simp [IpNet.toString, IpNet.chars, IpAddr.toString]

/-! ## Printed ports -/

lemma portStep_le {value n : Nat} {c : Char} (h : portStep value c = some n) : n ≤ 65535 := by
  unfold portStep at h
  split at h
  · cases h
  split at h
  · cases h
  · split at h <;> cases h
    omega

lemma foldlM_portStep_le {text : List Char} {value n : Nat} (hvalue : value ≤ 65535)
    (h : text.foldlM portStep value = some n) : n ≤ 65535 := by
  induction text generalizing value with
  | nil =>
    cases h
    exact hvalue
  | cons c rest ih =>
    obtain ⟨next, hstep, hrest⟩ := bind_eq_some_iff.mp h
    exact ih (portStep_le hstep) hrest

lemma portDecimal_le {text : List Char} {n : Nat} (h : portDecimal text = some n) : n ≤ 65535 := by
  unfold portDecimal at h
  split at h
  · cases h
  · exact foldlM_portStep_le (by decide) h

/-- A printed port is read back. -/
theorem portDecimal_decimal {n : Nat} (hn : n ≤ 65535) : portDecimal (decimal n) = some n := by
  have hstep : ∀ value d rest, d < 10 → value * 10 + d ≤ 65535 →
      List.foldlM portStep value (d.digitChar :: rest) =
        List.foldlM portStep (value * 10 + d) rest := by
    intro value d rest hd hle
    have : portStep value d.digitChar = some (value * 10 + d) := by
      rw [portStep, decDigit_digitChar hd]
      simp only
      rw [if_neg (by omega), if_neg (by omega)]
    rw [List.foldlM_cons, this]
    rfl
  have hread := read_toDigits (b := 10) (by decide) 65535 (List.foldlM portStep 0)
    (fun value rest => rest.foldlM portStep value)
    (fun d rest hd hle => by simpa using hstep 0 d rest hd (by omega))
    (fun value d rest _ hd hle => hstep value d rest hd hle) n hn []
  rw [portDecimal, if_neg (decimal_ne_nil n), decimal, ← List.append_nil (Nat.toDigits 10 n),
    hread]
  rfl

/-! ## Printed addresses with a port -/

lemma unbracket_v4 (value : Fin (2 ^ 32)) :
    unbracket (v4 value).toString.toList = some ((v4 value).toString.toList, false) := by
  have hbracket : '[' ∉ (v4 value).toString.toList := by
    rw [IpAddr.toString, String.toList_ofList]
    exact not_mem_v4Chars (by decide) (by decide) value
  unfold unbracket
  split
  · rename_i ip hip
    rw [hip] at hbracket
    simp at hbracket
  · rfl

/-- What was read with a port is read again from its text. -/
theorem addrPort_text {text : List Char} {ip : IpAddr} {zone : Option String} {port : Nat}
    (hparse : parseAddress text = .ok (ip, zone)) (hport : port ≤ 65535) :
    addrPort (AddrPort.text ⟨ip, zone, port⟩) = some ⟨ip, zone, port⟩ := by
  have hcolon : ':' ∉ decimal port := not_mem_decimal (by decide) port
  have hread : parseAddress (addressText ip zone).toList = .ok (ip, zone) :=
    parseAddr_addressText hparse
  cases hip : ip with
  | v6 value =>
    have hchars : (AddrPort.text ⟨.v6 value, zone, port⟩).toList =
        '[' :: ((addressText (.v6 value) zone).toList ++ [']']) ++ ':' :: decimal port := by
      simp [AddrPort.text, family]
    rw [hip] at hread
    rw [addrPort, hchars, rsplitOnce_append hcolon]
    simp [unbracket, stripLast, hread, portDecimal_decimal hport, Except.toOption, family]
  | v4 value =>
    -- an IPv4 address has no zone, so no bracket can stand at the start of its text
    obtain rfl : zone = none := by
      cases zone with
      | none => rfl
      | some zone =>
        have hfamily := (zone_of_parseAddress hparse).1
        rw [hip] at hfamily
        cases hfamily
    have haddress : addressText (.v4 value) none = (v4 value).toString := rfl
    have hchars : (AddrPort.text ⟨.v4 value, none, port⟩).toList =
        (v4 value).toString.toList ++ ':' :: decimal port := by
      simp [AddrPort.text, family, haddress]
    rw [hip, haddress] at hread
    rw [addrPort, hchars, rsplitOnce_append hcolon]
    simp [unbracket_v4, hread, portDecimal_decimal hport, Except.toOption, family]

/-- What was read came from an address and a port of 16 bits. -/
theorem addrPort_eq_some {text : String} {parts : AddrPort} (h : addrPort text = some parts) :
    (∃ address, parseAddress address = .ok (parts.ip, parts.zone)) ∧ parts.port ≤ 65535 := by
  simp only [addrPort, bind_eq_bind, bind_eq_some_iff] at h
  obtain ⟨⟨address, port⟩, -, ⟨address', bracketed⟩, -, ⟨ip, zone⟩, hparse, h⟩ := h
  split at h
  · cases h
  obtain ⟨n, hn, h⟩ := bind_eq_some_iff.mp h
  cases h
  refine ⟨⟨address', ?_⟩, portDecimal_le hn⟩
  cases hread : parseAddress address' with
  | error e =>
    rw [hread] at hparse
    cases hparse
  | ok found =>
    rw [hread] at hparse
    exact congrArg Except.ok (Option.some.inj hparse)

lemma addrPortText_canonical (h : addrPortText text = some canonical) :
    addrPortText canonical = some canonical ∧ addrPort canonical = addrPort text := by
  unfold addrPortText at h
  split at h
  · rename_i hempty
    cases h
    exact ⟨rfl, by rw [hempty]⟩
  obtain ⟨parts, hparts, rfl⟩ := map_eq_some_iff.mp h
  obtain ⟨⟨address, haddress⟩, hport⟩ := addrPort_eq_some hparts
  have hread : addrPort parts.text = some parts := addrPort_text haddress hport
  have hne : parts.text ≠ "" := by
    intro hempty
    rw [hempty] at hread
    cases hread
  exact ⟨by rw [addrPortText, if_neg hne, hread, map_some], by rw [hread, hparts]⟩

/-- Every address is read from its text, with any zone an IPv6 address can have; and whatever is
accepted is printed as a text that stands for the same value and is printed as itself. -/
theorem texts_are_canonical :
    (∀ ip, parseAddr (addressText ip none) = .ok (ip, none)) ∧
    (∀ value zone, zone ≠ "" →
      parseAddr (addressText (.v6 value) (some zone)) = .ok (.v6 value, some zone)) ∧
    (∀ text canonical, addrText text = some canonical →
      addrText canonical = some canonical ∧ parseAddr canonical = parseAddr text) ∧
    (∀ text canonical, prefixText text = some canonical →
      prefixText canonical = some canonical ∧ parsePrefix canonical = parsePrefix text) ∧
    (∀ text canonical, addrPortText text = some canonical →
      addrPortText canonical = some canonical ∧ addrPort canonical = addrPort text) :=
  ⟨parseAddr_addressText_none, fun value _ hzone => parseAddr_addressText_zone value hzone,
    fun _ _ => addrText_canonical, fun _ _ => prefixText_canonical,
    fun _ _ => addrPortText_canonical⟩

theorem zoned_address_with_port_is_canonical :
    parseAddr (addressText (.v6 1) (some "eth0")) = .ok (.v6 1, some "eth0") ∧
    addrText "0::1" = some "::1" ∧ addrText "::1" = some "::1" ∧
    prefixText "0::1/64" = some "::1/64" ∧ prefixText "::1/64" = some "::1/64" ∧
    addrPortText "[0::1%a]b]:080" = some "[::1%a]b]:80" ∧
    addrPortText "[::1%a]b]:80" = some "[::1%a]b]:80" := by
  have haddr : addrText "0::1" = some "::1" := by decide +kernel
  have hprefix : prefixText "0::1/64" = some "::1/64" := by decide +kernel
  have hport : addrPortText "[0::1%a]b]:080" = some "[::1%a]b]:80" := by decide +kernel
  exact ⟨texts_are_canonical.2.1 1 "eth0" (by decide), haddr,
    (texts_are_canonical.2.2.1 _ _ haddr).1, hprefix, (texts_are_canonical.2.2.2.1 _ _ hprefix).1,
    hport, (texts_are_canonical.2.2.2.2 _ _ hport).1⟩

end Headscale.GoNetip
