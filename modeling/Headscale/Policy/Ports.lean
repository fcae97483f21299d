import Headscale.Policy.Resolution

/-!
# Port and protocol patterns

ACL rules carry normalised patterns such as `tcp/22` or `*/80-90`; grants carry `ip` entries that
are normalised to the same form first. Patterns compile to groups of port ranges by protocol.
Anything that does not parse is dropped, which only makes the filter tighter.
-/

namespace Headscale.Policy

open Text

/-- The protocols of a group and its port ranges. -/
abbrev PortGroup := List Int × List PortRange

def allPorts : PortRange := ⟨0, 65535⟩

/-! ## Patterns -/

/-- `str::parse` of a port. -/
def parseU16 (cs : List Char) : Option Nat := (parseInt 0 65535 cs).map Int.toNat

/-- The protocol and the port of a pattern; a missing port is `*`. -/
def splitPattern (pattern : String) : List Char × List Char :=
  let text := (stripStart "*:".toList pattern.toList).getD pattern.toList
  (splitOnce '/' text).getD (text, ['*'])

def portPatternToRange (pattern : String) : Option PortRange :=
  let port := (splitPattern pattern).2
  if port = ['*'] then some allPorts
  else
    match splitOnce '-' port with
    | some (lo, hi) =>
      match parseU16 lo, parseU16 hi with
      | some lo, some hi => if hi < lo then none else some ⟨lo, hi⟩
      | _, _ => none
    | none => (parseU16 port).map fun p => ⟨p, p⟩

/-- The number of a protocol, by its lower-case name or in decimal; no name means any protocol. -/
def protocolNumbers (proto : List Char) : Option (List Int) :=
  let lower := String.ofList (proto.map Char.toLower)
  match lower with
  | "" => some []
  | "icmp" => some [1]
  | "igmp" => some [2]
  | "ipv4" => some [4]
  | "ip-in-ip" => some [4]
  | "tcp" => some [6]
  | "egp" => some [8]
  | "igp" => some [9]
  | "udp" => some [17]
  | "gre" => some [47]
  | "esp" => some [50]
  | "ah" => some [51]
  | "ipv6-icmp" => some [58]
  | "sctp" => some [132]
  | "fc" => some [133]
  | _ =>
    ((parseInt (-2 ^ 31) (2 ^ 31 - 1) lower.toList).filter fun n => 0 ≤ n ∧ n ≤ 255).map
      fun n => [n]

def ipProtoForPattern (pattern : String) : Option (List Int) :=
  let proto := (splitPattern pattern).1
  if proto = ['*'] then some [] else protocolNumbers proto

/-- Adds a range to the first group of its protocol, or opens a group. -/
def addRange (groups : List PortGroup) (proto : List Int) (range : PortRange) : List PortGroup :=
  match groups with
  | [] => [(proto, [range])]
  | (p, ranges) :: rest =>
    if p = proto then (p, ranges ++ [range]) :: rest else (p, ranges) :: addRange rest proto range

def compilePortGroups (ports : List String) : List PortGroup :=
  if ports = [] then [([], [allPorts])]
  else
    ports.foldl (fun groups pattern =>
      match portPatternToRange pattern, ipProtoForPattern pattern with
      | some range, some proto => addRange groups proto range
      | _, _ => groups) []

/-! ## Ports and protocols of the source -/

inductive PortError where
  | integer
  | outOfRange
  | format
  | reversed
  | zero
deriving DecidableEq, Repr

def PortError.text : PortError → String
  | .integer => "invalid first integer"
  | .outOfRange => "port number out of range"
  | .format => "invalid port range format"
  | .reversed => "invalid port range: first port is greater than last port"
  | .zero => "first port must be >0, or use '*' for wildcard"

/-- A port of the source: an integer as Go reads it, in the range of ports. -/
def parseUpstreamPort (cs : List Char) : Except PortError Nat :=
  match parseInt (-2 ^ 63) (2 ^ 63 - 1) cs with
  | none => .error .integer
  | some n => if 0 ≤ n ∧ n ≤ 65535 then .ok n.toNat else .error .outOfRange

/-- One entry of a comma-separated port list: a range with two ends, or a port other than zero. -/
def parseGoPortRange (part : List Char) : Except PortError PortRange :=
  if '-' ∈ part then
    match (splitAll '-' part).filter (· ≠ []) with
    | [first, last] =>
      (parseUpstreamPort first).bind fun first =>
        (parseUpstreamPort last).bind fun last =>
          if first > last then .error .reversed else .ok ⟨first, last⟩
    | _ => .error .format
  else
    (parseUpstreamPort part).bind fun port =>
      if port = 0 then .error .zero else .ok ⟨port, port⟩

def parseGoPortRanges (spec : List Char) : Except PortError (List PortRange) :=
  if spec = ['*'] then .ok [allPorts] else (splitAll ',' spec).mapM parseGoPortRange

inductive ProtoError where
  | star
  | leadingZero (proto : String)
  | outOfRange (number : Int)
  | unknown (proto : String)
deriving DecidableEq, Repr

def ProtoError.text (quote : String → String) : ProtoError → String
  | .star => "proto name \"*\" not known; use protocol number 0-255 or protocol name (icmp, tcp, " ++
      "udp, etc.)"
  | .leadingZero proto => "leading 0 not permitted in protocol number: " ++ quote proto
  | .outOfRange number => "protocol number out of range (0-255): " ++ toString number
  | .unknown proto => "invalid protocol number: " ++ quote proto ++
      " must be a known protocol name or valid protocol number 0-255"

/-- Protocols of the source: a known name, or a number without a leading zero. -/
def validateUpstreamProto (proto : List Char) : Except ProtoError Unit :=
  if String.ofList proto ∈ ["", "icmp", "igmp", "ipv4", "ip-in-ip", "tcp", "egp", "igp", "udp",
      "gre", "esp", "ah", "ipv6-icmp", "sctp", "fc"] then .ok ()
  else if proto = ['*'] then .error .star
  else if proto.head? = some '0' then .error (.leadingZero (String.ofList proto))
  else
    match parseInt (-2 ^ 63) (2 ^ 63 - 1) proto with
    | some n => if 0 ≤ n ∧ n ≤ 255 then .ok () else .error (.outOfRange n)
    | none => .error (.unknown (String.ofList proto))

/-! ## Grant entries -/

/-- Why an `ip` entry of a grant is malformed. -/
inductive GrantIpError where
  | colons (parts : List String)
  | protocol (error : ProtoError)
  | ports (spec : String) (error : PortError)
deriving DecidableEq, Repr

def GrantIpError.text (quote : String → String) : GrantIpError → String
  | .colons parts => "expected only one colon in Internet protocol and port type, got: [" ++
      " ".intercalate parts ++ "](" ++ toString parts.length ++ ")"
  | .protocol error => error.text quote
  | .ports spec error => "port range " ++ quote spec ++ ": " ++ error.text

def normalizedPortPatterns (proto : List Char) (ranges : List PortRange) : List String :=
  ranges.map fun range =>
    let port :=
      if range = allPorts then ['*']
      else if range.first = range.last then decimal range.first
      else decimal range.first ++ '-' :: decimal range.last
    String.ofList ((if proto = [] then ['*'] else proto) ++ '/' :: port)

/-- The patterns of a grant's `ip` entry. -/
def normalizeGrantIpSpec (spec : String) : Except GrantIpError (List String) :=
  let patterns (proto ports : List Char) : Except GrantIpError (List String) :=
    match parseGoPortRanges ports with
    | .ok ranges => .ok (normalizedPortPatterns proto ranges)
    | .error error => .error (.ports (String.ofList ports) error)
  let text := spec.toList
  if text = ['*'] then patterns ['*'] ['*']
  else if ':' ∈ text then
    match splitAll ':' text with
    | [proto, ports] =>
      match validateUpstreamProto proto with
      | .ok () => patterns proto ports
      | .error error => .error (.protocol error)
    | parts => .error (.colons (parts.map String.ofList))
  else patterns ['*'] text

def compileGrantPortGroups (specs : List String) : List PortGroup :=
  specs.flatMap fun spec =>
    match (normalizeGrantIpSpec spec).toOption.getD [] with
    | [] => []
    | ports => compilePortGroups ports

example : compileGrantPortGroups ["tcp:22,80-90", "*"] =
    [([6], [⟨22, 22⟩, ⟨80, 90⟩]), ([], [allPorts])] := by decide +kernel

end Headscale.Policy
