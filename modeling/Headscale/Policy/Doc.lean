import Headscale.Policy.Reduce

/-!
# Policy documents

The parsed policy document and how alias text is classified. Maps are lists of entries in key
order.
-/

namespace Headscale.Policy

open GoNetip

inductive AclAction where
  | accept
  | deny
deriving DecidableEq, Repr

/-- A parsed ACL rule. Its ports are in the normalised form `proto/port`. -/
structure AclRule where
  action : AclAction := .accept
  src : List String := []
  dst : List String := []
  ports : List String := []
deriving DecidableEq, Repr

/-- Application capabilities, each with the JSON texts of its values. -/
abbrev CapabilityMap := List (String × List String)

structure GrantRule where
  src : List String := []
  dst : List String := []
  ip : List String := []
  app : CapabilityMap := []
  via : List String := []
deriving DecidableEq, Repr

structure NodeAttrGrant where
  target : List String := []
  attr : List String := []
deriving DecidableEq, Repr

structure AutoApprovers where
  routes : List (String × List String) := []
  exitNode : List String := []
deriving DecidableEq, Repr

structure PolicyTest where
  src : String := ""
  proto : String := ""
  accept : List String := []
  deny : List String := []
deriving DecidableEq, Repr

structure SshRule where
  action : String := ""
  src : List String := []
  dst : List String := []
  users : List String := []
  checkPeriod : Option String := none
  acceptEnv : List String := []
deriving DecidableEq, Repr

structure SshPolicyTest where
  src : String := ""
  dst : List String := []
  accept : List String := []
  deny : List String := []
  check : List String := []
deriving DecidableEq, Repr

structure PolicyUser where
  id : Nat
  name : String := ""
  email : String := ""
  providerIdentifier : Option String := none
deriving DecidableEq, Repr

/-- The document. Without a user directory aliases are matched by label only; with one, even an
empty one, they are resolved through account ids. -/
structure PolicyDoc where
  users : Option (List PolicyUser) := none
  version : Nat := 1
  groups : List (String × List String) := []
  tags : List (String × String) := []
  tagOwners : List (String × List String) := []
  hosts : List (String × String) := []
  autoApprovers : AutoApprovers := {}
  nodeAttrs : List NodeAttrGrant := []
  grants : List GrantRule := []
  randomizeClientPort : Bool := false
  ssh : List SshRule := []
  tests : List PolicyTest := []
  sshTests : List SshPolicyTest := []
  rules : List AclRule := []
deriving DecidableEq, Repr

/-- What the JSON text of a grant says about its `app` beyond the parsed map: whether it is there at
all, and which capabilities were `null`. -/
structure GrantAppShape where
  nonNil : Bool := false
  nilCapabilities : List String := []
deriving DecidableEq, Repr

/-! ## Aliases -/

inductive AliasKind where
  | ipPrefix
  | wildcard
  | username
  | group
  | tag
  | autoGroup
  | host
deriving DecidableEq, Repr

/-- The canonical text of an alias that is an address, its zone dropped, or a prefix. -/
def aliasPrefix (value : String) : Option String := (parseIpNet value).map IpNet.toString

def aliasKind (value : String) : Option AliasKind :=
  if (aliasPrefix value).isSome then some .ipPrefix
  else if value = "*" then some .wildcard
  else if Text.containsChar '@' value then some .username
  else if Text.startsWith "group:" value then some .group
  else if Text.startsWith "tag:" value then some .tag
  else if Text.startsWith "autogroup:" value then some .autoGroup
  else if !Text.containsChar ':' value then some .host
  else none

/-- Whether an entry names a login, with or without a trailing `@` on either side. -/
def userMatchesLogin (entry user : String) : Bool :=
  entry = user ∨ Text.stripLastStr '@' entry = some user ∨ Text.stripLastStr '@' user = some entry

/-! ## Fixed address sets -/

def tailnetFilterSrcs : List String :=
  ["100.115.94.0-100.127.255.255", "100.64.0.0-100.115.91.255", "fd7a:115c:a1e0::/48"]

def wildcardFilterCidrs : List String := ["0.0.0.0/0", "::/0"]

def internetFilterCidrs : List String :=
  ["0.0.0.0/5", "8.0.0.0/7", "11.0.0.0/8", "12.0.0.0/6", "16.0.0.0/4", "32.0.0.0/3",
    "64.0.0.0/3", "96.0.0.0/6", "100.0.0.0/10", "100.128.0.0/9", "101.0.0.0/8", "102.0.0.0/7",
    "104.0.0.0/5", "112.0.0.0/4", "128.0.0.0/3", "160.0.0.0/5", "168.0.0.0/8", "169.0.0.0/9",
    "169.128.0.0/10", "169.192.0.0/11", "169.224.0.0/12", "169.240.0.0/13", "169.248.0.0/14",
    "169.252.0.0/15", "169.255.0.0/16", "170.0.0.0/7", "172.0.0.0/12", "172.32.0.0/11",
    "172.64.0.0/10", "172.128.0.0/9", "173.0.0.0/8", "174.0.0.0/7", "176.0.0.0/4",
    "192.0.0.0/9", "192.128.0.0/11", "192.160.0.0/13", "192.169.0.0/16", "192.170.0.0/15",
    "192.172.0.0/14", "192.176.0.0/12", "192.192.0.0/10", "193.0.0.0/8", "194.0.0.0/7",
    "196.0.0.0/6", "200.0.0.0/5", "208.0.0.0/4", "224.0.0.0/3", "2000::/3"]

end Headscale.Policy
