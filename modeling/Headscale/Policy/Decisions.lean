import Headscale.Policy.Ports

/-!
# Decisions of a policy document

What a document itself decides about nodes: whether a rule admits a connection, whether a node can be
reached, which routes and exit nodes are approved, and which tags a node may have. Groups and tag
owners are walked with the set of names under way, which is as it was when a walk returns; the sets
below are therefore passed down only.

Addresses and prefixes are read by the standard library and by the `ipnet` crate here, whose grammars
are parameters.
-/

namespace Headscale.Policy

open GoNetip Collection Text Option

/-! ## Nodes, ports and addresses -/

/-- What is known of a node when it is matched. -/
structure NodeView where
  addr : Option String := none
  addrs : List String := []
  user : Option String := none
  userId : Option Nat := none
  tags : List String := []
deriving DecidableEq, Repr

/-- An address in both places counts once. -/
def NodeView.anyAddrMatches (view : NodeView) (p : String → Bool) : Bool :=
  view.addr.any p || view.addrs.any fun addr => if some addr = view.addr then false else p addr

/-- A protocol and a port; an absent one stands for any. -/
structure PortRef where
  proto : Option String
  port : Option Nat
deriving DecidableEq, Repr

/-- `str::parse` at the two address types. -/
structure AddressGrammar where
  parseIpNet : String → Option IpNet
  parseIpAddr : String → Option IpAddr

namespace AddressGrammar

variable (grammar : AddressGrammar)

/-- A prefix, or an address as the prefix of its full length. -/
def parseCidr (s : String) : Option IpNet :=
  (grammar.parseIpNet s).or ((grammar.parseIpAddr s).map hostNet)

def addrInCidr (addr cidr : String) : Bool :=
  match grammar.parseCidr cidr, grammar.parseIpAddr addr with
  | some net, some ip => net.contains ip
  | _, _ => false

def nodeAddrInCidr (node : NodeView) (cidr : String) : Bool :=
  node.anyAddrMatches fun addr => grammar.addrInCidr addr cidr

end AddressGrammar

def isDefaultRoute (net : IpNet) : Bool := net.prefixLen = 0

/-! ## Ports -/

/-- The numbers of a protocol as the evaluator knows them; unlike in the filter compiler the empty
name and zero are none. -/
def protoNumbers (proto : List Char) : Option (List Nat) :=
  let lower := String.ofList (proto.map Char.toLower)
  match lower with
  | "icmp" => some [1]
  | "igmp" => some [2]
  | "ipv4" => some [4]
  | "ip-in-ip" => some [4]
  | "tcp" => some [6]
  | "egp" => some [8]
  | "igp" => some [9]
  | "udp" => some [17]
  | "gre" => some [47]
  | "esp" => some [50]
  | "ah" => some [51]
  | "ipv6-icmp" => some [58]
  | "sctp" => some [132]
  | "fc" => some [133]
  | _ => ((parseU16 lower.toList).filter fun n => 1 ≤ n ∧ n ≤ 255).map fun n => [n]

def protoMatches (pattern actual : List Char) : Bool :=
  if pattern.map Char.toLower = actual.map Char.toLower then true
  else
    match protoNumbers pattern, protoNumbers actual with
    | some patterns, some actuals => patterns.any fun p => actuals.contains p
    | _, _ => false

def portPartMatches (portPart : List Char) (port : Nat) : Bool :=
  match splitOnce '-' portPart with
  | some (lo, hi) =>
    match parseU16 lo, parseU16 hi with
    | some lo, some hi => lo ≤ port ∧ port ≤ hi
    | _, _ => false
  | none => (parseU16 portPart).any fun want => port = want

def portMatches (pattern : String) (port : PortRef) : Bool :=
  let (protoPart, portPart) := splitPattern pattern
  (protoPart = ['*'] ∨ port.proto.all fun p => protoMatches protoPart p.toList) ∧
    (portPart = ['*'] ∨ port.port.all fun p => portPartMatches portPart p)

def grantPortMatches (grant : GrantRule) (port : PortRef) : Bool :=
  grant.ip.isEmpty || grant.ip.any fun spec =>
    match normalizeGrantIpSpec spec with
    | .ok patterns => patterns.any fun pattern => portMatches pattern port
    | .error _ => false

def rulePortMatches (rule : AclRule) (port : PortRef) : Bool :=
  rule.ports.isEmpty || rule.ports.any fun pattern => portMatches pattern port

/-! ## Tags and names -/

/-- A tag with or without its prefix. -/
def tagMatches (nodeTag policyTag : String) : Bool :=
  nodeTag = policyTag ∨ stripStartStr "tag:" nodeTag = some policyTag

/-- A name that is already among those under way is not walked again; what is left of a finite set
of names then gets smaller. -/
theorem unvisited_lt {names visiting : List String} {name : String} (hname : name ∈ names)
    (hnew : name ∉ visiting) :
    (names.filter (· ∉ name :: visiting)).length < (names.filter (· ∉ visiting)).length := by
  have hsub : names.filter (· ∉ name :: visiting) =
      (names.filter (· ∉ visiting)).filter (· ≠ name) := by
    rw [List.filter_filter]
    exact List.filter_congr fun other _ => by simp
  rw [hsub]
  refine List.length_filter_lt_length_iff_exists.mpr ⟨name, ?_, by simp⟩
  simp [hname, hnew]

/-! ## The document -/

namespace PolicyDoc

variable (grammar : AddressGrammar) (doc : PolicyDoc)

def covers (outer inner : IpNet) : Bool :=
  if outer.addr.family = inner.addr.family then
    if outer.prefixLen > inner.prefixLen then false else outer.contains inner.network
  else false

def netsOverlap (a b : IpNet) : Bool := covers a b || covers b a

/-! ### Accounts -/

variable (token : String)

/-- A provider identifier first, then the one account with that email or name. -/
def resolveUserValue : Option Nat :=
  match doc.users with
  | none => none
  | some users =>
    match users.find? fun user => user.providerIdentifier = some token with
    | some user => some user.id
    | none =>
      match users.filter fun user => user.email = token ∨ user.name = token with
      | [user] => some user.id
      | _ => none

def resolveUser : Option Nat :=
  doc.resolveUserValue ((stripLastStr '@' token).getD token)

def userMatches (userId : Option Nat) (login : Option String) : Bool :=
  match doc.users with
  | none => login.any fun login => userMatchesLogin token login
  | some _ =>
    match userId.or (login.bind doc.resolveUserValue) with
    | none => false
    | some owner => doc.resolveUser token = some owner

def identityMatches (entry : String) (principal : NodeView) : Bool :=
  (principal.anyAddrMatches fun addr => entry = addr) ||
    (principal.tags.isEmpty && doc.userMatches entry principal.userId principal.user)

/-! ### Groups -/

/-- The short name is tried first. -/
def groupMembers (group : String) : Option (List String) :=
  match stripStartStr "group:" group with
  | some short => (doc.groups.lookup short).or (doc.groups.lookup group)
  | none => doc.groups.lookup group

def canonicalGroupRef (group : String) : String :=
  if startsWith "group:" group then group else "group:" ++ group

/-- A group with members is known under its canonical name. -/
theorem canonicalGroupRef_mem {doc : PolicyDoc} {group : String} {members : List String}
    (h : doc.groupMembers group = some members) : canonicalGroupRef group ∈ groupTokens doc := by
  have hkey : ∀ key found, doc.groups.lookup key = some found →
      key ∈ groupTokens doc ∧ "group:" ++ key ∈ groupTokens doc := by
    intro key found hfound
    have hmem := mem_of_lookup hfound
    exact ⟨List.mem_flatMap.mpr ⟨_, hmem, by simp⟩, List.mem_flatMap.mpr ⟨_, hmem, by simp⟩⟩
  unfold groupMembers at h
  unfold canonicalGroupRef startsWith
  cases hshort : stripStartStr "group:" group with
  | none =>
    rw [hshort] at h
    have hno : stripStart "group:".toList group.toList = none := by
      simpa [stripStartStr] using hshort
    simp only [hno]
    exact (hkey _ _ h).2
  | some short =>
    rw [hshort] at h
    obtain ⟨rest, hrest, -⟩ := map_eq_some_iff.mp hshort
    rw [hrest, isSome_some, if_pos rfl]
    rcases or_eq_some_iff.mp h with hfound | ⟨-, hfound⟩
    · rw [stripStartStr_eq hshort]
      exact (hkey _ _ hfound).2
    · exact (hkey _ _ hfound).1

def groupPrincipalMatches (principal : NodeView) (visiting : List String) (group : String) : Bool :=
  let groupRef := canonicalGroupRef group
  if _ : groupRef ∈ visiting then false
  else
    match _ : doc.groupMembers group with
    | none => false
    | some members =>
      members.any fun member =>
        if startsWith "group:" member then
          groupPrincipalMatches principal (groupRef :: visiting) member
        else doc.identityMatches member principal
termination_by ((groupTokens doc).filter (· ∉ visiting)).length
decreasing_by exact unvisited_lt (canonicalGroupRef_mem (by assumption)) (by assumption)

variable (src principal : NodeView) (visiting : List String) (group : String)

lemma groupPrincipalMatches_eq :
    doc.groupPrincipalMatches principal visiting group =
      if canonicalGroupRef group ∈ visiting then false
      else (doc.groupMembers group).any fun members => members.any fun member =>
        if startsWith "group:" member then
          doc.groupPrincipalMatches principal (canonicalGroupRef group :: visiting) member
        else doc.identityMatches member principal := by
  rw [groupPrincipalMatches]
  split
  · rfl
  · split <;> rename_i hmembers <;> simp [hmembers]

def expandGroupMembers (visiting : List String) (group : String) : List String :=
  let groupRef := canonicalGroupRef group
  if _ : groupRef ∈ visiting then []
  else
    match _ : doc.groupMembers group with
    | none => []
    | some members =>
      members.flatMap fun member =>
        if startsWith "group:" member then expandGroupMembers (groupRef :: visiting) member
        else [member]
termination_by ((groupTokens doc).filter (· ∉ visiting)).length
decreasing_by exact unvisited_lt (canonicalGroupRef_mem (by assumption)) (by assumption)

lemma expandGroupMembers_eq :
    doc.expandGroupMembers visiting group =
      if canonicalGroupRef group ∈ visiting then []
      else ((doc.groupMembers group).getD []).flatMap fun member =>
        if startsWith "group:" member then
          doc.expandGroupMembers (canonicalGroupRef group :: visiting) member
        else [member] := by
  rw [expandGroupMembers]
  split
  · rfl
  · split <;> rename_i hmembers <;> simp [hmembers]

/-! ### Principals -/

def autogroupSelf (peer : NodeView) : Bool :=
  if principal.anyAddrMatches fun a => peer.anyAddrMatches fun b => a = b then true
  else if principal.userId.isSome ∨ peer.userId.isSome then
    principal.tags.isEmpty ∧ peer.tags.isEmpty ∧ principal.userId.isSome ∧
      principal.userId = peer.userId
  else
    match principal.user, peer.user with
    | some a, some b => principal.tags.isEmpty ∧ peer.tags.isEmpty ∧ a = b
    | _, _ => false

def autogroupMatches (kind : String) (principal : NodeView) (peer : Option NodeView) : Bool :=
  if kind = "internet" then internetFilterCidrs.any fun cidr => grammar.nodeAddrInCidr principal cidr
  else if kind = "danger-all" then true
  else if kind = "member" then principal.tags.isEmpty
  else if kind = "nonroot" then principal.tags.isEmpty
  else if kind = "tagged" then !principal.tags.isEmpty
  else
    match stripStartStr "tag:" kind with
    | some tag => principal.tags.any fun t => tagMatches t tag
    | none => if kind = "self" then peer.any fun peer => autogroupSelf principal peer else false

/-- With a user directory a member is a node whose owner is an account. -/
def memberMatches (users : List PolicyUser) (principal : NodeView) : Bool :=
  principal.tags.isEmpty &&
    (principal.userId.or (principal.user.bind doc.resolveUserValue)).any fun owner =>
      users.any fun user => user.id = owner

def autogroupPrincipal (ag : String) (principal : NodeView) (peer : Option NodeView) : Bool :=
  if ag = "member" ∨ ag = "nonroot" then
    match doc.users with
    | some users => doc.memberMatches users principal
    | none => autogroupMatches grammar ag principal peer
  else autogroupMatches grammar ag principal peer

def principalMatchesOne (entry : String) (principal : NodeView) (peer : Option NodeView) : Bool :=
  match aliasPrefix entry with
  | some cidr => grammar.nodeAddrInCidr principal cidr
  | none =>
    if aliasKind entry = some .username then doc.identityMatches entry principal
    else if entry = "*" then true
    else if startsWith "group:" entry then doc.groupPrincipalMatches principal [] entry
    else
      match stripStartStr "tag:" entry with
      | some tag => principal.tags.any fun t => tagMatches t tag
      | none =>
        match stripStartStr "autogroup:" entry with
        | some ag => doc.autogroupPrincipal grammar ag principal peer
        | none =>
          match stripStartStr "host:" entry with
          | some host => (doc.hosts.lookup host).any fun cidr => grammar.nodeAddrInCidr principal cidr
          | none =>
            match doc.hosts.lookup entry with
            | some cidr => grammar.nodeAddrInCidr principal cidr
            | none =>
              if containsChar '/' entry then grammar.nodeAddrInCidr principal entry
              else doc.identityMatches entry principal

def principalMatches (entries : List String) (principal : NodeView) (peer : Option NodeView) : Bool :=
  entries.any fun entry => doc.principalMatchesOne grammar entry principal peer

/-- The literal texts a principal stands for, whoever asks. -/
def expandPrincipal : List String :=
  match aliasPrefix token with
  | some cidr => [cidr]
  | none =>
    if aliasKind token = some .username then [token]
    else if token = "*" then wildcardFilterCidrs
    else if startsWith "group:" token then doc.expandGroupMembers [] token
    else
      match stripStartStr "host:" token with
      | some host => (doc.hosts.lookup host).toList
      | none =>
        match stripStartStr "autogroup:" token with
        | some "internet" => internetFilterCidrs
        | some "member" => wildcardFilterCidrs
        | some "danger-all" => wildcardFilterCidrs
        | some _ => []
        | none =>
          match doc.hosts.lookup token with
          | some cidr => [cidr]
          | none => [token]

/-! ### Routes -/

def principalsOverlapRoutes (principals routes : List String) : Bool :=
  routes.any fun route =>
    match grammar.parseCidr route with
    | none => false
    | some route =>
      principals.any fun principal =>
        (doc.expandPrincipal principal).any fun expanded =>
          (grammar.parseCidr expanded).any fun allowed => netsOverlap allowed route

def expandRouteDestination (destination : String) : List String :=
  if destination = "*" ∨ startsWith "tag:" destination ∨ startsWith "group:" destination then
    []
  else if startsWith "autogroup:" destination then []
  else
    match stripStartStr "host:" destination with
    | some host => (doc.hosts.lookup host).toList
    | none =>
      match doc.hosts.lookup destination with
      | some cidr => [cidr]
      | none => if (grammar.parseCidr destination).isSome then [destination] else []

def routeDestinationsOverlap (destinations : List String) (route : String) : Bool :=
  match grammar.parseCidr route with
  | none => false
  | some route =>
    if isDefaultRoute route then
      destinations.any fun dst => dst = "autogroup:internet" ∨ dst = "*"
    else
      destinations.any fun dst =>
        (doc.expandRouteDestination grammar dst).any fun expanded =>
          (grammar.parseCidr expanded).any fun allowed => netsOverlap allowed route

/-! ### Rules and grants -/

def ruleMatches (rule : AclRule) (src dst : NodeView) (port : PortRef) : Bool :=
  doc.principalMatches grammar rule.src src (some dst) &&
    doc.principalMatches grammar rule.dst dst (some src) && rulePortMatches rule port

/-- `evaluate_with`: the action of the first rule that matches. -/
def evaluateWith (dst : NodeView) (port : PortRef) : AclAction :=
  match doc.rules.find? fun rule => doc.ruleMatches grammar rule src dst port with
  | some rule => rule.action
  | none => .deny

def matchesNodeOrRoute (rule : AclRule) (src : NodeView) (srcRoutes : List String) (dst : NodeView)
    (dstRoutes : List String) (port : PortRef) : Bool :=
  (doc.principalMatches grammar rule.src src (some dst) ||
      doc.principalsOverlapRoutes grammar rule.src srcRoutes) &&
    (doc.principalMatches grammar rule.dst dst (some src) ||
      doc.principalsOverlapRoutes grammar rule.dst dstRoutes) && rulePortMatches rule port

/-- Without `via` a grant reaches the node or its routes; with it only routes of a node that has one
of the tags. -/
def grantMatchesNodeOrRoute (grant : GrantRule) (src : NodeView) (srcRoutes : List String)
    (dst : NodeView) (dstRoutes : List String) (port : PortRef) : Bool :=
  if !grantPortMatches grant port then false
  else if !(doc.principalMatches grammar grant.src src none ||
      doc.principalsOverlapRoutes grammar grant.src srcRoutes) then false
  else if grant.via.isEmpty then
    doc.principalMatches grammar grant.dst dst (some src) ||
      doc.principalsOverlapRoutes grammar grant.dst dstRoutes
  else
    (grant.via.any fun via =>
      (stripStartStr "tag:" via).any fun tag => dst.tags.any fun dstTag => tagMatches dstTag tag) &&
      dstRoutes.any fun route => doc.routeDestinationsOverlap grammar grant.dst route

def canAccessNode (srcRoutes : List String) (dst : NodeView) (dstRoutes : List String)
    (port : PortRef) : Bool :=
  match doc.rules.find? fun rule =>
      doc.matchesNodeOrRoute grammar rule src srcRoutes dst dstRoutes port with
  | some rule => rule.action = .accept
  | none => doc.grants.any fun grant =>
      doc.grantMatchesNodeOrRoute grammar grant src srcRoutes dst dstRoutes port

/-! ### Tags -/

def userMatchesTagOwner (userId : Option Nat) (user : Option String) (owner : String) : Bool :=
  if containsChar '@' owner then doc.userMatches owner userId user
  else if startsWith "tag:" owner then false
  else
    match stripStartStr "group:" owner with
    | some group =>
      ((doc.groups.lookup owner).or (doc.groups.lookup group)).any fun members =>
        members.any fun member => containsChar '@' member && doc.userMatches member userId user
    | none => false

def userCanHaveTag (userId : Option Nat) (user : Option String) (tag : String) : Bool :=
  match doc.tagOwners.lookup tag with
  | none => false
  | some owners => owners.any fun owner => doc.userMatchesTagOwner userId user owner

def tagNames : List String := doc.tagOwners.map (·.1)

def tagOwnerMatches (node : NodeView) (visiting : List String) (owner : String) : Bool :=
  if containsChar '@' owner then doc.userMatchesTagOwner node.userId node.user owner
  else
    match stripStartStr "tag:" owner with
    | none => doc.userMatchesTagOwner node.userId node.user owner
    | some tag =>
      let ownerTag := "tag:" ++ tag
      if _ : ownerTag ∈ visiting then false
      else
        match _ : doc.tagOwners.lookup ownerTag with
        | none => false
        | some owners => owners.any fun owner => tagOwnerMatches node (ownerTag :: visiting) owner
termination_by (doc.tagNames.filter (· ∉ visiting)).length
decreasing_by
  exact unvisited_lt (List.mem_map.mpr ⟨_, mem_of_lookup (by assumption), rfl⟩) (by assumption)

lemma tagOwnerMatches_eq (node : NodeView) (visiting : List String) (owner : String) :
    doc.tagOwnerMatches node visiting owner =
      if containsChar '@' owner then doc.userMatchesTagOwner node.userId node.user owner
      else
        match stripStartStr "tag:" owner with
        | none => doc.userMatchesTagOwner node.userId node.user owner
        | some tag =>
          if "tag:" ++ tag ∈ visiting then false
          else (doc.tagOwners.lookup ("tag:" ++ tag)).any fun owners =>
            owners.any fun owner => doc.tagOwnerMatches node (("tag:" ++ tag) :: visiting) owner := by
  rw [tagOwnerMatches]
  split
  · rfl
  split
  · rfl
  simp only
  split
  · rfl
  · split <;> rename_i howners <;> simp [howners]

/-- The addresses of untagged nodes whose owners own the tag, then the user of the node. -/
def nodeCanHaveTagWithNodes (node : NodeView) (tag : String) (nodes : List NodeView) : Bool :=
  match doc.tagOwners.lookup tag with
  | none => false
  | some owners =>
    (nodes.any fun candidate =>
      if !candidate.tags.isEmpty then false
      else if !(owners.any fun owner => doc.tagOwnerMatches candidate [] owner) then false
      else
        candidate.anyAddrMatches fun address =>
          match grammar.parseIpAddr address with
          | none => false
          | some address => node.anyAddrMatches fun value => grammar.parseIpAddr value = some address) ||
      doc.userCanHaveTag node.userId node.user tag

/-! ### Approvals -/

def autoApproverMatches (node : NodeView) : Bool :=
  if containsChar '@' token then doc.identityMatches token node
  else doc.principalMatchesOne grammar token node none

def autoApprovesRoute (node : NodeView) (route : String) : Bool :=
  match grammar.parseCidr route with
  | none => false
  | some advertised =>
    if isDefaultRoute advertised then false
    else
      doc.autoApprovers.routes.any fun (key, principals) =>
        match grammar.parseCidr key with
        | none => false
        | some approver =>
          if !covers approver advertised then false
          else principals.any fun token => doc.autoApproverMatches grammar token node

def autoApprovesExitNode (node : NodeView) : Bool :=
  if doc.autoApprovers.exitNode.isEmpty then false
  else doc.autoApprovers.exitNode.any fun token => doc.autoApproverMatches grammar token node

end PolicyDoc

end Headscale.Policy
