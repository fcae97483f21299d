import Headscale.Policy.Ports

/-!
# Compiling a document into filter rules

The document's grants, and after them each destination of its accept rules, compile to filter rules
over the retained nodes. A grant with `via` tags or with `autogroup:self` compiles for one receiver;
everything else is the same for all nodes. The source appends rules to one output vector; here each
function returns what it appends.
-/

namespace Headscale.Policy

open GoNetip Collection IpSet

/-! ## Grants -/

structure FilterGrant where
  sources : List String
  destinations : List String
  ports : List PortGroup
  via : List String := []
  app : Option CapabilityMap := none
  appShape : Option GrantAppShape := none
deriving DecidableEq, Repr

/-- How many rules at the front of the document are projections of its grants. -/
def projectedNetworkGrants (grants : List GrantRule) : Nat :=
  grants.countP fun grant => grant.via = [] ∧ grant.ip ≠ []

/-- The order a rule's destinations compile in: `autogroup:self` last, unless the rule has
autogroups only. -/
def orderedDestinations (dsts : List String) : List String :=
  if dsts.any fun dst => aliasKind dst ≠ some .autoGroup then
    dsts.filter (· ≠ "autogroup:self") ++ dsts.filter (· = "autogroup:self")
  else dsts

variable (doc : PolicyDoc) (node : PacketFilterNode) (grant : FilterGrant) (tokens : List String)
  (nodes : List PacketFilterNode) (apps : List GrantAppShape)

def grantFilterGrant (entry : GrantRule × Nat) : FilterGrant :=
  let (grant, index) := entry
  let shape := apps[index]?
  { sources := grant.src
    destinations := grant.dst
    ports := compileGrantPortGroups grant.ip
    via := grant.via
    app := if grant.app ≠ [] ∨ shape.any (·.nonNil) then some grant.app else none
    appShape := shape }

def ruleFilterGrants (rule : AclRule) : List FilterGrant :=
  if rule.action = .accept then
    (orderedDestinations rule.dst).map fun dst =>
      { sources := rule.src, destinations := [dst], ports := compilePortGroups rule.ports }
  else []

def filterGrants : List FilterGrant :=
  doc.grants.zipIdx.map (grantFilterGrant apps) ++
    (doc.rules.drop (projectedNetworkGrants doc.grants)).flatMap ruleFilterGrants

/-! ## Owners -/

inductive NodeOwnerKey where
  | id (id : Nat)
  | user (name : String)
deriving DecidableEq, Repr

def NodeOwnerKey.Le : NodeOwnerKey → NodeOwnerKey → Prop
  | .id a, .id b => a ≤ b
  | .id _, .user _ => True
  | .user _, .id _ => False
  | .user a, .user b => a ≤ b

instance : DecidableRel NodeOwnerKey.Le := fun a b => by
  cases a <;> cases b <;> unfold NodeOwnerKey.Le <;> infer_instance

def nodeOwnerKey : Option NodeOwnerKey :=
  match node.userId with
  | some id => some (.id id)
  | none => (node.user.filter (· ≠ "")).map .user

def isUntaggedUserOwned : Bool :=
  node.tags = [] ∧ (nodeOwnerKey node).isSome = true

/-- The untagged nodes of an owner. -/
def ownerNodes (owner : NodeOwnerKey) : List PacketFilterNode :=
  nodes.filter fun node => isUntaggedUserOwned node ∧ nodeOwnerKey node = some owner

def sameUserUntaggedNodes (node : PacketFilterNode) :
    List PacketFilterNode :=
  match nodeOwnerKey node with
  | none => []
  | some owner => ownerNodes nodes owner

/-- The owners of untagged nodes, in key order. -/
def ownerKeys : List NodeOwnerKey :=
  (((nodes.filter fun node => node.tags = []).filterMap nodeOwnerKey).foldl
    pushUnique []).insertionSort NodeOwnerKey.Le

/-! ## Addresses -/

/-- The routes of all nodes but exit routes, without repetitions. -/
def approvedSubnetRoutes : List String :=
  ((nodes.flatMap PacketFilterNode.routes).filter fun route => !isExitRoute route).foldl
    pushUnique []

def nodeAddrPrefixes : List String :=
  node.addrs.filterMap addrPrefixString

/-- The node's addresses in canonical text, zones kept. -/
def nodeIpStrings : List String :=
  node.addrs.map fun addr =>
    match parseAddr addr with
    | .error _ => "invalid IP"
    | .ok (ip, none) => ip.toString
    | .ok (ip, some zone) => ip.toString ++ "%" ++ zone

def prefixContainsAddr (value addr : String) : Bool :=
  (parseIpNet value).any fun net => netContainsAddr net addr

def ipsetStringContainsAddr (ipset addr : String) : Bool :=
  if prefixContainsAddr ipset addr then true
  else
    match Text.splitOnce '-' ipset.toList, parseAddr addr with
    | some (start, stop), .ok (ip, none) =>
      match parseAddress start, parseAddress stop with
      | .ok (a, _), .ok (b, _) =>
        a.family = ip.family ∧ b.family = ip.family ∧ a.value ≤ ip.value ∧ ip.value ≤ b.value
      | _, _ => false
    | _, _ => false

/-- One of the node's addresses is in one of the prefixes or ranges. -/
def anyIpMatches (prefixes : List String) (node : PacketFilterNode) : Bool :=
  node.addrs.any fun addr => prefixes.any fun p => ipsetStringContainsAddr p addr

/-- The addresses of the nodes inside the prefixes, as an aggregated set; nothing when one of those
nodes has an address that does not parse. -/
def nodesMatchingPrefixes (prefixes : List String) :
    List String :=
  let matched := nodes.filter (anyIpMatches prefixes)
  if matched.any fun node => node.addrs.any fun addr => !(parseAddr addr).isOk then []
  else (fromStrings (matched.flatMap nodeAddrPrefixes)).strings

def prefixesOverlap (a b : String) : Bool :=
  match parseIpNet a, parseIpNet b with
  | some a, some b => netsOverlap a b
  | _, _ => false

def dstPortIpString (ip : String) : String :=
  match parseIpNet ip with
  | none => ip
  | some net => if isSingleIp net then net.addr.toString else net.toString

/-! ## Sources and destinations -/

/-- The source strings of a grant: the merged set, then the approved routes when a wildcard is among
the tokens, and for regular grants also the sets of the other tokens. -/
def sourceStrings (preserveNonwildcard : Bool) : List String :=
  if "autogroup:self" ∈ tokens then []
  else
    let resolved := tokens.map fun token => (resolveAlias doc token nodes).partialIps
    let merged := (fromStrings resolved.flatten).strings
    if merged = [] then []
    else
      let wildcard : Bool := "*" ∈ tokens
      let base :=
        if "autogroup:danger-all" ∈ tokens then ["*"]
        else if wildcard then merged ++ approvedSubnetRoutes nodes
        else merged
      if wildcard && preserveNonwildcard then
        (((tokens.zip resolved).filter fun entry => entry.1 ≠ "*").flatMap fun entry =>
          (fromStrings entry.2).strings).foldl pushUnique base
      else base

def resolveSources :
    List String := sourceStrings doc tokens nodes true

/-- Source prefixes, token by token. -/
def resolveCompanionSources : List String :=
  tokens.flatMap fun token =>
    (fromStrings (resolveAlias doc token nodes).partialIps).prefixes

/-- Destination prefixes, token by token; a wildcard stays a wildcard. Destinations other than
`autogroup:self` never need the receiver. -/
def resolveDestinations : List String :=
  tokens.flatMap fun token =>
    if token = "*" then ["*"]
    else if token = "autogroup:self" then []
    else (fromStrings (resolveAlias doc token nodes).partialIps).prefixes

/-- The destinations of a capability grant; an alias with an error has none. -/
def resolveCapGrantDst (token : String) (nodes : List PacketFilterNode) :
    Option (List String) :=
  let resolved := resolveAlias doc token nodes
  if resolved.errors = [] then resolved.ips.map fun ips => (fromStrings ips).prefixes
  else none

/-- What a `via` grant reaches through a node: the destination prefixes its subnet routes meet, and
the internet once at the end if the node is an exit. -/
def resolveViaDestinationsForNode (dsts : List String) (nodes : List PacketFilterNode)
    (node : PacketFilterNode) : List String :=
  let subnetRoutes := node.routes.filter fun route => !isExitRoute route
  let subnets := (dsts.filter (· ≠ "autogroup:internet")).flatMap fun dst =>
    ((resolveCapGrantDst doc dst nodes).getD []).filter fun p =>
      subnetRoutes.any fun route => prefixesOverlap p route
  if "autogroup:internet" ∈ dsts ∧ node.routes.any isExitRoute then
    subnets ++ (fromStrings internetFilterCidrs).prefixes
  else subnets

/-! ## Rules -/

/-- A rule for each port group: every destination with every range of the group. Regular
destinations that are single addresses lose their prefix length. -/
def networkRules (srcIps dstIps : List String) (groups : List PortGroup) (keepPrefixes : Bool) :
    List FilterRule :=
  if srcIps = [] ∨ dstIps = [] then []
  else
    groups.map fun group =>
      { srcIps := srcIps
        dstPorts := dstIps.flatMap fun ip => group.2.map fun range =>
          ⟨if keepPrefixes then ip else dstPortIpString ip, range⟩
        ipProto := group.1 }

def wireCapMap (app : CapabilityMap) (shape : Option GrantAppShape) : CapMap :=
  app.map fun entry =>
    (entry.1,
      if entry.2 = [] ∧ shape.any (fun shape => entry.1 ∈ shape.nilCapabilities) then none
      else some entry.2)

def companionCap (cap : String) : Option String :=
  if cap = "tailscale.com/cap/drive" then some "tailscale.com/cap/drive-sharer"
  else if cap = "tailscale.com/cap/relay" then some "tailscale.com/cap/relay-target"
  else none

/-- The capabilities that a grant implies in the other direction, in order. -/
def companionCaps (app : CapabilityMap) : List String :=
  (app.filterMap fun entry => companionCap entry.1).insertionSort (· ≤ ·)

/-- Companion rules go back from the destinations to the sources. -/
def companionCapGrantRules (dstIpStrings srcIps : List String) (app : CapabilityMap) :
    List FilterRule :=
  (companionCaps app).map fun cap =>
    { srcIps := dstIpStrings
      capGrant := [{ dsts := srcIps.flatMap ipsetStringToCidrs, capMap := [(cap, none)] }] }

/-- The capability rule of a grant and its companions; nothing when no destination resolves. -/
def capGrantRules (srcIps companionSrc dsts : List String) (app : CapabilityMap)
    (shape : Option GrantAppShape) : List FilterRule :=
  let resolved := dsts.filterMap fun dst => resolveCapGrantDst doc dst nodes
  if resolved = [] then []
  else
    let dstIpStrings := (resolved.flatMap fun prefixes => (fromStrings prefixes).strings) ++
      if "*" ∈ dsts then approvedSubnetRoutes nodes else []
    { srcIps := srcIps
      capGrant := resolved.map fun prefixes =>
        { dsts := prefixes, capMap := wireCapMap app shape } } ::
      companionCapGrantRules dstIpStrings companionSrc app

/-- The port rules between the nodes of one user: by node, port and address. -/
def selfPortRules (sources : List String) (groups : List PortGroup)
    (userNodes : List PacketFilterNode) : List FilterRule :=
  (groups.map fun group =>
    ({ srcIps := sources
       dstPorts := userNodes.flatMap fun node => group.2.flatMap fun range =>
         (nodeIpStrings node).map fun ip => ⟨ip, range⟩
       ipProto := group.1 } : FilterRule)).filter fun rule => rule.dstPorts ≠ []

/-- The rules of a self grant for one user's nodes; none when no source is one of them. -/
def selfRules (sourcePrefixes : List String) (userNodes : List PacketFilterNode) :
    List FilterRule :=
  let sources := nodesMatchingPrefixes userNodes sourcePrefixes
  if sources = [] then []
  else
    selfPortRules sources grant.ports userNodes ++
      match grant.app with
      | none => []
      | some app =>
        if userNodes = [] then []
        else
          { srcIps := sources
            capGrant := userNodes.map fun node =>
              { dsts := nodeAddrPrefixes node, capMap := wireCapMap app grant.appShape } } ::
            companionCapGrantRules (userNodes.flatMap nodeIpStrings) sources app

def sourcesHaveResolvedAlias : Bool :=
  "autogroup:self" ∉ tokens ∧ tokens.any (fun token => (resolveAlias doc token nodes).ips.isSome)

def regularGrantIsAdmitted : Bool :=
  grant.sources ≠ [] ∧ grant.destinations ≠ [] ∧ "autogroup:self" ∉ grant.sources ∧
    (grant.app.isSome = true ∨ sourcesHaveResolvedAlias doc grant.sources nodes = true)

def viaGrantRules (receiver : PacketFilterNode) : List FilterRule :=
  if grant.ports = [] ∨ ¬ grant.via.any (· ∈ receiver.tags) then []
  else
    networkRules (sourceStrings doc grant.sources nodes false)
      (resolveViaDestinationsForNode doc grant.destinations nodes receiver) grant.ports true

/-- The rules of a regular grant that are the same for every receiver. -/
def otherGrantRules :
    List FilterRule :=
  let sources := resolveSources doc grant.sources nodes
  let dsts := grant.destinations.filter (· ≠ "autogroup:self")
  if dsts = [] then []
  else
    networkRules sources (resolveDestinations doc dsts nodes) grant.ports false ++
      match grant.app with
      | none => []
      | some app =>
        capGrantRules doc nodes sources (resolveCompanionSources doc grant.sources nodes) dsts app
          grant.appShape

/-- The rules of a grant, for a receiver or for the global filter. -/
def grantRules (receiver : Option PacketFilterNode) : List FilterRule :=
  if grant.via ≠ [] then
    match receiver with
    | none => []
    | some receiver => viaGrantRules doc grant nodes receiver
  else if !regularGrantIsAdmitted doc grant nodes then []
  else
    otherGrantRules doc grant nodes ++
      match receiver with
      | none => []
      | some receiver =>
        if "autogroup:self" ∈ grant.destinations ∧ receiver.tags = [] then
          selfRules grant (resolveCompanionSources doc grant.sources nodes)
            (sameUserUntaggedNodes nodes receiver)
        else []

/-! ## Filters -/

/-- Adds a rule to the first one with the same sources and protocols; capability rules stay apart. -/
def mergeInto (rule : FilterRule) : List FilterRule → List FilterRule
  | [] => [rule]
  | existing :: rest =>
    if existing.capGrant = [] ∧ existing.srcIps = rule.srcIps ∧ existing.ipProto = rule.ipProto then
      { existing with dstPorts := existing.dstPorts ++ rule.dstPorts } :: rest
    else existing :: mergeInto rule rest

def appendCoalescedFilterRule (out : List FilterRule) (rule : FilterRule) : List FilterRule :=
  if rule.capGrant ≠ [] then out ++ [rule] else mergeInto rule out

def coalesceFilterRules (rules : List FilterRule) : List FilterRule :=
  rules.foldl appendCoalescedFilterRule []

def allowAllFilterRules : List FilterRule :=
  [{ srcIps := ["*"], dstPorts := [⟨"*", allPorts⟩] }]

def aclToGlobalFilterRules : List FilterRule :=
  coalesceFilterRules ((filterGrants doc apps).flatMap fun grant => grantRules doc grant nodes none)

def unreducedFilterRulesForReceiver (receiver : PacketFilterNode) (apps : List GrantAppShape) :
    List FilterRule :=
  coalesceFilterRules ((filterGrants doc apps).flatMap fun grant =>
    grantRules doc grant nodes (some receiver))

/-- An exit node also gets the self rules of every other user, unmerged: it carries their
traffic. -/
def exitNodeSelfRules (receiver : PacketFilterNode) (apps : List GrantAppShape) : List FilterRule :=
  if !receiver.routes.any isExitRoute then []
  else
    ((filterGrants doc apps).filter fun grant =>
        grant.via = [] ∧ "autogroup:self" ∈ grant.destinations ∧
          regularGrantIsAdmitted doc grant nodes = true).flatMap fun grant =>
      ((ownerKeys nodes).filter fun owner =>
          ¬ (receiver.tags = [] ∧ nodeOwnerKey receiver = some owner)).flatMap fun owner =>
        selfRules grant (resolveCompanionSources doc grant.sources nodes) (ownerNodes nodes owner)

/-- The filter served to a receiver in per-node mode. -/
def aclToFilterRulesForReceiver (receiver : PacketFilterNode) (apps : List GrantAppShape) :
    List FilterRule :=
  reduceFilterRulesForNode
    (unreducedFilterRulesForReceiver doc nodes receiver apps ++
      exitNodeSelfRules doc nodes receiver apps) receiver

/-- Some grant compiles differently for different receivers. -/
def hasPerNodeFilters : Bool :=
  (filterGrants doc apps).any fun grant =>
    if grant.via = [] then
      "autogroup:self" ∈ grant.destinations ∧ regularGrantIsAdmitted doc grant nodes = true
    else grant.ports ≠ [] ∧ sourceStrings doc grant.sources nodes false ≠ []

end Headscale.Policy
