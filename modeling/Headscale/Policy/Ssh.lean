import Headscale.Policy.Compile

/-!
# SSH rules

The SSH rules of a policy are evaluated twice. For the destination of a session they are compiled to
the rules its client enforces; there the sources are grouped by their owner, because the local part
of an owner's email may stand for an account. When the session of a check rule is held, the server
decides on its own whether the rule covers it.

Case folding and the reading of a duration are those of the Go libraries, and are parameters here.
-/

namespace Headscale.Policy

open Std GoNetip Collection

/-! ## Nodes and their owners -/

structure SshPolicyNode where
  id : Nat
  user : Option String := none
  userId : Option Nat := none
  addrs : List String := []
  tags : List String := []
deriving DecidableEq, Repr

inductive SourceOwner where
  | user (id : Nat)
  | legacy (name : String)
  | tagged
deriving DecidableEq, Repr

def SourceOwner.Le : SourceOwner → SourceOwner → Prop
  | .user a, .user b => a ≤ b
  | .user _, _ => True
  | .legacy _, .user _ => False
  | .legacy a, .legacy b => a ≤ b
  | .legacy _, .tagged => True
  | .tagged, .tagged => True
  | .tagged, _ => False

instance : DecidableRel SourceOwner.Le := fun a b => by
  cases a <;> cases b <;> unfold SourceOwner.Le <;> infer_instance

namespace SshPolicyNode

variable (node : SshPolicyNode)

def packetFilterNode : PacketFilterNode :=
  { id := node.id, userId := node.userId, user := node.user, addrs := node.addrs,
    tags := node.tags }

def sourceOwner : Option SourceOwner :=
  if node.tags ≠ [] then some .tagged
  else
    match node.userId with
    | some id => some (.user id)
    | none => (node.user.filter (· ≠ "")).map .legacy

def isUntaggedUserOwned : Bool :=
  node.tags = [] ∧ (node.userId.isSome ∨ (node.user.any (· ≠ "")) = true)

def sameSshUserOwner (left right : SshPolicyNode) : Bool :=
  if !left.isUntaggedUserOwned || !right.isUntaggedUserOwned then false
  else
    match left.userId, right.userId with
    | some a, some b => a = b
    | none, none =>
      match left.user.filter (· ≠ "") with
      | none => false
      | some user => right.user.filter (· ≠ "") = some user
    | _, _ => false

end SshPolicyNode

/-! ## Aliases -/

def resolvedSshAliases (doc : PolicyDoc) (tokens : List String) (nodes : List SshPolicyNode) :
    ResolvedAlias :=
  aliases doc tokens (nodes.map (·.packetFilterNode))

def sshSourceNodesForIps (ips : List String) (nodes : List SshPolicyNode) : List SshPolicyNode :=
  nodes.filter fun node => anyIpMatches ips node.packetFilterNode

def resolveSshSourceNodes (doc : PolicyDoc) (tokens : List String) (nodes : List SshPolicyNode) :
    List SshPolicyNode :=
  sshSourceNodesForIps (resolvedSshAliases doc tokens nodes).partialIps nodes

def sshDestinationMatches (doc : PolicyDoc) (token : String) (node : SshPolicyNode)
    (nodes : List SshPolicyNode) : Bool :=
  anyIpMatches (resolvedSshAliases doc [token] nodes).partialIps node.packetFilterNode

def sameUserUntaggedSources (sources : List SshPolicyNode) (node : SshPolicyNode) :
    List SshPolicyNode :=
  sources.filter fun candidate => candidate.sameSshUserOwner node

/-! ## Accounts -/

/-- What the rules take from the Go libraries. -/
structure GoText where
  equalFold : String → String → Bool
  parseNanos : String → Option Int

def asBytes (text : String) : List UInt8 := text.toUTF8.data.toList

/-- The domain of a user of the form `localpart:*@domain`. -/
def canonicalLocalpartDomain (user : String) : Option String :=
  (Text.stripStart "localpart:".toList user.toList).bind fun pattern =>
    match Text.rsplitOnce '@' pattern with
    | some (['*'], domain) => if domain ≠ [] then some (String.ofList domain) else none
    | _ => none

def canonicalLocalpartDomains (users : List String) : List String :=
  users.filterMap canonicalLocalpartDomain

def usersHaveCanonicalLocalpart (users : List String) : Bool :=
  users.any fun user => (canonicalLocalpartDomain user).isSome

section Localparts

variable (go : GoText)

def localpartForDomain (user expected : String) : Option String :=
  match Text.rsplitOnce '@' user.toList with
  | none => none
  | some (localpart, domain) =>
    if go.equalFold expected (String.ofList domain) then some (String.ofList localpart) else none

def localpartForUser (user : String) (domains : List String) : Option String :=
  (domains.filterMap (localpartForDomain go user)).getLast?

def localpartForOwner (doc : PolicyDoc) (owner : SourceOwner) (legacyUser : Option String)
    (domains : List String) : Option String :=
  match owner, doc.users with
  | .user id, some accounts =>
    (domains.flatMap fun domain => (accounts.filter fun account => account.id = id).filterMap
      fun account => localpartForDomain go account.email domain).getLast?
  | .tagged, _ => none
  | .legacy _, some _ => none
  | _, none => legacyUser.bind fun user => localpartForUser go user domains

end Localparts

/-! ## User rules -/

/-- Accounts by the local user they are for. -/
abbrev SshUsers := ExtTreeMap String String

structure SshUserRule where
  sshUsers : SshUsers
  sourceNodeIds : List Nat

/-- The accounts that the users of a rule stand for, but for those that are left out. -/
def baseSshUsers (users : List String) (leftOut : String → Bool) : SshUsers :=
  let out : SshUsers := if "autogroup:nonroot" ∈ users then (∅ : SshUsers).insert "*" "=" else ∅
  let out := out.insert "root" (if "root" ∈ users then "root" else "")
  (users.filter fun user => user ≠ "root" && user ≠ "autogroup:nonroot" && !leftOut user).foldl
    (fun out user => out.insert user user) out

/-- Some sources of one owner, with the user of the first of them. -/
structure OwnerGroup where
  owner : SourceOwner
  user : Option String
  sourceNodeIds : List Nat

def ownerGroup (sources : List SshPolicyNode) (owner : SourceOwner) : OwnerGroup :=
  let members := sources.filter fun node => node.sourceOwner = some owner
  { owner := owner
    user := members.head?.bind fun node => if node.isUntaggedUserOwned then node.user else none
    sourceNodeIds := members.map (·.id) }

/-- The owners of the nodes, each once and in their order. -/
def sourceOwners (nodes : List SshPolicyNode) : List SourceOwner :=
  ((nodes.filterMap (·.sourceOwner)).foldl pushUnique []).insertionSort SourceOwner.Le

variable (go : GoText)

def sshUserRulesWithLocalparts (doc : PolicyDoc) (users : List String)
    (sources : List SshPolicyNode) (localpartDomains : List String) : List SshUserRule :=
  let base := baseSshUsers users fun user => (canonicalLocalpartDomain user).isSome
  ((sourceOwners sources).map (ownerGroup sources)).flatMap fun group =>
    ⟨base, group.sourceNodeIds⟩ ::
      match localpartForOwner go doc group.owner group.user localpartDomains with
      | some localpart => [⟨(∅ : SshUsers).insert localpart localpart, group.sourceNodeIds⟩]
      | none => []

def sshUserRules (doc : PolicyDoc) (users : List String) (sources : List SshPolicyNode) :
    List SshUserRule :=
  let domains := canonicalLocalpartDomains users
  if domains ≠ [] then sshUserRulesWithLocalparts go doc users sources domains
  else
    [⟨baseSshUsers users fun _ => false,
      (sources.filter fun node => node.sourceOwner.isSome).map (·.id)⟩]

/-! ## Compiled rules -/

structure SshRuleAction where
  accept : Bool := false
  holdAndDelegate : String := ""
  allowAgentForwarding : Bool := false
  allowLocalPortForwarding : Bool := false
  allowRemotePortForwarding : Bool := false
deriving DecidableEq, Repr

structure CompiledSshRule where
  principals : List String
  sshUsers : SshUsers
  action : SshRuleAction
  acceptEnv : List String

def sshAction (baseUrl action : String) : SshRuleAction :=
  if action = "check" then
    { holdAndDelegate := baseUrl ++
        "/machine/ssh/action/$SRC_NODE_ID/to/$DST_NODE_ID?local_user=$LOCAL_USER" }
  else
    { accept := true
      allowAgentForwarding := true
      allowLocalPortForwarding := true
      allowRemotePortForwarding := true }

/-- An address without its zone. -/
def addrIp (addr : String) : Option IpAddr :=
  match parseAddr addr with
  | .ok (ip, _) => some ip
  | .error _ => none

def ipLe (a b : IpAddr) : Prop :=
  a.family = .v4 ∧ b.family = .v6 ∨ a.family = b.family ∧ a.value ≤ b.value

instance : DecidableRel ipLe := fun a b => inferInstanceAs
  (Decidable (a.family = .v4 ∧ b.family = .v6 ∨ a.family = b.family ∧ a.value ≤ b.value))

def ipsetPrincipalAddresses (addrs : List String) : Option (List String) :=
  if addrs.all fun addr => (addrIp addr).isSome then
    some ((((addrs.filterMap addrIp).foldl pushUnique []).insertionSort ipLe).map (·.toString))
  else none

def uniqueNodeAddrs (node : SshPolicyNode) : List String :=
  (ipsetPrincipalAddresses node.addrs).getD []

/-- An address of a tagged node in the text of Go, with its zone. -/
def taggedPrincipal (addr : String) : String :=
  if addr = "" then "invalid IP"
  else
    match parseAddr addr with
    | .ok (ip, none) => ip.toString
    | .ok (ip, some zone) => ip.toString ++ "%" ++ zone
    | .error _ => addr

def sourceNodeAddrsForRule (nodes : List SshPolicyNode) (rule : SshUserRule) : List String :=
  let covered := nodes.filter fun node => node.id ∈ rule.sourceNodeIds
  let untagged := covered.filter fun node => node.tags = []
  ((sourceOwners untagged).flatMap fun owner =>
    (ipsetPrincipalAddresses ((untagged.filter fun node => node.sourceOwner = some owner).flatMap
      (·.addrs))).getD []) ++
  (covered.filter fun node => node.tags ≠ []).flatMap fun node =>
    node.tags.flatMap fun _ => node.addrs.map taggedPrincipal

def pushSshRule (principals : List String) (sshUsers : SshUsers) (action : SshRuleAction)
    (acceptEnv : List String) : List CompiledSshRule :=
  if principals = [] then [] else [⟨principals, sshUsers, action, acceptEnv⟩]

def pushSshRulesForNodes (nodes : List SshPolicyNode) (userRules : List SshUserRule)
    (action : SshRuleAction) (acceptEnv : List String) : List CompiledSshRule :=
  userRules.flatMap fun rule =>
    pushSshRule (sourceNodeAddrsForRule nodes rule) rule.sshUsers action acceptEnv

def pushLocalpartSelfAccessRules (sources : List SshPolicyNode) (target : SshPolicyNode)
    (userRules : List SshUserRule) (action : SshRuleAction) (acceptEnv : List String) :
    List CompiledSshRule :=
  if target.isUntaggedUserOwned then
    pushSshRulesForNodes (sameUserUntaggedSources sources target) userRules action acceptEnv
  else
    userRules.flatMap fun rule =>
      if target.id ∈ rule.sourceNodeIds then
        pushSshRule (uniqueNodeAddrs target) rule.sshUsers action acceptEnv
      else []

/-- What one rule of the document is compiled to. -/
def compileSshRule (doc : PolicyDoc) (nodes : List SshPolicyNode) (target : SshPolicyNode)
    (baseUrl : String) (rule : SshRule) : List CompiledSshRule :=
  let sources := resolveSshSourceNodes doc rule.src nodes
  let action := sshAction baseUrl rule.action
  let userRules := sshUserRules go doc rule.users sources
  let otherDsts := rule.dst.filter (· ≠ "autogroup:self")
  if sources = [] then []
  else
    (if "autogroup:self" ∈ rule.dst ∧ target.isUntaggedUserOwned = true then
      pushSshRulesForNodes (sameUserUntaggedSources sources target) userRules action rule.acceptEnv
    else []) ++
    (if otherDsts.any fun dst => sshDestinationMatches doc dst target nodes then
      pushSshRulesForNodes sources userRules action rule.acceptEnv
    else if otherDsts ≠ [] ∧ usersHaveCanonicalLocalpart rule.users = true ∧
        target.id ∈ sources.map (·.id) then
      pushLocalpartSelfAccessRules sources target userRules action rule.acceptEnv
    else [])

/-- The compiled rules, those that want a check first, each with whether its `acceptEnv` was
`null`. -/
def compileSshPolicySnapshot (doc : PolicyDoc) (nodes : List SshPolicyNode) (target : SshPolicyNode)
    (baseUrl : String) (ruleAcceptEnvNil : List Bool) : List (CompiledSshRule × Bool) :=
  (doc.ssh.zipIdx.flatMap fun (rule, index) =>
    (compileSshRule go doc nodes target baseUrl rule).map fun out =>
      (out, rule.acceptEnv = [] && ruleAcceptEnvNil.getD index false)).insertionSort
    fun a b => decide (a.1.action.holdAndDelegate = "") ≤ decide (b.1.action.holdAndDelegate = "")

/-! ## The decision of the server -/

/-- In nanoseconds. -/
def sshCheckPeriodDefault : Nat := 12 * 60 * 60 * 1000000000

def checkPeriodFromRule : Option String → Nat
  | none => sshCheckPeriodDefault
  | some "always" => 0
  | some "0" => 0
  | some period =>
    match go.parseNanos period with
    | some nanos => if 0 ≤ nanos then nanos.toNat else sshCheckPeriodDefault
    | none => sshCheckPeriodDefault

def sshRuleAllowsUser (doc : PolicyDoc) (users : List String) (source : SshPolicyNode)
    (localUser : List UInt8) : Bool :=
  if localUser = [] then false
  else
    let isRoot : Bool := localUser = asBytes "root"
    if (isRoot && decide ("root" ∈ users)) || (!isRoot && users.any fun user =>
        user = "autogroup:nonroot" ||
          (asBytes user = localUser && (canonicalLocalpartDomain user).isNone)) then true
    else if !source.isUntaggedUserOwned then false
    else
      match source.sourceOwner with
      | none => false
      | some owner =>
        (localpartForOwner go doc owner source.user (canonicalLocalpartDomains users)).any
          fun localpart => asBytes localpart = localUser

/-- Whether a destination of a rule covers the session. -/
def sshTokenCovers (doc : PolicyDoc) (nodes : List SshPolicyNode) (src dst : SshPolicyNode)
    (token : String) : Bool :=
  if token = "autogroup:self" then src.sameSshUserOwner dst
  else
    match (resolvedSshAliases doc [token] nodes).checked with
    | .ok ips => anyIpMatches ips dst.packetFilterNode
    | .error _ => false

/-- Whether a rule that wants a check covers the session. -/
def sshRuleCovers (doc : PolicyDoc) (nodes : List SshPolicyNode) (src dst : SshPolicyNode)
    (localUser : List UInt8) (rule : SshRule) : Bool :=
  match (resolvedSshAliases doc rule.src nodes).checked with
  | .error _ => false
  | .ok ips =>
    let sources := sshSourceNodesForIps ips nodes
    decide (src.id ∈ sources.map (·.id)) && sshRuleAllowsUser go doc rule.users src localUser &&
      (rule.dst.any (sshTokenCovers doc nodes src dst) ||
        (usersHaveCanonicalLocalpart rule.users && rule.dst.any (· ≠ "autogroup:self") &&
          decide (dst.id ∈ sources.map (·.id)) &&
          (dst.isUntaggedUserOwned && src.sameSshUserOwner dst ||
            !dst.isUntaggedUserOwned && src.id = dst.id)))

def sshCheckPeriodForBytes (doc : PolicyDoc) (nodes : List SshPolicyNode)
    (srcNodeId dstNodeId : Nat) (localUser : List UInt8) : Option Nat :=
  if doc.ssh = [] ∨ localUser = [] then none
  else
    match nodes.find? (·.id = srcNodeId), nodes.find? (·.id = dstNodeId) with
    | some src, some dst =>
      (doc.ssh.find? fun rule =>
        rule.action = "check" && sshRuleCovers go doc nodes src dst localUser rule).map
        fun rule => checkPeriodFromRule go rule.checkPeriod
    | _, _ => none

end Headscale.Policy
