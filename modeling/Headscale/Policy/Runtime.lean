import Mathlib.Data.String.Basic
import Headscale.Policy.Matcher

/-!
# The compiled runtime

What the policy manager compiles from the document, the users and the retained nodes: the global
filter, the node attributes, the tag owners and the route approvers, and its caches of filters and
matchers by node. A recompilation installs everything but the attributes before the attributes can
fail, and only a successful one clears the caches.

SSH policies, peer recomputation hints and diagnostics are left out. The copy of the document that
keeps raw JSON payloads is a parameter: it is compiled by the same functions and only its equality
with the previous one is observed.
-/

namespace Headscale.Policy

open GoNetip Collection RuleMatcher

/-! ## Node attributes -/

/-- Why the node attributes could not be compiled: the targets and their errors. -/
structure AttrsError where
  target : List String
  errors : List AliasError
deriving DecidableEq, Repr

def AttrsError.text (quote : String → String) (error : AttrsError) : String :=
  "compiling nodeAttrs: nodeAttrs target [" ++ " ".intercalate error.target ++ "]: " ++
    aliasErrorsText quote error.errors

/-- One grant of attributes: every node at one of its targets gets them. -/
def stampAttrs (doc : PolicyDoc) (nodes : List PacketFilterNode)
    (attrs : List (Nat × List String)) (grant : NodeAttrGrant) :
    Except AttrsError (List (Nat × List String)) :=
  if grant.attr = [] then .ok attrs
  else
    match (aliases doc grant.target nodes).checked with
    | .error errors => .error ⟨grant.target, errors⟩
    | .ok targets =>
      .ok (nodes.foldl (fun attrs node =>
        if anyIpMatches targets node then entryExtend attrs node.id grant.attr else attrs) attrs)

def compileNodeAttrs (doc : PolicyDoc) (nodes : List PacketFilterNode) :
    Except AttrsError (List (Nat × List String)) :=
  let start :=
    if doc.randomizeClientPort then
      nodes.foldl (fun attrs node => entryExtend attrs node.id ["randomize-client-port"]) []
    else []
  (doc.nodeAttrs.foldlM (stampAttrs doc nodes) start).map fun attrs =>
    attrs.map fun entry => (entry.1, sortDedup entry.2)

/-! ## Approvers and tag owners -/

def resolveOwnerIps (doc : PolicyDoc) (tokens : List String) (nodes : List PacketFilterNode) :
    IpSet := IpSet.fromStrings (owners doc tokens nodes).partialIps

structure RouteApprovers where
  routes : List (String × IpSet) := []
  exit : Option IpSet := none
deriving DecidableEq

def RouteApprovers.compile (doc : PolicyDoc) (nodes : List PacketFilterNode) : RouteApprovers :=
  { routes := doc.autoApprovers.routes.map fun entry =>
      (entry.1, resolveOwnerIps doc entry.2 nodes)
    exit :=
      if doc.autoApprovers.exitNode = [] then none
      else some (resolveOwnerIps doc doc.autoApprovers.exitNode nodes) }

def compileTagOwners (doc : Option PolicyDoc) (tagOwnerAliases : List (String × List String))
    (nodes : List PacketFilterNode) : List (String × IpSet) :=
  match doc with
  | none => []
  | some doc => tagOwnerAliases.map fun entry => (entry.1, resolveOwnerIps doc entry.2 nodes)

/-! ## Compilation -/

/-- What a recompilation is given. -/
structure RuntimeInputs where
  doc : Option PolicyDoc := none
  apps : List GrantAppShape := []
  tagOwnerAliases : List (String × List String) := []
  resolverNodes : List PacketFilterNode := []
  defaultAllow : Bool := false
  perNode : Bool := false
deriving DecidableEq

/-- The document with the raw JSON text of its capability values. -/
abbrev OpaqueDocument := PolicyDoc → List GrantAppShape → PolicyDoc

/-- The global filter; no document, or the default of an empty one, allows everything. -/
def globalFilter (doc : Option PolicyDoc) (nodes : List PacketFilterNode)
    (apps : List GrantAppShape) (defaultAllow : Bool) : List FilterRule :=
  match doc with
  | some doc =>
    if defaultAllow then allowAllFilterRules else aclToGlobalFilterRules doc nodes apps
  | none => allowAllFilterRules

/-- The attributes a recompilation installs, where it gets that far. -/
def attrsOf (doc : Option PolicyDoc) (nodes : List PacketFilterNode) :
    Except AttrsError (List (Nat × List String)) :=
  match doc with
  | some doc =>
    if doc.nodeAttrs ≠ [] ∨ doc.randomizeClientPort then compileNodeAttrs doc nodes else .ok []
  | none => .ok []

structure CompiledRuntime where
  doc : Option PolicyDoc := none
  opaqueGlobal : List FilterRule := []
  apps : List GrantAppShape := []
  resolverNodes : List PacketFilterNode := []
  globalRules : List FilterRule := []
  perNode : Bool := false
  filters : List (Nat × List FilterRule) := []
  attrs : List (Nat × List String) := []
  tagOwners : List (String × IpSet) := []
  approvers : RouteApprovers := {}
  globalMatchers : List RuleMatcher := []
  matchers : List (Nat × List RuleMatcher) := []
deriving DecidableEq

namespace CompiledRuntime

variable (rt : CompiledRuntime)

/-- Everything a recompilation installs before the attributes; the caches and the old attributes are
still in place. -/
def install (opaqueDoc : OpaqueDocument) (inputs : RuntimeInputs) :
    CompiledRuntime :=
  let rules := globalFilter inputs.doc inputs.resolverNodes inputs.apps inputs.defaultAllow
  { rt with
    doc := inputs.doc
    opaqueGlobal := globalFilter (inputs.doc.map fun doc => opaqueDoc doc inputs.apps)
      inputs.resolverNodes inputs.apps inputs.defaultAllow
    apps := inputs.apps
    resolverNodes := inputs.resolverNodes
    globalRules := rules
    perNode := inputs.perNode
    tagOwners := compileTagOwners inputs.doc inputs.tagOwnerAliases inputs.resolverNodes
    approvers :=
      match inputs.doc with
      | some doc => RouteApprovers.compile doc inputs.resolverNodes
      | none => {}
    globalMatchers := fromRules rules }

def clearCaches : CompiledRuntime := { rt with filters := [], matchers := [] }

/-- The filters, tag owners or approvers differ. -/
def effectsChanged (before after : CompiledRuntime) : Bool :=
  after.globalRules ≠ before.globalRules ∨ after.opaqueGlobal ≠ before.opaqueGlobal ∨
    after.tagOwners ≠ before.tagOwners ∨ after.approvers ≠ before.approvers

/-- The nodes whose attributes differ. -/
def changedAttrs (before after : List (Nat × List String)) : List Nat :=
  sortDedup ((before.map Prod.fst ++ after.map Prod.fst).filter fun id =>
    before.lookup id ≠ after.lookup id)

/-- A recompilation: the runtime it leaves behind, and the changed attributes and whether the
effects changed, or the error of the attributes. -/
def recompile (opaqueDoc : OpaqueDocument) (inputs : RuntimeInputs) (invalidate : Bool) :
    CompiledRuntime × Except AttrsError (List Nat × Bool) :=
  let installed := rt.install opaqueDoc inputs
  let effects := rt.effectsChanged installed
  match attrsOf inputs.doc inputs.resolverNodes with
  | .error e => (installed, .error e)
  | .ok attrs =>
    let withAttrs := { installed with attrs := attrs }
    let done :=
      if invalidate || effects || rt.perNode ≠ inputs.perNode then withAttrs.clearCaches
      else withAttrs
    (done, .ok (changedAttrs rt.attrs attrs, effects))

/-- The runtime was last compiled from the inputs; its attributes and caches are not looked at. -/
structure CompiledFrom (rt : CompiledRuntime) (opaqueDoc : OpaqueDocument) (inputs : RuntimeInputs) :
    Prop where
  doc : rt.doc = inputs.doc
  opaqueGlobal : rt.opaqueGlobal = globalFilter (inputs.doc.map fun doc => opaqueDoc doc inputs.apps)
    inputs.resolverNodes inputs.apps inputs.defaultAllow
  apps : rt.apps = inputs.apps
  resolverNodes : rt.resolverNodes = inputs.resolverNodes
  globalRules : rt.globalRules =
    globalFilter inputs.doc inputs.resolverNodes inputs.apps inputs.defaultAllow
  perNode : rt.perNode = inputs.perNode
  tagOwners : rt.tagOwners = compileTagOwners inputs.doc inputs.tagOwnerAliases inputs.resolverNodes
  approvers : rt.approvers =
    match inputs.doc with
    | some doc => RouteApprovers.compile doc inputs.resolverNodes
    | none => {}
  globalMatchers : rt.globalMatchers = fromRules rt.globalRules

lemma recompile_compiledFrom (opaqueDoc : OpaqueDocument) (inputs : RuntimeInputs)
    (invalidate : Bool) :
    (rt.recompile opaqueDoc inputs invalidate).1.CompiledFrom opaqueDoc inputs := by
  unfold recompile
  simp only
  split
  · constructor <;> rfl
  · split <;> constructor <;> rfl

/-- Caches do not belong to what is compiled. -/
theorem CompiledFrom.withCaches {rt : CompiledRuntime} {opaqueDoc : OpaqueDocument}
    {inputs : RuntimeInputs} (h : rt.CompiledFrom opaqueDoc inputs)
    (filters : List (Nat × List FilterRule)) (matchers : List (Nat × List RuleMatcher)) :
    CompiledFrom { rt with filters := filters, matchers := matchers } opaqueDoc inputs :=
  ⟨h.doc, h.opaqueGlobal, h.apps, h.resolverNodes, h.globalRules, h.perNode, h.tagOwners,
    h.approvers, h.globalMatchers⟩

/-- A recompilation fails with the error of the attributes and then leaves attributes and caches as
they were; where it succeeds, the caches are cleared or, unless they were to be invalidated, kept. -/
theorem recompile_outcome (rt : CompiledRuntime) (opaqueDoc : OpaqueDocument)
    (inputs : RuntimeInputs) (invalidate : Bool) :
    match attrsOf inputs.doc inputs.resolverNodes with
    | .error e => (rt.recompile opaqueDoc inputs invalidate).2 = .error e
    | .ok attrs => (rt.recompile opaqueDoc inputs invalidate).1.attrs = attrs ∧
        (∃ result, (rt.recompile opaqueDoc inputs invalidate).2 = .ok result) ∧
        (((rt.recompile opaqueDoc inputs invalidate).1.filters = [] ∧
            (rt.recompile opaqueDoc inputs invalidate).1.matchers = []) ∨
          (invalidate = false ∧
            (rt.recompile opaqueDoc inputs invalidate).1.filters = rt.filters ∧
            (rt.recompile opaqueDoc inputs invalidate).1.matchers = rt.matchers)) := by
  simp only [recompile]
  split
  · simp only
  simp only
  split
  · exact ⟨rfl, ⟨_, rfl⟩, .inl ⟨rfl, rfl⟩⟩
  · rename_i hkeep
    refine ⟨rfl, ⟨_, rfl⟩, .inr ⟨?_, rfl, rfl⟩⟩
    simp only [Bool.or_eq_true, not_or, Bool.not_eq_true] at hkeep
    exact hkeep.1.1

/-- Drops the cached answers of changed and of unknown nodes. -/
def invalidateNetwork (ids known : List Nat) : CompiledRuntime :=
  { rt with
    filters := rt.filters.filter fun entry => entry.1 ∈ known ∧ entry.1 ∉ ids
    matchers := rt.matchers.filter fun entry => entry.1 ∈ known ∧ entry.1 ∉ ids }

/-! ## Queries -/

/-- The filter of a receiver, computed afresh. -/
def freshFilter (receiver : PacketFilterNode) : List FilterRule :=
  if rt.perNode then
    match rt.doc with
    | some doc => aclToFilterRulesForReceiver doc rt.resolverNodes receiver rt.apps
    | none => rt.globalRules
  else reduceFilterRulesForNode rt.globalRules receiver

/-- The served filter, from the cache where it has the receiver. -/
def filterFor (receiver : PacketFilterNode) :
    List FilterRule × CompiledRuntime :=
  match rt.filters.lookup receiver.id with
  | some rules => (rules, rt)
  | none =>
    let rules := rt.freshFilter receiver
    (rules, { rt with filters := (receiver.id, rules) :: rt.filters })

/-- The unreduced rules of a node. -/
def matcherRules (node : PacketFilterNode) : List FilterRule :=
  match rt.doc with
  | some doc => unreducedFilterRulesForReceiver doc rt.resolverNodes node rt.apps
  | none => rt.globalRules

def freshMatchersFor (node : PacketFilterNode) : List RuleMatcher :=
  fromRules (rt.matcherRules node)

/-- Whether a node may use a route, through the matcher cache in per-node mode. -/
def canAccessRoute (rt : CompiledRuntime) (node : PacketFilterNode) (route : String) :
    Bool × CompiledRuntime :=
  if !rt.perNode then (RuleMatcher.canAccessRoute rt.globalMatchers node route, rt)
  else
    match rt.matchers.lookup node.id with
    | some matchers => (RuleMatcher.canAccessRoute matchers node route, rt)
    | none =>
      let matchers := rt.freshMatchersFor node
      (RuleMatcher.canAccessRoute matchers node route,
        { rt with matchers := (node.id, matchers) :: rt.matchers })

def attrsFor (id : Nat) : List String := valuesAt rt.attrs id

/-! ## The peer map -/

/-- The matchers of a listed node: its own in per-node mode, where a repeated id means its last
node. -/
def peerMatchers (nodes : List PacketFilterNode) (id : Nat) :
    List RuleMatcher :=
  if rt.perNode then
    match nodes.reverse.find? fun node => node.id = id with
    | some node => rt.freshMatchersFor node
    | none => rt.globalMatchers
  else rt.globalMatchers

def visible (nodes : List PacketFilterNode) (left right : PacketFilterNode) : Bool :=
  let leftRules := rt.peerMatchers nodes left.id
  let rightRules := rt.peerMatchers nodes right.id
  canAccess leftRules left right || canAccess rightRules right left ||
    (rt.perNode && (canAccess leftRules right left ||
      canAccess rightRules left right))

/-- The visible pairs, in both directions. -/
def peerEdges (nodes : List PacketFilterNode) : List (Nat × Nat) :=
  (pairs nodes).flatMap fun pair =>
    if pair.1.id ≠ pair.2.id ∧ rt.visible nodes pair.1 pair.2 = true then
      [(pair.1.id, pair.2.id), (pair.2.id, pair.1.id)]
    else []

def buildPeerMap (nodes : List PacketFilterNode) :
    List (Nat × List Nat) := groupEdges (rt.peerEdges nodes)

end CompiledRuntime

/-- A runtime compiled for the first time. -/
def freshRuntime (opaqueDoc : OpaqueDocument) (inputs : RuntimeInputs) : CompiledRuntime :=
  (CompiledRuntime.recompile {} opaqueDoc inputs true).1

variable (opaqueDoc : OpaqueDocument) (inputs : RuntimeInputs)

lemma freshRuntime_compiledFrom :
    (freshRuntime opaqueDoc inputs).CompiledFrom opaqueDoc inputs :=
  CompiledRuntime.recompile_compiledFrom _ _ _ _

lemma freshRuntime_caches :
    (freshRuntime opaqueDoc inputs).filters = [] ∧ (freshRuntime opaqueDoc inputs).matchers = [] := by
  unfold freshRuntime CompiledRuntime.recompile
  split <;> exact ⟨rfl, rfl⟩

end Headscale.Policy
