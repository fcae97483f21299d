import Headscale.Policy.Lifecycle
import Headscale.Policy.RuntimeOrder

/-!
# The policy store

The state behind the store's lock: the installed document with its projections, the users, the
retained nodes and the compiled runtime. Installing a policy overwrites the projections before the
compilation can fail and puts them back afterwards; changing the users does the same for the
directory only; replacing the nodes recompiles only if something moved.

What is read from the raw JSON text of a policy beside the parsed document is a parameter. SSH state
and diagnostics are left out.
-/

namespace Headscale.Policy

open GoNetip Collection List

/-! ## Projections of a document -/

/-- What the store reads from the text of a policy: the original ACL rows with their aliases and an
identity of their shape, whether packet-filter rules are omitted, and the shapes of grants, SSH rules
and containers. -/
structure SourceReaders where
  aclDetails : String → PolicyDoc → Option (List AclRule × List String × String)
  omitsPacketFilterRules : String → Bool
  grantAppShapes : String → List GrantAppShape
  sshAcceptEnvNil : String → List Bool
  containerShape : String → PolicyDoc → Option String

/-- Readers for policies without source text. -/
def noReaders : SourceReaders where
  aclDetails _ _ := none
  omitsPacketFilterRules _ := false
  grantAppShapes _ := []
  sshAcceptEnvNil _ := []
  containerShape _ _ := none

inductive Installation where
  | initial
  | replacement
deriving DecidableEq, Repr

/-- Why a policy is not installed. -/
inductive InstallError where
  | userReferences (installation : Installation) (errors : List AliasError)
  | undefinedTag (tag owner : String)
  | grantIp (error : GrantIpError)
  | nodeAttrs (error : AttrsError)
deriving DecidableEq, Repr

/-- The aliases that may name users; group members, owners and approvers are names whenever they
have an `@`. -/
def userReferences (doc : PolicyDoc) (aclAliases : List String) : List (String × Bool) :=
  ((doc.groups.flatMap Prod.snd ++ doc.tagOwners.flatMap Prod.snd ++
      doc.autoApprovers.routes.flatMap Prod.snd ++ doc.autoApprovers.exitNode).map (·, true)) ++
    ((aclAliases ++ doc.ssh.flatMap fun rule => rule.src ++ rule.dst).map (·, false))

/-- An alias that names several users; provider identifiers come first and are unique. -/
def referenceError (users : List PolicyUser) (reference : String × Bool) : Option AliasError :=
  let (value, ownerOrUsername) := reference
  if (if ownerOrUsername then Text.containsChar '@' value
      else decide (aliasKind value = some .username)) then
    let token := (Text.stripLastStr '@' value).getD value
    if users.any fun user => user.providerIdentifier = some token then none
    else
      let found := users.filter fun user => user.email = token ∨ user.name = token
      if found.length ≤ 1 then none
      else some (.multipleUsers value (found.map fun user => (user.id, user.name)))
  else none

def aclUserAliases (rules : List AclRule) : List String :=
  rules.flatMap fun rule => rule.src ++ rule.dst

/-- The owners of a tag with the owners of owning tags in their place; a tag being expanded adds
nothing, and an undefined one is an error. Every level adds a tag to `visiting`. -/
def flattenOwners (tagOwners : List (String × List String)) : Nat → List String → String →
    Except InstallError (List String)
  | depth, visiting, tag =>
    if tag ∈ visiting then .ok []
    else
      match depth with
      | 0 => .ok []
      | depth + 1 =>
        ((tagOwners.lookup tag).getD []).foldlM (fun result owner =>
          if !Text.containsChar '@' owner && Text.startsWith "tag:" owner then
            match tagOwners.lookup owner with
            | none => .error (.undefinedTag tag owner)
            | some _ => (flattenOwners tagOwners depth (tag :: visiting) owner).map (result ++ ·)
          else .ok (result ++ [owner])) []

def flattenTagOwners (doc : PolicyDoc) : Except InstallError (List (String × List String)) :=
  doc.tagOwners.mapM fun entry =>
    (flattenOwners doc.tagOwners (doc.tagOwners.length + 1) [] entry.1).map fun owners =>
      (entry.1, sortDedup owners)

variable (tagOwners : List (String × List String))

/-- One more level changes nothing once the levels cover the tags not being expanded yet. -/
theorem flattenOwners_succ (depth : Nat) (visiting : List String) (hnodup : visiting.Nodup)
    (hsub : ∀ tag ∈ visiting, tag ∈ tagOwners.map Prod.fst)
    (hdepth : tagOwners.length + 1 ≤ depth + visiting.length) (tag : String) :
    flattenOwners tagOwners (depth + 1) visiting tag = flattenOwners tagOwners depth visiting tag := by
  induction depth generalizing visiting tag with
  | zero =>
    have hle : visiting.length ≤ tagOwners.length := by
      rw [← length_map (f := Prod.fst)]
      exact (subperm_of_subset hnodup hsub).length_le
    omega
  | succ depth ih =>
    rw [flattenOwners, flattenOwners]
    by_cases hvisiting : tag ∈ visiting
    · simp [hvisiting]
    cases hlookup : tagOwners.lookup tag with
    | none => rfl
    | some owners =>
      have htag : tag ∈ tagOwners.map Prod.fst :=
        mem_map.mpr ⟨_, mem_of_lookup hlookup, rfl⟩
      have hnext : ∀ owner, flattenOwners tagOwners (depth + 1) (tag :: visiting) owner =
          flattenOwners tagOwners depth (tag :: visiting) owner := by
        intro owner
        refine ih (tag :: visiting) (nodup_cons.mpr ⟨hvisiting, hnodup⟩) ?_ ?_ owner
        · intro t ht
          rcases mem_cons.mp ht with rfl | ht
          exacts [htag, hsub t ht]
        · simp only [length_cons]
          omega
      simp only [hnext]

/-- Expanding owning tags deeper than there are tags never changes the owners. -/
theorem flattenOwners_depth (extra : Nat) (tag : String) :
    flattenOwners tagOwners (tagOwners.length + 1 + extra) [] tag =
      flattenOwners tagOwners (tagOwners.length + 1) [] tag := by
  induction extra with
  | zero => rfl
  | succ extra ih =>
    rw [← Nat.add_assoc, flattenOwners_succ tagOwners _ [] nodup_nil (by simp) (by simp), ih]

def grantPorts (specs : List String) : Except GrantIpError (List String) :=
  specs.foldlM (fun ports spec =>
    (normalizeGrantIpSpec spec).map fun patterns => ports ++ patterns) []

/-- The accept rules of grants that have `ip` entries and no `via`. -/
def aclRulesFromGrants (grants : List GrantRule) : Except GrantIpError (List AclRule) :=
  grants.foldlM (fun out grant =>
    if grant.ip = [] ∨ grant.via ≠ [] then .ok out
    else
      (grantPorts grant.ip).map fun ports =>
        if ports = [] then out
        else out ++ [{ action := .accept, src := grant.src, dst := grant.dst, ports := ports }]) []

/-- The document the packet filter is compiled from: generated rules before the original ones. -/
def packetFilterDocument (doc : PolicyDoc) (sourceAclRules : List AclRule) :
    Except GrantIpError PolicyDoc :=
  (aclRulesFromGrants doc.grants).map fun rules => { doc with rules := rules ++ sourceAclRules }

/-! ## State -/

structure PolicyState where
  doc : Option PolicyDoc := none
  filterDoc : Option PolicyDoc := none
  users : Option (List PolicyUser) := none
  raw : Option String := none
  rawBytes : Option ByteArray := none
  compilationSource : Option String := none
  updatedAt : Option Int := none
  /-- A fresh identity for each installed policy. -/
  sshAuthEpoch : Nat := 0
  filters : List FilterRule := []
  packetFilterDefaultAllow : Bool := false
  nodeInputs : NodeInputs := {}
  grantApps : List GrantAppShape := []
  sshAcceptEnvNil : List Bool := []
  sourceAclRules : List AclRule := []
  sourceAclIdentity : Option String := none
  sourceContainerShape : Option String := none
  tagOwnerAliases : List (String × List String) := []
  compiled : Option CompiledRuntime := none
  pendingAttrs : List Nat := []
  compileError : Option AttrsError := none

namespace PolicyState

variable (s : PolicyState)

def runtimeInputs : RuntimeInputs :=
  { doc := s.filterDoc
    apps := s.grantApps
    tagOwnerAliases := s.tagOwnerAliases
    resolverNodes := s.nodeInputs.filterNodes
    defaultAllow := s.packetFilterDefaultAllow
    perNode := s.nodeInputs.needsPerNodeFilter }

/-- Without retained nodes only the global filter is compiled, and the attributes are only
checked. -/
def recompileInner (opaqueDoc : OpaqueDocument) (s : PolicyState) (invalidate : Bool) :
    PolicyState × Except AttrsError Bool :=
  let s := { s with nodeInputs := s.nodeInputs.recompile s.filterDoc s.grantApps }
  if s.nodeInputs.nodes = none then
    let filters := globalFilter s.filterDoc [] s.grantApps s.packetFilterDefaultAllow
    ({ s with filters := filters },
      match s.doc with
      | none => .ok (s.filters ≠ filters)
      | some doc => (compileNodeAttrs doc []).map fun _ => s.filters ≠ filters)
  else
    let outcome := (s.compiled.getD {}).recompile opaqueDoc s.runtimeInputs invalidate
    let installed := { s with compiled := some outcome.1, filters := outcome.1.globalRules }
    match outcome.2 with
    | .error e => (installed, .error e)
    | .ok (changed, effects) =>
      ({ installed with pendingAttrs := sortDedup (installed.pendingAttrs ++ changed) }, .ok effects)

def recompile (opaqueDoc : OpaqueDocument) (s : PolicyState) (invalidate : Bool) :
    PolicyState × Except AttrsError Bool :=
  let outcome := s.recompileInner opaqueDoc invalidate
  ({ outcome.1 with
    compileError :=
      match outcome.2 with
      | .ok _ => none
      | .error e => some e }, outcome.2)

/-- What a recompilation compiles from: the projections, the retained nodes, and the filter mode that
follows from them. -/
def scratch : RuntimeInputs :=
  { s.runtimeInputs with
    perNode := s.filterDoc.any fun doc =>
      hasPerNodeFilters doc s.nodeInputs.filterNodes s.grantApps }

variable (opaqueDoc : OpaqueDocument) (invalidate : Bool)

/-- A recompilation touches the filter mode, the runtime and what is derived from it. -/
theorem recompile_frame :
    ∃ compiled filters pendingAttrs compileError, (s.recompile opaqueDoc invalidate).1 =
      { s with
        nodeInputs := s.nodeInputs.recompile s.filterDoc s.grantApps
        compiled := compiled
        filters := filters
        pendingAttrs := pendingAttrs
        compileError := compileError } := by
  simp only [recompile, recompileInner]
  split
  · exact ⟨_, _, _, _, rfl⟩
  · split
    · exact ⟨_, _, _, _, rfl⟩
    · exact ⟨_, _, _, _, rfl⟩

lemma recompile_unbound {s : PolicyState} (h : s.nodeInputs.nodes = none) :
    (s.recompile opaqueDoc invalidate).1.compiled = s.compiled := by
  have h' : (s.nodeInputs.recompile s.filterDoc s.grantApps).nodes = none := h
  simp only [recompile, recompileInner, h', if_true]

/-- With retained nodes there is a runtime compiled from them. The recompilation fails where the
attributes do; otherwise it clears the caches or, unless they were to be invalidated, keeps them. -/
theorem recompile_bound {s : PolicyState} (h : s.nodeInputs.nodes ≠ none) :
    ∃ rt : CompiledRuntime, (s.recompile opaqueDoc invalidate).1.compiled = some rt ∧
      (s.recompile opaqueDoc invalidate).1.filters = rt.globalRules ∧
      rt.CompiledFrom opaqueDoc s.scratch ∧
      match attrsOf s.filterDoc s.nodeInputs.filterNodes with
      | .error e => (s.recompile opaqueDoc invalidate).2 = .error e
      | .ok attrs => (∃ effects, (s.recompile opaqueDoc invalidate).2 = .ok effects) ∧
          rt.attrs = attrs ∧
          ((rt.filters = [] ∧ rt.matchers = []) ∨
            (invalidate = false ∧ rt.filters = (s.compiled.getD {}).filters ∧
              rt.matchers = (s.compiled.getD {}).matchers)) := by
  have h' : (s.nodeInputs.recompile s.filterDoc s.grantApps).nodes ≠ none := h
  have hinputs : PolicyState.runtimeInputs
      { s with nodeInputs := s.nodeInputs.recompile s.filterDoc s.grantApps } = s.scratch := rfl
  have hattrs : attrsOf s.scratch.doc s.scratch.resolverNodes =
      attrsOf s.filterDoc s.nodeInputs.filterNodes := rfl
  have houtcome := (s.compiled.getD {}).recompile_outcome opaqueDoc s.scratch invalidate
  rw [hattrs] at houtcome
  refine ⟨((s.compiled.getD {}).recompile opaqueDoc s.scratch invalidate).1, ?_, ?_,
    (s.compiled.getD {}).recompile_compiledFrom opaqueDoc s.scratch invalidate, ?_⟩
  · simp only [recompile, recompileInner, h', if_false]
    split <;> rfl
  · simp only [recompile, recompileInner, h', if_false]
    split <;> rfl
  · cases hresult : attrsOf s.filterDoc s.nodeInputs.filterNodes with
    | error e =>
      simp only [hresult] at houtcome ⊢
      simp only [recompile, recompileInner, h', if_false, hinputs, houtcome]
    | ok attrs =>
      simp only [hresult] at houtcome ⊢
      obtain ⟨hnew, ⟨result, hok⟩, hcaches⟩ := houtcome
      refine ⟨⟨result.2, ?_⟩, hnew, hcaches⟩
      simp only [recompile, recompileInner, h', if_false, hinputs, hok]

lemma recompile_compileError :
    (s.recompile opaqueDoc invalidate).1.compileError =
      match (s.recompile opaqueDoc invalidate).2 with
      | .ok _ => none
      | .error e => some e := rfl

/-! ## Installing a policy -/

/-- What a policy to be installed consists of. -/
structure Candidate where
  doc : PolicyDoc
  raw : String
  updatedAt : Int := 0
  original : Option ByteArray := none

/-- A candidate that has passed every check but the compilation, with its projections. -/
structure Projected where
  doc : PolicyDoc
  filterDoc : PolicyDoc
  packetFilterDefaultAllow : Bool
  grantApps : List GrantAppShape
  sshAcceptEnvNil : List Bool
  sourceAclRules : List AclRule
  sourceAclIdentity : Option String
  sourceContainerShape : Option String
  tagOwnerAliases : List (String × List String)

/-- The candidate's own users in id order, or the users of the store. -/
def candidateDoc (doc : PolicyDoc) : PolicyDoc :=
  match doc.users with
  | some users => { doc with users := some (users.insertionSort fun a b => a.id ≤ b.id) }
  | none => { doc with users := s.users }

def project (readers : SourceReaders) (s : PolicyState) (candidate : Candidate)
    (installation : Installation) : Except InstallError Projected :=
  let doc := s.candidateDoc candidate.doc
  let details := (readers.aclDetails candidate.raw doc).map fun (rules, aliases, identity) =>
    (rules, aliases, some identity)
  let (rules, aliases, identity) := details.getD (doc.rules, aclUserAliases doc.rules, none)
  let errors := (doc.users.map fun users =>
    (userReferences doc aliases).filterMap (referenceError users)).getD []
  if errors ≠ [] then .error (.userReferences installation errors)
  else
    (flattenTagOwners doc).bind fun tagOwnerAliases =>
      ((packetFilterDocument doc rules).mapError .grantIp).map fun filterDoc =>
        { doc := doc
          filterDoc := filterDoc
          packetFilterDefaultAllow := doc.rules = [] ∧ doc.grants = [] ∧
            readers.omitsPacketFilterRules candidate.raw = true
          grantApps := readers.grantAppShapes candidate.raw
          sshAcceptEnvNil := readers.sshAcceptEnvNil candidate.raw
          sourceAclRules := rules
          sourceAclIdentity := identity
          sourceContainerShape := readers.containerShape candidate.raw doc
          tagOwnerAliases := tagOwnerAliases }

/-- The candidate differs from what is installed in something compiled policy may depend on. -/
def invalidates (p : Projected) : Bool :=
  s.doc.map (fun doc => { doc with users := none }) ≠ some { p.doc with users := none } ∨
    s.packetFilterDefaultAllow ≠ p.packetFilterDefaultAllow ∨ s.grantApps ≠ p.grantApps ∨
    s.sshAcceptEnvNil ≠ p.sshAcceptEnvNil ∨ s.sourceAclRules ≠ p.sourceAclRules ∨
    s.sourceAclIdentity ≠ p.sourceAclIdentity ∨ s.sourceContainerShape ≠ p.sourceContainerShape ∨
    (p.doc.users ≠ none ∧ s.users ≠ p.doc.users)

/-- The candidate's projections in place of the installed ones. -/
def publish (p : Projected) : PolicyState :=
  { s with
    doc := some p.doc
    filterDoc := some p.filterDoc
    users := p.doc.users
    packetFilterDefaultAllow := p.packetFilterDefaultAllow
    grantApps := p.grantApps
    sshAcceptEnvNil := p.sshAcceptEnvNil
    sourceAclRules := p.sourceAclRules
    sourceAclIdentity := p.sourceAclIdentity
    sourceContainerShape := p.sourceContainerShape
    tagOwnerAliases := p.tagOwnerAliases }

/-- Puts the projections of `before` back. -/
def restore (before : PolicyState) : PolicyState :=
  { s with
    doc := before.doc
    filterDoc := before.filterDoc
    users := before.users
    packetFilterDefaultAllow := before.packetFilterDefaultAllow
    grantApps := before.grantApps
    sshAcceptEnvNil := before.sshAcceptEnvNil
    sourceAclRules := before.sourceAclRules
    sourceAclIdentity := before.sourceAclIdentity
    sourceContainerShape := before.sourceContainerShape
    tagOwnerAliases := before.tagOwnerAliases }

/-- The source and the time of an installed candidate. -/
def recordSource (candidate : Candidate) : PolicyState :=
  { s with
    raw :=
      match candidate.original with
      | some original => String.fromUTF8? original
      | none => some candidate.raw
    rawBytes := candidate.original
    compilationSource := candidate.original.map fun _ => candidate.raw
    updatedAt := some candidate.updatedAt
    sshAuthEpoch := s.sshAuthEpoch + 1 }

def installAtQuiet (readers : SourceReaders) (opaqueDoc : OpaqueDocument) (s : PolicyState)
    (candidate : Candidate) (installation : Installation) :
    PolicyState × Except InstallError Unit :=
  match s.project readers candidate installation with
  | .error e => (s, .error e)
  | .ok p =>
    let outcome := (s.publish p).recompile opaqueDoc (s.invalidates p)
    match outcome.2 with
    | .ok _ => (outcome.1.recordSource candidate, .ok ())
    | .error e =>
      if installation = .initial then (outcome.1, .error (.nodeAttrs e))
      else (((outcome.1.restore s).recompile opaqueDoc true).1, .error (.nodeAttrs e))

/-- A candidate is rejected by a check or by the compilation, or installed. -/
theorem installAtQuiet_cases (readers : SourceReaders) (opaqueDoc : OpaqueDocument)
    (s : PolicyState) (candidate : Candidate) (installation : Installation) :
    (∃ e, s.installAtQuiet readers opaqueDoc candidate installation = (s, .error e)) ∨
      ∃ p, s.project readers candidate installation = .ok p ∧
        ((∃ effects, ((s.publish p).recompile opaqueDoc (s.invalidates p)).2 = .ok effects ∧
            s.installAtQuiet readers opaqueDoc candidate installation =
              (((s.publish p).recompile opaqueDoc (s.invalidates p)).1.recordSource candidate,
                .ok ())) ∨
          ∃ e, ((s.publish p).recompile opaqueDoc (s.invalidates p)).2 = .error e ∧
            s.installAtQuiet readers opaqueDoc candidate installation =
              (if installation = .initial then
                ((s.publish p).recompile opaqueDoc (s.invalidates p)).1
              else
                ((((s.publish p).recompile opaqueDoc (s.invalidates p)).1.restore s).recompile
                  opaqueDoc true).1, .error (.nodeAttrs e))) := by
  unfold installAtQuiet
  cases hp : s.project readers candidate installation with
  | error e => exact .inl ⟨e, rfl⟩
  | ok p =>
    refine .inr ⟨p, rfl, ?_⟩
    simp only
    cases hresult : ((s.publish p).recompile opaqueDoc (s.invalidates p)).2 with
    | ok effects => exact .inl ⟨effects, rfl, rfl⟩
    | error e =>
      refine .inr ⟨e, rfl, ?_⟩
      by_cases hinitial : installation = .initial
      · simp only [hinitial, if_true]
      · simp only [hinitial, if_false]

/-! ## Users and nodes -/

structure PolicyUserChange where
  policyChanged : Bool := false
  peerMapChanged : Bool := false
deriving DecidableEq, Repr

/-- Sets the directory of the store and of both documents. -/
def withDirectory (users : Option (List PolicyUser)) : PolicyState :=
  { s with
    users := users
    doc := s.doc.map fun doc => { doc with users := users }
    filterDoc := s.filterDoc.map fun doc => { doc with users := users } }

/-- The new directory, with nothing cached. -/
def switchDirectory (users : List PolicyUser) : PolicyState :=
  { s.withDirectory (some users) with compiled := s.compiled.map CompiledRuntime.clearCaches }

/-- A failed compilation puts the directory back and leaves what was compiled in place. -/
def setUsersWithChangeQuiet (opaqueDoc : OpaqueDocument) (s : PolicyState)
    (users : List PolicyUser) : PolicyState × Except AttrsError PolicyUserChange :=
  let users := users.insertionSort fun a b => a.id ≤ b.id
  if s.users = some users then (s, .ok {})
  else
    let outcome := (s.switchDirectory users).recompile opaqueDoc true
    match outcome.2 with
    | .error e => (outcome.1.withDirectory s.users, .error e)
    | .ok effects =>
      let peerMapChanged : Bool := s.users.getD [] ≠ users
      (outcome.1, .ok
        { policyChanged := effects || (peerMapChanged &&
            (outcome.1.nodeInputs.needsPerNodeFilter || outcome.1.doc.any fun doc => doc.ssh ≠ []))
          peerMapChanged := peerMapChanged })

def initializeNodeInputs (opaqueDoc : OpaqueDocument) (s : PolicyState) (nodes : List NodeInput) :
    PolicyState × Except AttrsError Unit :=
  let bound := s.nodeInputs.initializeNodes nodes
  if bound.2 then
    let outcome := { s with nodeInputs := bound.1 }.recompile opaqueDoc true
    (outcome.1, outcome.2.map fun _ => ())
  else
    (s, match s.compileError with
      | none => .ok ()
      | some e => .error e)

/-- The new nodes, with the cached answers dropped that they may change. -/
def retainNodes (nodes : List NodeInput) : PolicyState :=
  let invalidations := s.nodeInputs.cacheInvalidations nodes
  { s with
    compiled := s.compiled.map fun rt => rt.invalidateNetwork invalidations.1 invalidations.2
    nodeInputs := (s.nodeInputs.replace nodes).1 }

def tryReplaceNodeInputs (opaqueDoc : OpaqueDocument) (s : PolicyState) (nodes : List NodeInput) :
    PolicyState × Except AttrsError Bool :=
  if (s.nodeInputs.replace nodes).2 then
    let outcome := (s.retainNodes nodes).recompile opaqueDoc true
    (outcome.1, outcome.2.map fun _ => true)
  else (s.retainNodes nodes, .ok false)

/-! ## Queries -/

/-- The filter of a retained node, from the runtime; nothing is served without a document. -/
def filterRulesForNode (node : PacketFilterNode) :
    Option (List FilterRule) × PolicyState :=
  match s.filterDoc, s.compiled with
  | some _, some rt => (some (rt.filterFor node).1, { s with compiled := some (rt.filterFor node).2 })
  | _, _ => (none, s)

def canAccessRouteForPeer (viewer : PacketFilterNode) (route : String) :
    Option Bool × PolicyState :=
  match s.doc, s.compiled with
  | some _, some rt =>
    (some (rt.canAccessRoute viewer route).1,
      { s with compiled := some (rt.canAccessRoute viewer route).2 })
  | _, _ => (none, s)

def nodeAttrsForId (id : Nat) : Option (List String) :=
  s.compiled.map fun rt => rt.attrsFor id

end PolicyState

end Headscale.Policy
