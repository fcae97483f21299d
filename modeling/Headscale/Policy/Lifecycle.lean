import Headscale.Policy.NodeOrder

/-!
# Retained node inputs

The policy manager keeps the nodes it was last given. A new list is compared with the old one node by
node: only where something that compiled policy depends on has moved is the policy recompiled, and
only the cached answers of affected nodes are dropped before that.
-/

namespace Headscale.Policy

open GoNetip Collection List

/-! ## Nodes -/

/-- A retained node. Every constructor of the source takes the login label of a node without an
account as its legacy user. -/
structure NodeInput where
  id : Nat
  ownerId : Nat := 0
  associationId : Option Nat := none
  legacyUser : Option String := none
  user : Option String := none
  addrs : List String := []
  tags : List String := []
  announced : List String := []
  active : List String := []
  legacy : associationId = none → user = legacyUser
deriving DecidableEq

def routeMultisetsEqual (left right : List String) : Bool :=
  left.length = right.length ∧ left.insertionSort (· ≤ ·) = right.insertionSort (· ≤ ·)

namespace NodeInput

def filterNode (node : NodeInput) : PacketFilterNode :=
  { id := node.id
    userId := node.associationId
    user := node.user
    addrs := node.addrs
    tags := node.tags
    routes := node.active }

/-- Something the compiled policy depends on has moved. -/
def policyChanged (node before : NodeInput) (perNode : Bool) : Bool :=
  node.ownerId ≠ before.ownerId ∨ node.associationId ≠ before.associationId ∨
    node.legacyUser ≠ before.legacyUser ∨ node.addrs ≠ before.addrs ∨ node.tags ≠ before.tags ∨
    routeMultisetsEqual node.active before.active = false ∨
    (perNode = true ∧ routeMultisetsEqual node.announced before.announced = false)

def networkChanged (node before : NodeInput) : Bool :=
  node.addrs ≠ before.addrs ∨ routeMultisetsEqual node.announced before.announced = false ∨
    routeMultisetsEqual node.active before.active = false

end NodeInput

/-! ## Lists of nodes -/

/-- A map by id collected from a list: of several nodes with one id the last stays. -/
def nodeById (nodes : List NodeInput) (id : Nat) : Option NodeInput :=
  nodes.reverse.find? fun node => node.id = id

structure NodeInputs where
  nodes : Option (List NodeInput) := none
  needsPerNodeFilter : Bool := false
deriving DecidableEq

namespace NodeInputs

variable (inputs : NodeInputs)

/-- The retained nodes, none when nothing is bound yet. -/
def retained : List NodeInput := inputs.nodes.getD []

def filterNodes : List PacketFilterNode :=
  inputs.retained.map NodeInput.filterNode

variable (nodes : List NodeInput)

def initializeNodes : NodeInputs × Bool :=
  if inputs.nodes = none then ({ inputs with nodes := some nodes }, true) else (inputs, false)

/-- Some node is new or has changed, or there are more or fewer of them. -/
def changedBy : Bool :=
  if inputs.retained.length = nodes.length then
    nodes.any fun node =>
      match nodeById inputs.retained node.id with
      | none => true
      | some before => node.policyChanged before inputs.needsPerNodeFilter
  else true

/-- The new list is kept whether or not it counts as a change. -/
def replace : NodeInputs × Bool :=
  ({ inputs with nodes := some nodes }, inputs.changedBy nodes)

def networkInvalidations : List Nat :=
  (inputs.retained.filter fun before =>
    match nodeById nodes before.id with
    | none => true
    | some node => node.networkChanged before).map NodeInput.id

/-- The owners for whom self rules may differ: of nodes that come, go, change owner, or move their
addresses, and of nodes that become tagged or untagged. -/
def affectedOwners (old new : List NodeInput) : List Nat :=
  (old.filterMap fun before =>
    if nodeById new before.id = none ∧ before.tags = [] then some before.ownerId else none) ++
  new.flatMap fun node =>
    match nodeById old node.id with
    | none => if node.tags = [] then [node.ownerId] else []
    | some before =>
      if node.tags.isEmpty ≠ before.tags.isEmpty then
        [if before.tags = [] then before.ownerId else node.ownerId]
      else if node.tags = [] then
        if node.ownerId ≠ before.ownerId then [before.ownerId, node.ownerId]
        else if node.addrs ≠ before.addrs then [node.ownerId]
        else []
      else []

/-- The ids whose cached answers are dropped, and the ids whose answers may stay. Tagged nodes count
as owned by user zero. -/
def cacheInvalidations : List Nat × List Nat :=
  if !inputs.needsPerNodeFilter then
    (inputs.networkInvalidations nodes, nodes.map NodeInput.id)
  else
    let affected := affectedOwners inputs.retained nodes
    let known := inputs.retained.map NodeInput.id ++ nodes.map NodeInput.id
    (known.filter fun id =>
      match (nodeById nodes id).or (nodeById inputs.retained id) with
      | some node => (if node.tags = [] then node.ownerId else 0) ∈ affected
      | none => false, known)

def recompile (doc : Option PolicyDoc) (apps : List GrantAppShape) :
    NodeInputs :=
  { inputs with
    needsPerNodeFilter := doc.any fun doc => hasPerNodeFilters doc inputs.filterNodes apps }

end NodeInputs

/-! ## Unchanged nodes compile alike -/

lemma perm_of_routeMultisetsEqual {left right : List String}
    (h : routeMultisetsEqual left right = true) : left.Perm right := by
  have hsorted := (of_decide_eq_true h).2
  calc left.Perm (left.insertionSort (· ≤ ·)) := (perm_insertionSort _ _).symm
    _ = right.insertionSort (· ≤ ·) := hsorted
    List.Perm _ right := perm_insertionSort _ _

variable {doc : PolicyDoc} {nodes : List NodeInput} {node : NodeInput}

lemma nodeById_eq_some {id : Nat} (h : nodeById nodes id = some node) :
    node ∈ nodes ∧ node.id = id :=
  ⟨mem_reverse.mp (mem_of_find?_eq_some h), by simpa using find?_some h⟩

/-- Where the users are known, a node that counts as unchanged compiles as before. -/
theorem nodeEquiv_of_policyChanged (hdoc : doc.users ≠ none) {before : NodeInput}
    (hid : node.id = before.id) {perNode : Bool} (h : node.policyChanged before perNode = false) :
    NodeEquiv doc before.filterNode node.filterNode := by
  have hnot := of_decide_eq_false h
  simp only [not_or, not_not] at hnot
  obtain ⟨-, hassociation, hlegacy, haddrs, htags, hactive, -⟩ := hnot
  refine ⟨hid.symm, hassociation.symm, ?_, haddrs.symm, htags.symm, ?_⟩
  · rintro (hnone | hnone)
    · exact absurd hnone hdoc
    · have hbefore : before.associationId = none := hnone
      change before.user = node.user
      rw [before.legacy hbefore, node.legacy (hassociation.trans hbefore), hlegacy]
  · intro route
    have hperm := perm_of_routeMultisetsEqual (by simpa using hactive)
    exact hperm.mem_iff.symm

/-- Lists with distinct ids that count as unchanged compile alike. -/
theorem sameNodes_of_changedBy (hdoc : doc.users ≠ none) {inputs : NodeInputs}
    (hold : (inputs.retained.map NodeInput.id).Nodup) (hnew : (nodes.map NodeInput.id).Nodup)
    (h : inputs.changedBy nodes = false) :
    SameNodes doc inputs.filterNodes (nodes.map NodeInput.filterNode) := by
  unfold NodeInputs.changedBy at h
  split at h
  swap
  · cases h
  rename_i hlength
  have hbefore : ∀ node ∈ nodes, ∃ before, nodeById inputs.retained node.id = some before ∧
      NodeEquiv doc before.filterNode node.filterNode := by
    intro node hnode
    have hany := any_eq_false.mp h node hnode
    split at hany
    · simp at hany
    · rename_i before hfind
      exact ⟨before, hfind, nodeEquiv_of_policyChanged hdoc (nodeById_eq_some hfind).2.symm
        (by simpa using hany)⟩
  -- The new ids are among the old ones, and there are as many of them.
  have hids : ∀ id ∈ inputs.retained.map NodeInput.id, id ∈ nodes.map NodeInput.id := by
    have hsub : (nodes.map NodeInput.id).Subperm (inputs.retained.map NodeInput.id) := by
      refine subperm_of_subset hnew fun id hid => ?_
      obtain ⟨node, hnode, rfl⟩ := mem_map.mp hid
      obtain ⟨before, hfind, -⟩ := hbefore node hnode
      obtain ⟨hmem, hid⟩ := nodeById_eq_some hfind
      exact mem_map.mpr ⟨before, hmem, hid⟩
    exact fun id hid => (hsub.perm_of_length_le (by simp [hlength])).mem_iff.mpr hid
  constructor
  · intro x hx
    obtain ⟨before, hmem, rfl⟩ := mem_map.mp hx
    obtain ⟨node, hnode, hid⟩ := mem_map.mp (hids before.id (mem_map_of_mem hmem))
    obtain ⟨found, hfind, hequiv⟩ := hbefore node hnode
    have hsame : nodeById inputs.retained node.id = some before := by
      rw [hid]
      exact find_reverse_key hold hmem
    cases hfind.symm.trans hsame
    exact ⟨node.filterNode, mem_map_of_mem hnode, hequiv⟩
  · intro y hy
    obtain ⟨node, hnode, rfl⟩ := mem_map.mp hy
    obtain ⟨before, hfind, hequiv⟩ := hbefore node hnode
    exact ⟨before.filterNode, mem_map_of_mem (nodeById_eq_some hfind).1, hequiv⟩

end Headscale.Policy
