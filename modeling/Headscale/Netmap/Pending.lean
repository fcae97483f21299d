import Headscale.Netmap.Delta

/-!
# Changes on their way to the streams

Changes of the network map wait for every connected node until they are published in one batch. A
full update for everybody takes the place of what waits for a node, and the removal of a node
discards it. Everything else reaches a connected node, once and in order.
-/

namespace Headscale.Netmap

open Std TreeMap

/-- The changes that wait for each node. -/
abbrev PendingMapChanges := ExtTreeMap Nat (List MapChange)

def batcherNodeIds (activeConnections : ExtTreeMap Nat Nat) : List Nat := activeConnections.keys

namespace MapChange

variable (change : MapChange) (nodeId : Nat)

def shouldSendToNode : Bool := change.targetNodeId.all (· = nodeId)

/-- A full update that is for no node in particular. -/
def isFullForAll : Bool := change.isFull && change.targetNodeId.isNone

/-- The change is for the node. A node is told of its own removal by a full update only. -/
def addressedTo : Bool :=
  change.isFullForAll ||
    change.shouldSendToNode nodeId && decide (nodeId ∉ change.content.peersRemoved)

/-- The change takes back what waits for the node. -/
def supersedes : Bool := change.isFullForAll || decide (nodeId ∈ change.content.peersRemoved)

end MapChange

def enqueueMapChange (activeConnections : ExtTreeMap Nat Nat) (pending : PendingMapChanges)
    (change : MapChange) : PendingMapChanges :=
  let removed := change.content.peersRemoved
  let nodeIds := batcherNodeIds activeConnections
  let pending := removed.foldl ExtTreeMap.erase pending
  if change.isFullForAll then
    nodeIds.foldl (fun pending id => pending.insert id [change]) pending
  else
    match change.targetNodeId with
    | some target =>
      if target ∈ removed ∨ target ∉ nodeIds then pending else push pending target change
    | none =>
      let recipients := nodeIds.filter fun id => id ∉ removed ∧ change.shouldSendToNode id
      recipients.foldl (fun pending id => push pending id change) pending

/-- The waiting changes, and the batches published so far, the oldest first. -/
structure MapBatches where
  pending : PendingMapChanges := ∅
  published : List PendingMapChanges := []

inductive MapBatchCall where
  | enqueue (activeConnections : ExtTreeMap Nat Nat) (change : MapChange)
  | publish

namespace MapBatches

variable (s : MapBatches)

def publishPendingMapChanges : MapBatches × Option PendingMapChanges :=
  let drained := { s with pending := ∅ }
  if s.pending.isEmpty then (drained, none)
  else ({ drained with published := s.published ++ [s.pending] }, some s.pending)

def apply : MapBatchCall → MapBatches
  | .enqueue active change => { s with pending := enqueueMapChange active s.pending change }
  | .publish => s.publishPendingMapChanges.1

variable (node : Nat)

def drainedFor : List MapChange := s.published.flatMap fun batch => batch[node]?.getD []

def waitingFor : List MapChange := s.pending[node]?.getD []

end MapBatches

section Runs

variable (node : Nat)

/-- A change takes back what waits for the node before the next publication. -/
def takenBack : List MapBatchCall → Bool
  | .enqueue _ change :: rest => change.supersedes node || takenBack rest
  | _ => false

/-- The changes for the node in the order of the calls, without those that are taken back. -/
def changesFor : List MapBatchCall → List MapChange
  | [] => []
  | .publish :: rest => changesFor rest
  | .enqueue _ change :: rest =>
    if change.addressedTo node && !takenBack node rest then change :: changesFor rest
    else changesFor rest

end Runs

variable {activeConnections : ExtTreeMap Nat Nat} {change : MapChange} {node : Nat} (s : MapBatches)

lemma nodup_batcherNodeIds : (batcherNodeIds activeConnections).Nodup :=
  activeConnections.distinct_keys.imp fun hne heq => hne (by simp [heq])

lemma getElem?_foldl_insert (ids : List Nat) (pending : PendingMapChanges) :
    (ids.foldl (fun pending id => pending.insert id [change]) pending)[node]? =
      if node ∈ ids then some [change] else pending[node]? := by
  induction ids generalizing pending with
  | nil => simp
  | cons id ids ih =>
    rw [List.foldl_cons, ih, ExtTreeMap.getElem?_insert]
    by_cases hid : node = id
    · simp [hid]
    · simp [hid, Ne.symm hid]

open MapBatches

open MapChange

/-- What waits for a connected node when a change was enqueued. -/
theorem waitingFor_enqueue (hconnected : node ∈ activeConnections) :
    (s.apply (.enqueue activeConnections change)).waitingFor node =
      (if change.supersedes node then [] else s.waitingFor node) ++
        if change.addressedTo node then [change] else [] := by
  have hmem : node ∈ batcherNodeIds activeConnections := ExtTreeMap.mem_keys.mpr hconnected
  have herased := getElem?_foldl_erase change.content.peersRemoved s.pending node
  simp only [apply, waitingFor, enqueueMapChange, supersedes, addressedTo]
  by_cases hfull : change.isFullForAll = true
  · simp [hfull, getElem?_foldl_insert, hmem]
  by_cases hremoved : node ∈ change.content.peersRemoved <;>
    cases htarget : change.targetNodeId with
    | none => simp [hfull, hremoved, herased, hmem, shouldSendToNode, htarget,
        getElem?_foldl_push (nodup_batcherNodeIds.filter _)]
    | some target =>
      by_cases hnode : target = node
      · simp [hfull, hremoved, herased, hmem, shouldSendToNode, htarget, hnode, getElem?_push]
      · simp only [shouldSendToNode]
        split_ifs <;> simp_all [getElem?_push]

/-- A publication drains what waits. -/
theorem publish_drains (node : Nat) :
    (s.apply .publish).drainedFor node = s.drainedFor node ++ s.waitingFor node ∧
      (s.apply .publish).waitingFor node = [] := by
  unfold apply publishPendingMapChanges drainedFor
    waitingFor
  by_cases hempty : s.pending.isEmpty = true
  · have hpending : s.pending = ∅ := ExtTreeMap.isEmpty_iff.mp hempty
    simp [hpending]
  · simp [hempty]

/-- In a run from any state, what waits at its start is drained or still waits, unless it is taken
back. -/
theorem drained_and_waiting (calls : List MapBatchCall)
    (hconnected : ∀ active change, .enqueue active change ∈ calls → node ∈ active) :
    (calls.foldl apply s).drainedFor node ++
        (calls.foldl apply s).waitingFor node =
      s.drainedFor node ++ (if takenBack node calls then [] else s.waitingFor node) ++
        changesFor node calls := by
  induction calls generalizing s with
  | nil => simp [takenBack, changesFor]
  | cons call calls ih =>
    rw [List.foldl_cons, ih _ fun active change hmem => hconnected active change (.tail _ hmem)]
    cases call with
    | publish =>
      obtain ⟨hdrained, hwaiting⟩ := publish_drains s node
      simp [hdrained, hwaiting, takenBack, changesFor]
    | enqueue active change =>
      have hdrained : (s.apply (.enqueue active change)).drainedFor node = s.drainedFor node := rfl
      rw [hdrained, waitingFor_enqueue s (hconnected active change (.head _)), takenBack,
        changesFor]
      -- what takes back the changes before this one takes it back too
      cases takenBack node calls <;> cases change.supersedes node <;>
        cases change.addressedTo node <;> simp

/-- The changes drained for a node that stays connected, followed by those that still wait for it,
are the changes for it in the order of the calls, without those taken back while they waited. -/
theorem batches_carry_the_changes (calls : List MapBatchCall)
    (hconnected : ∀ active change, .enqueue active change ∈ calls → node ∈ active) :
    (calls.foldl apply {}).drainedFor node ++
        (calls.foldl apply {}).waitingFor node = changesFor node calls := by
  have hrun := drained_and_waiting {} calls hconnected
  simpa [drainedFor, waitingFor] using hrun

/-- A full update takes the place of the change that waits for the only node. -/
def supersededRun : List MapBatchCall :=
  let full : MapChangeContent :=
    { sendAllPeers := true, includeSelf := true, includeDerpMap := true, includeDns := true
      includeDomain := true, includePolicy := true }
  [{}, { content := full }, { targetNodeId := some 1 }].map
    (.enqueue ((∅ : ExtTreeMap Nat Nat).insert 1 1))

theorem supersededRun_changes :
    (supersededRun.foldl apply {}).drainedFor 1 ++
      (supersededRun.foldl apply {}).waitingFor 1 = changesFor 1 supersededRun ∧
      (changesFor 1 supersededRun).length = 2 := by
  refine ⟨batches_carry_the_changes supersededRun fun active change hmem => ?_, by decide⟩
  obtain ⟨_, -, heq⟩ := List.mem_map.mp hmem
  cases heq
  simp

end Headscale.Netmap
