import Headscale.NodeStore.Batch

/-!
# Expiry of nodes

An edit of a node's expiry and the scheduled expiry pass both decide anew whether the node is online.
The pass takes the nodes whose expiry lies between the previous pass and its own time, picks them from
a snapshot, checks them again in the writer, and announces those that are left in the end.

Both ends of the window of a pass are strict, and so consecutive windows leave a gap at every pass time:
a node that expires at the very time of a pass is announced by no pass at all.
-/

/-! ## Changes -/

namespace Headscale.Netmap

def appendUnique {α : Type} [DecidableEq α] (values more : List α) : List α :=
  more.foldl (fun values value => if value ∈ values then values else values ++ [value]) values

namespace MapChangeContent

def full : MapChangeContent :=
  { includeSelf := true
    includeDerpMap := true
    includeDns := true
    includeDomain := true
    includePolicy := true
    sendAllPeers := true }

def forReason (reason : MapChangeReason) (nodeId : Option Nat) : MapChangeContent :=
  match reason with
  | .fullUpdate | .fullSelfUpdate | .subnetRouterOnline | .subnetRouterOffline | .userRemoved =>
    full
  | .selfUpdate => { includeSelf := true, includeDns := true }
  | .nodeAdded | .nodeUpdated | .routeUpdate =>
    match nodeId with
    | some id => { peersChanged := [id] }
    | none => { sendAllPeers := true }
  | .peersRemoved =>
    match nodeId with
    | some id => { peersRemoved := [id] }
    | none => { sendAllPeers := true }
  | .nodeOnline | .nodeOffline | .endpointDerpUpdate | .nodeKeyRotated | .keyExpiry =>
    match nodeId with
    | some id => { peerPatches := [id] }
    | none => { sendAllPeers := true }
  | .policyChange | .tagUpdate | .routeHealthUpdate =>
    { includePolicy := true, requiresRuntimePeerComputation := true }
  | .dnsConfigUpdate => { includeDns := true }
  | .derpMapUpdate => { includeDerpMap := true }
  | .pingNode => { pingRequest := true }

def merge (content other : MapChangeContent) : MapChangeContent where
  includeSelf := content.includeSelf || other.includeSelf
  includeDerpMap := content.includeDerpMap || other.includeDerpMap
  includeDns := content.includeDns || other.includeDns
  includeDomain := content.includeDomain || other.includeDomain
  includePolicy := content.includePolicy || other.includePolicy
  sendAllPeers := content.sendAllPeers || other.sendAllPeers
  requiresRuntimePeerComputation :=
    content.requiresRuntimePeerComputation || other.requiresRuntimePeerComputation
  pingRequest := content.pingRequest || other.pingRequest
  peersChanged := appendUnique content.peersChanged other.peersChanged
  peersRemoved := appendUnique content.peersRemoved other.peersRemoved
  peerPatches := appendUnique content.peerPatches other.peerPatches

end MapChangeContent

end Headscale.Netmap

namespace Headscale.NodeStore

open Std Node Netmap

namespace PendingMapChange

def withCompanionReason (change : PendingMapChange) (reason : MapChangeReason) : PendingMapChange :=
  if change.reason ≠ reason ∧ reason ∉ change.companionReasons then
    { change with
      companionReasons := change.companionReasons ++ [reason]
      content := change.content.merge (.forReason reason none) }
  else change

/-- The change of a node that has gone online or offline or has come back. -/
def lifecyclePeer (reason : MapChangeReason) (nodeId : Nat) (recompute : Bool) : PendingMapChange :=
  let change : PendingMapChange :=
    { reason := reason
      originNodeId := if reason = .nodeAdded then some nodeId else none
      content := .forReason reason (some nodeId) }
  if recompute then change.withCompanionReason .policyChange else change

lemma lifecyclePeer_origin (nodeId : Nat) (recompute : Bool) :
    (lifecyclePeer .nodeAdded nodeId recompute).originNodeId = some nodeId := by
  cases recompute with
  | false | true => rfl

end PendingMapChange

/-! ## Edits -/

/-- `update_online_after_expiry`. -/
def Sessions.updateOnlineAfterExpiry (sessions : Sessions) (record : MachineRecord) (id : Nat)
    (now : Int) : Sessions :=
  { sessions with
    onlineStates := sessions.onlineStates.insert id
      (0 < sessions.stateSessions[id]?.getD 0 && !record.isExpiredAt now) }

/-- The edit of a record's expiry, by the key it is found under. -/
def editExpiry (found : Option (String × MachineRecord)) (expiry : Option Int) (now : Int)
    (records : NodeMap) (sessions : Sessions) : UpdateResult NodeStoreBoolUpdateOutcome :=
  match found with
  | none => { records := records, sessions := sessions, outcome := .unchanged false }
  | some (key, record) =>
    let id := stableNodeIdForKey key record
    let edited := { record with expiry := expiry }
    { records := records.insert key edited
      sessions := sessions.updateOnlineAfterExpiry edited id now
      outcome := { NodeStoreBoolUpdateOutcome.quiet true with finalPresenceNodeId := some id } }

lemma Sessions.Grows.of_eq {records : NodeMap} {before after : Sessions}
    (hepochs : after.streamSessionEpochs = before.streamSessionEpochs)
    (hnext : after.nextEpoch = before.nextEpoch) (htimers : after.ephemeralGc = before.ephemeralGc) :
    before.Grows records after where
  kept _ _ h := hepochs ▸ h
  opened _ _ h := .inl (hepochs ▸ h)
  nextEpoch := hnext.ge
  timers := htimers

lemma editExpiry_grows (found : Option (String × MachineRecord)) (expiry : Option Int) (now : Int)
    (records : NodeMap) (sessions : Sessions) :
    sessions.Grows records (editExpiry found expiry now records sessions).sessions := by
  cases found with
  | none | some => exact .of_eq rfl rfl rfl

/-- `set_node_expiry_quiet`. -/
def setNodeExpiryQuiet (id : Nat) (expiry : Option Int) (now : Int) :
    Update NodeStoreBoolUpdateOutcome where
  run records := editExpiry (records.findById id) expiry now records
  grows records := editExpiry_grows _ expiry now records

open PendingMapChange

/-- `try_set_expiry`. -/
def trySetExpiry (nodeKeyHex : String) (expiry : Option Int) (now : Int) :
    Update NodeStoreBoolUpdateOutcome where
  run records := editExpiry (records[nodeKeyHex]?.map (nodeKeyHex, ·)) expiry now records
  grows records := editExpiry_grows _ expiry now records

/-! ## The pass -/

section Pass

variable (needsPeerRecompute : MachineRecord → Bool) (lastCheck now : Int)

/-- The expiry of the record has crossed since the last check. -/
def crossed (record : MachineRecord) : Bool :=
  record.isExpiredAt now && record.expiry.any (lastCheck < ·)

def expiryCandidates (snapshot : NodeMap) : ExtTreeSet Nat :=
  .ofList ((snapshot.toList.filter fun entry => crossed lastCheck now entry.2).map fun entry =>
    stableNodeIdForKey entry.1 entry.2)

/-- A candidate is checked again in the writer: it may have been given another expiry since. -/
def expires (candidates : ExtTreeSet Nat) (entry : String × MachineRecord) : Bool :=
  candidates.contains (stableNodeIdForKey entry.1 entry.2) && crossed lastCheck now entry.2

/-- The state of the loop over the records of the writer. -/
structure ExpiryLoop where
  onlineStates : ExtTreeMap Nat Bool
  changes : List PendingMapChange := []
  affected : List (String × Nat) := []

def expireStep (candidates : ExtTreeSet Nat) (loop : ExpiryLoop) (entry : String × MachineRecord) :
    ExpiryLoop :=
  let id := stableNodeIdForKey entry.1 entry.2
  if expires lastCheck now candidates entry then
    let wasOnline := loop.onlineStates[id]?.getD false
    { onlineStates := loop.onlineStates.insert id false
      changes := loop.changes ++
        [.lifecyclePeer .nodeAdded id (wasOnline && needsPeerRecompute entry.2)]
      affected := loop.affected ++ [(entry.1, id)] }
  else loop

def expireLoop (candidates : ExtTreeSet Nat) (records : NodeMap) (sessions : Sessions) : ExpiryLoop :=
  records.toList.foldl (expireStep needsPeerRecompute lastCheck now candidates)
    { onlineStates := sessions.onlineStates }

/-- The update that the pass runs in the writer. -/
def expireUpdate (candidates : ExtTreeSet Nat) : Update NodeStoreManyUpdateOutcome where
  run records sessions :=
    let loop := expireLoop needsPeerRecompute lastCheck now candidates records sessions
    { records := records
      sessions := { sessions with onlineStates := loop.onlineStates }
      outcome :=
        { applied := loop.affected.length
          publishSnapshot := loop.affected.length ≠ 0
          affectedNodeKeys := loop.affected.map Prod.fst
          affectedNodeIds := loop.affected.map Prod.snd
          finalPresenceNodeIds := loop.affected.map Prod.snd } }
  grows _ _ := .of_eq rfl rfl rfl

/-- What a pass meets: the snapshot it picks its candidates from, the registry that its update finds,
and the final map of the batch that the update is part of, if it is queued. -/
structure PassContext where
  snapshot : NodeMap
  registry : Registry
  batchEnd : Option NodeMap

/-- What a pass sends to the waiters, and the keys that it returns. -/
structure PassResult where
  changes : List PendingMapChange := []
  expired : List String := []
deriving DecidableEq

/-- The answer to the update of the pass, corrected if it comes out of a batch. -/
def expireOutcome (context : PassContext) : NodeStoreManyUpdateOutcome :=
  let candidates := expiryCandidates lastCheck now context.snapshot
  let direct := ((expireUpdate needsPeerRecompute lastCheck now candidates).run
    context.registry.records context.registry.sessions).outcome
  context.batchEnd.elim direct direct.revalidateFinalPresenceAfterBatch

/-- `wake_expired_nodes_between`. -/
def wakeExpiredNodesBetween (context : PassContext) : PassResult :=
  let candidates := expiryCandidates lastCheck now context.snapshot
  if candidates.isEmpty then {}
  else
    let loop := expireLoop needsPeerRecompute lastCheck now candidates context.registry.records
      context.registry.sessions
    let outcome := expireOutcome needsPeerRecompute lastCheck now context
    if outcome.applied = 0 then {}
    else
      { changes := loop.changes.filter fun change =>
          change.originNodeId.any (· ∈ outcome.finalPresenceNodeIds)
        expired := (outcome.affectedNodeKeys.zip outcome.affectedNodeIds).filterMap fun (key, id) =>
          if id ∈ outcome.finalPresenceNodeIds then some key else none }

/-! ## What a pass announces -/

lemma foldl_expireStep (candidates : ExtTreeSet Nat) (entries : List (String × MachineRecord))
    (loop : ExpiryLoop) :
    (entries.foldl (expireStep needsPeerRecompute lastCheck now candidates) loop).affected =
        loop.affected ++ (entries.filter (expires lastCheck now candidates)).map
          (fun entry => (entry.1, stableNodeIdForKey entry.1 entry.2)) ∧
      (entries.foldl (expireStep needsPeerRecompute lastCheck now candidates) loop).changes.map
          originNodeId =
        loop.changes.map originNodeId ++
          (entries.filter (expires lastCheck now candidates)).map
            (fun entry => some (stableNodeIdForKey entry.1 entry.2)) := by
  induction entries generalizing loop with
  | nil => simp
  | cons entry entries ih =>
    obtain ⟨haffected, hchanges⟩ := ih (expireStep needsPeerRecompute lastCheck now candidates loop entry)
    rw [List.foldl_cons, haffected, hchanges, expireStep]
    by_cases hentry : expires lastCheck now candidates entry = true
    · simp [hentry, lifecyclePeer_origin]
    · rw [if_neg hentry, List.filter_cons_of_neg hentry]
      exact ⟨rfl, rfl⟩

section Loop

variable (candidates : ExtTreeSet Nat) (records : NodeMap) (sessions : Sessions)

/-- The ids that the loop goes through with are those its changes originate from. -/
theorem expireLoop_origins :
    (expireLoop needsPeerRecompute lastCheck now candidates records sessions).changes.map
        originNodeId =
      ((expireLoop needsPeerRecompute lastCheck now candidates records sessions).affected.map
        Prod.snd).map some := by
  obtain ⟨haffected, hchanges⟩ := foldl_expireStep needsPeerRecompute lastCheck now candidates
    records.toList { onlineStates := sessions.onlineStates }
  rw [expireLoop, haffected, hchanges]
  simp

lemma mem_affected (id : Nat) :
    id ∈ (expireLoop needsPeerRecompute lastCheck now candidates records sessions).affected.map
        Prod.snd ↔
      id ∈ candidates ∧ ∃ (key : String) (record : MachineRecord), records[key]? = some record ∧
        stableNodeIdForKey key record = id ∧ crossed lastCheck now record = true := by
  obtain ⟨haffected, -⟩ := foldl_expireStep needsPeerRecompute lastCheck now candidates
    records.toList { onlineStates := sessions.onlineStates }
  rw [expireLoop, haffected]
  simp only [List.nil_append, List.map_map, List.mem_map, List.mem_filter, expires,
    Bool.and_eq_true, Prod.exists,
    ExtTreeMap.mem_toList_iff_getElem?_eq_some]
  constructor
  · rintro ⟨key, record, ⟨hrecord, hcandidate, hcrossed⟩, rfl⟩
    exact ⟨hcandidate, key, record, hrecord, rfl, hcrossed⟩
  · rintro ⟨hcandidate, key, record, hrecord, rfl, hcrossed⟩
    exact ⟨key, record, ⟨hrecord, hcandidate, hcrossed⟩, rfl⟩

end Loop

lemma mem_expiryCandidates {snapshot : NodeMap} {id : Nat} :
    id ∈ expiryCandidates lastCheck now snapshot ↔
      ∃ (key : String) (record : MachineRecord), snapshot[key]? = some record ∧
        stableNodeIdForKey key record = id ∧ crossed lastCheck now record = true := by
  simp only [expiryCandidates, ExtTreeSet.mem_ofList, List.contains_iff_mem, List.mem_map,
    List.mem_filter, Prod.exists, ExtTreeMap.mem_toList_iff_getElem?_eq_some]
  constructor
  · rintro ⟨key, record, ⟨hrecord, hcrossed⟩, rfl⟩
    exact ⟨key, record, hrecord, rfl, hcrossed⟩
  · rintro ⟨key, record, hrecord, rfl, hcrossed⟩
    exact ⟨key, record, ⟨hrecord, hcrossed⟩, rfl⟩

end Pass

/-- The map has the node, with the given expiry. -/
structure NodeMap.HoldsWith (records : NodeMap) (id : Nat) (expiry : Int) : Prop where
  present : records.hasNode id = true
  expiry_eq : ∀ (key : String) (record : MachineRecord), records[key]? = some record →
    stableNodeIdForKey key record = id → record.expiry = some expiry

/-- The node is there all through the pass, with one expiry. -/
structure PassContext.Holds (context : PassContext) (id : Nat) (expiry : Int) : Prop where
  snapshot : context.snapshot.HoldsWith id expiry
  records : context.registry.records.HoldsWith id expiry
  batchEnd : ∀ final ∈ context.batchEnd, final.hasNode id = true

/-- The pass sends a change that originates from the node. -/
def PassResult.Announces (result : PassResult) (id : Nat) : Prop :=
  ∃ change ∈ result.changes, change.originNodeId = some id

section Announces

variable {needsPeerRecompute : MachineRecord → Bool} {lastCheck now : Int} {id : Nat} {expiry : Int}

lemma crossed_iff {record : MachineRecord} (h : record.expiry = some expiry) :
    crossed lastCheck now record = true ↔
      expiry ≠ Db.goZeroTime ∧ lastCheck < expiry ∧ expiry < now := by
  simp only [crossed, MachineRecord.isExpiredAt, h, Option.any_some, Bool.and_eq_true,
    decide_eq_true_eq]
  tauto

/-- A node of the map has crossed if its expiry has. -/
theorem NodeMap.HoldsWith.crossed_iff {records : NodeMap} (h : records.HoldsWith id expiry) :
    (∃ (key : String) (record : MachineRecord), records[key]? = some record ∧
        stableNodeIdForKey key record = id ∧ crossed lastCheck now record = true) ↔
      expiry ≠ Db.goZeroTime ∧ lastCheck < expiry ∧ expiry < now := by
  constructor
  · rintro ⟨key, record, hrecord, hid, hcrossed⟩
    exact (NodeStore.crossed_iff (h.expiry_eq key record hrecord hid)).mp hcrossed
  · intro hcrossed
    obtain ⟨key, record, hrecord, hid⟩ := NodeMap.hasNode_iff.mp h.present
    exact ⟨key, record, hrecord, hid,
      (NodeStore.crossed_iff (h.expiry_eq key record hrecord hid)).mpr hcrossed⟩

/-- The correction at the end of a batch keeps the named nodes that are left. -/
theorem NodeStoreManyUpdateOutcome.revalidate_keeps {outcome : NodeStoreManyUpdateOutcome}
    {final : NodeMap} (hid : id ∈ outcome.finalPresenceNodeIds) (hlive : final.hasNode id = true)
    (happlied : outcome.applied ≠ 0) :
    (outcome.revalidateFinalPresenceAfterBatch final).applied ≠ 0 ∧
      id ∈ (outcome.revalidateFinalPresenceAfterBatch final).finalPresenceNodeIds := by
  have hnames : outcome.finalPresenceNodeIds ≠ [] := List.ne_nil_of_mem hid
  have hsize : (outcome.present final).size ≠ 0 := by
    intro hzero
    have hempty : (outcome.present final).isEmpty = true := by
      rw [ExtTreeSet.isEmpty_eq_size_beq_zero, hzero]
      rfl
    have hmem : id ∈ outcome.present final :=
      NodeStoreManyUpdateOutcome.mem_present.mpr (List.mem_filter.mpr ⟨hid, hlive⟩)
    rw [ExtTreeSet.isEmpty_iff.mp hempty] at hmem
    exact ExtTreeSet.not_mem_empty hmem
  rw [(outcome.revalidate_eq_restricted_iff final).mpr (.inr ⟨id, hid, hlive⟩),
    NodeStoreManyUpdateOutcome.restrictedTo, if_neg hnames]
  exact ⟨by simp only; omega, List.mem_filter.mpr ⟨hid, hlive⟩⟩

/-- A node that the loop goes through with is named in the answer, also after a batch that keeps it. -/
theorem expireOutcome_names {context : PassContext}
    (hid : id ∈ (expireLoop needsPeerRecompute lastCheck now
      (expiryCandidates lastCheck now context.snapshot)
      context.registry.records context.registry.sessions).affected.map Prod.snd)
    (hlive : ∀ final ∈ context.batchEnd, final.hasNode id = true) :
    (expireOutcome needsPeerRecompute lastCheck now context).applied ≠ 0 ∧
      id ∈ (expireOutcome needsPeerRecompute lastCheck now context).finalPresenceNodeIds := by
  have happlied : (expireLoop needsPeerRecompute lastCheck now
      (expiryCandidates lastCheck now context.snapshot) context.registry.records
      context.registry.sessions).affected.length ≠ 0 := by
    intro hzero
    rw [List.length_eq_zero_iff.mp hzero] at hid
    cases hid
  rw [expireOutcome]
  cases hend : context.batchEnd with
  | none => exact ⟨happlied, hid⟩
  | some final =>
    exact NodeStoreManyUpdateOutcome.revalidate_keeps hid (hlive final hend) happlied

/-- A pass announces a node exactly if the expiry lies strictly inside its window. -/
theorem announces_iff {context : PassContext} (h : context.Holds id expiry) :
    (wakeExpiredNodesBetween needsPeerRecompute lastCheck now context).Announces id ↔
      expiry ≠ Db.goZeroTime ∧ lastCheck < expiry ∧ expiry < now := by
  have hcandidate : id ∈ expiryCandidates lastCheck now context.snapshot ↔
      expiry ≠ Db.goZeroTime ∧ lastCheck < expiry ∧ expiry < now := by
    rw [mem_expiryCandidates, h.snapshot.crossed_iff]
  have haffected := mem_affected needsPeerRecompute lastCheck now
    (expiryCandidates lastCheck now context.snapshot) context.registry.records
    context.registry.sessions id
  rw [h.records.crossed_iff, hcandidate, and_self] at haffected
  have horigins := expireLoop_origins needsPeerRecompute lastCheck now
    (expiryCandidates lastCheck now context.snapshot) context.registry.records context.registry.sessions
  rw [PassResult.Announces, wakeExpiredNodesBetween]
  constructor
  · intro hannounced
    split at hannounced
    · simp at hannounced
    dsimp only at hannounced
    split at hannounced
    · simp at hannounced
    obtain ⟨change, hchange, horigin⟩ := hannounced
    have hmem := List.mem_map.mpr ⟨change, (List.mem_filter.mp hchange).1, horigin⟩
    rw [horigins] at hmem
    exact haffected.mp (by simpa using hmem)
  · intro hcrossed
    have hid := haffected.mpr hcrossed
    obtain ⟨happlied, hnamed⟩ := expireOutcome_names hid h.batchEnd
    have hcandidates : (expiryCandidates lastCheck now context.snapshot).isEmpty = false := by
      refine ExtTreeSet.isEmpty_eq_false_iff.mpr fun hempty => ?_
      exact ExtTreeSet.not_mem_empty (hempty ▸ hcandidate.mpr hcrossed)
    have horigin : some id ∈ List.map some _ := List.mem_map_of_mem hid
    rw [← horigins] at horigin
    obtain ⟨change, hchange, horigin⟩ := List.mem_map.mp horigin
    rw [hcandidates, if_neg nofun, if_neg happlied]
    exact ⟨change, List.mem_filter.mpr ⟨hchange, by simpa [horigin] using hnamed⟩, horigin⟩

end Announces

/-- Consecutive passes, each checking from the time of the one before, announce a node that expires
between the first and the last of their times exactly once, if no pass runs at the very time of the
expiry and the expiry is not Go's zero time, which stands for none. -/
theorem expiry_announced_once_iff (needsPeerRecompute : MachineRecord → Bool) (n : ℕ) (time : ℕ → Int)
    (hsteps : ∀ i < n, time i < time (i + 1)) (context : ℕ → PassContext) (id : Nat) (expiry : Int)
    (hheld : ∀ i < n, (context i).Holds id expiry) (hfirst : time 0 < expiry)
    (hlast : expiry < time n) :
    (∃! i, i < n ∧ (wakeExpiredNodesBetween needsPeerRecompute (time i) (time (i + 1))
        (context i)).Announces id) ↔
      expiry ≠ Db.goZeroTime ∧ ∀ i ≤ n, time i ≠ expiry := by
  have hannounces : ∀ i, (i < n ∧ (wakeExpiredNodesBetween needsPeerRecompute (time i) (time (i + 1))
        (context i)).Announces id) ↔
      expiry ≠ Db.goZeroTime ∧ i < n ∧ time i < expiry ∧ expiry < time (i + 1) := by
    intro i
    constructor
    · rintro ⟨hi, hannounced⟩
      obtain ⟨hzero, hwindow⟩ := (announces_iff (hheld i hi)).mp hannounced
      exact ⟨hzero, hi, hwindow⟩
    · rintro ⟨hzero, hi, hwindow⟩
      exact ⟨hi, (announces_iff (hheld i hi)).mpr ⟨hzero, hwindow⟩⟩
  simp only [hannounces]
  by_cases hzero : expiry = Db.goZeroTime
  · simp [hzero]
  · simp only [ne_eq, hzero, not_false_eq_true, true_and]
    exact Interval.existsUnique_window_iff hsteps hfirst hlast

/-! ## A pass at the time of an expiry -/

/-- One node that expires at the time 20, seen by every pass. -/
def expiringNode : PassContext :=
  let records := (∅ : NodeMap).insert "nk-a" { nodeId := some 7, expiry := some 20 }
  { snapshot := records, registry := { records := records }, batchEnd := none }

lemma expiringNode_holds : expiringNode.Holds 7 20 := by
  have hrecords : expiringNode.snapshot.HoldsWith 7 20 := by
    refine ⟨by decide +kernel, fun key record hrecord _ => ?_⟩
    obtain ⟨-, rfl⟩ : "nk-a" = key ∧ { nodeId := some 7, expiry := some 20 } = record := by
      simpa [expiringNode, ExtTreeMap.getElem?_insert] using hrecord
    rfl
  exact ⟨hrecords, hrecords, nofun⟩

/-- Passes at 10, 20 and 30: neither the second nor the third of them announces the node. -/
theorem expiry_at_pass_time_unannounced :
    (wakeExpiredNodesBetween (fun _ => false) 10 20 expiringNode).expired = [] ∧
      (wakeExpiredNodesBetween (fun _ => false) 20 30 expiringNode).expired = [] ∧
      ¬ ∃! i, i < 2 ∧ (wakeExpiredNodesBetween (fun _ => false) (10 * (i + 1 : ℕ))
        (10 * (i + 1 + 1 : ℕ)) expiringNode).Announces 7 := by
  refine ⟨by decide +kernel, by decide +kernel, ?_⟩
  rintro ⟨i, ⟨-, hannounced⟩, -⟩
  obtain ⟨-, hlow, hhigh⟩ := (announces_iff expiringNode_holds).mp hannounced
  omega

/-- Passes at 11, 22 and 33: one of them announces the node. -/
theorem expiry_between_passes_announced :
    ∃! i, i < 2 ∧ (wakeExpiredNodesBetween (fun _ => false) (11 * (i + 1 : ℕ))
      (11 * (i + 1 + 1 : ℕ)) expiringNode).Announces 7 := by
  refine (expiry_announced_once_iff (fun _ => false) 2 (fun i => 11 * (i + 1 : ℕ)) (fun i _ => by omega)
    (fun _ => expiringNode) 7 20 (fun _ _ => expiringNode_holds) (by decide) (by decide)).mpr ?_
  refine ⟨by decide, fun i hi => ?_⟩
  omega

end Headscale.NodeStore
