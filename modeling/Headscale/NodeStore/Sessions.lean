import Headscale.Lib.TreeMap
import Headscale.Node.Record

/-!
# The node store and the session maps

The registry publishes a map of node records and keeps, beside it, maps of volatile session state by
node id: the epoch of the node's incarnation, its open map streams, its state sessions, whether it is
online. An epoch is told from another by its identity alone, so a fresh number stands for each. Every
write of the node store retires the state of the ids that the new map lacks before anything else can
happen, and so a settled registry has epochs and collection timers for nodes of its map only.

The node map of the source is a hash map; where a search may find several records the model takes the
first by key.
-/

namespace Headscale.NodeStore

open Std Node List ExtTreeMap

/-! ## The node map -/

/-- `stable_id_from_key`: FNV-1a over the bytes, without the sign bit. -/
def stableIdFromKey (hex : String) : Nat :=
  let hash : UInt64 := hex.toUTF8.toList.foldl
    (fun hash byte => (hash ^^^ byte.toUInt64) * 0x100000001b3) 0xcbf29ce484222325
  (hash &&& 0x7fffffffffffffff).toNat

def stableNodeIdForKey (nodeKeyHex : String) (record : MachineRecord) : Nat :=
  record.nodeId.getD (stableIdFromKey nodeKeyHex)

abbrev NodeMap := ExtTreeMap String MachineRecord

namespace NodeMap

/-- The record of a node id, with its key. -/
def findById (records : NodeMap) (id : Nat) : Option (String × MachineRecord) :=
  records.toList.find? fun entry => stableNodeIdForKey entry.1 entry.2 = id

def hasNode (records : NodeMap) (id : Nat) : Bool :=
  records.toList.any fun entry => stableNodeIdForKey entry.1 entry.2 = id

lemma hasNode_iff {records : NodeMap} {id : Nat} :
    records.hasNode id = true ↔
      ∃ (key : String) (record : MachineRecord),
        records[key]? = some record ∧ stableNodeIdForKey key record = id := by
  simp [hasNode]

lemma findById_eq_some {records : NodeMap} {id : Nat} {key : String} {record : MachineRecord}
    (h : records.findById id = some (key, record)) :
    records[key]? = some record ∧ stableNodeIdForKey key record = id := by
  constructor
  · exact mem_toList_iff_getElem?_eq_some.mp (mem_of_find?_eq_some h)
  · simpa using find?_some h

lemma findById_isSome {records : NodeMap} {id : Nat} :
    (records.findById id).isSome = records.hasNode id := by
  rw [Bool.eq_iff_iff, findById, hasNode, find?_isSome, any_eq_true]

end NodeMap

/-! ## Session state -/

/-- A pending collection of an ephemeral node. -/
structure EphemeralGcTimer where
  generation : Nat
  nodeId : Nat
  machineKeyHex : String
  epoch : Option Nat
deriving DecidableEq, Repr

/-- The node of the timer is still the one under the key. -/
def EphemeralGcTimer.boundTo (timer : EphemeralGcTimer) (records : NodeMap) (key : String) : Bool :=
  records[key]?.any fun record =>
    stableNodeIdForKey key record = timer.nodeId ∧ record.machineKeyHex = timer.machineKeyHex

/-- The timers by node key, and the counter their generations are taken from. -/
structure GcTimers where
  timers : ExtTreeMap String EphemeralGcTimer := ∅
  nextGeneration : Nat := 0
  closed : Bool := false
deriving DecidableEq

/-- The volatile maps by node id. -/
structure Sessions where
  streamSessionEpochs : ExtTreeMap Nat Nat := ∅
  /-- The identity of the next epoch to be created. -/
  nextEpoch : Nat := 0
  streamCancelFlags : ExtTreeMap Nat (List Nat) := ∅
  /-- The cancel flags that have been raised. -/
  raised : List Nat := []
  activeConnections : ExtTreeMap Nat Nat := ∅
  stateSessions : ExtTreeMap Nat Nat := ∅
  onlineStates : ExtTreeMap Nat Bool := ∅
  connectionGenerations : ExtTreeMap Nat Nat := ∅
  disconnectedAt : ExtTreeMap Nat Int := ∅
  ephemeralGc : GcTimers := {}
deriving DecidableEq

open Sessions

/-- `retire_absent_timers`. -/
def GcTimers.retireAbsentTimers (gc : GcTimers) (records : NodeMap) : GcTimers :=
  { gc with timers := gc.timers.filter fun key timer => timer.boundTo records key }

namespace Sessions

def cancelStreamConnections (sessions : Sessions) (id : Nat) : Sessions :=
  { sessions with raised := sessions.raised ++ sessions.streamCancelFlags[id]?.getD [] }

/-- Drops all the state of one id. -/
def retireNode (sessions : Sessions) (id : Nat) : Sessions :=
  { sessions.cancelStreamConnections id with
    streamSessionEpochs := sessions.streamSessionEpochs.erase id
    streamCancelFlags := sessions.streamCancelFlags.erase id
    activeConnections := sessions.activeConnections.erase id
    stateSessions := sessions.stateSessions.erase id
    onlineStates := sessions.onlineStates.erase id
    connectionGenerations := sessions.connectionGenerations.erase id
    disconnectedAt := sessions.disconnectedAt.erase id }

/-- The ids with an epoch that the map lacks. -/
def absentIds (sessions : Sessions) (records : NodeMap) : List Nat :=
  sessions.streamSessionEpochs.keys.filter fun id => !records.hasNode id

/-- `retire_absent_stream_state`. -/
def retireAbsentStreamState (sessions : Sessions) (records : NodeMap) : Sessions :=
  (sessions.absentIds records).foldl retireNode
    { sessions with ephemeralGc := sessions.ephemeralGc.retireAbsentTimers records }

/-- Whether the epoch is the current one of the id; no epoch matches every one. -/
def streamEpochMatches (sessions : Sessions) (id : Nat) (epoch : Option Nat) : Bool :=
  epoch.all fun epoch => sessions.streamSessionEpochs[id]? = some epoch

/-! ## What retirement leaves -/

lemma mem_absentIds {sessions : Sessions} {records : NodeMap} {id : Nat} :
    id ∈ sessions.absentIds records ↔
      id ∈ sessions.streamSessionEpochs ∧ records.hasNode id = false := by
  simp [absentIds]

/-- A map that the retirement of a node erases the node from loses the absent ids, and no others. -/
theorem getElem?_retireAbsent {β : Type} (field : Sessions → ExtTreeMap Nat β)
    (hnode : ∀ sessions id, field (retireNode sessions id) = (field sessions).erase id)
    (htimers : ∀ sessions gc, field { sessions with ephemeralGc := gc } = field sessions)
    (sessions : Sessions) (records : NodeMap) (id : Nat) :
    (field (sessions.retireAbsentStreamState records))[id]? =
      if id ∈ sessions.absentIds records then none else (field sessions)[id]? := by
  have hfold : ∀ (ids : List Nat) (s : Sessions),
      field (ids.foldl retireNode s) = ids.foldl ExtTreeMap.erase (field s) := by
    intro ids s
    exact (foldl_hom field fun s id => (hnode s id).symm).symm
  rw [retireAbsentStreamState, hfold, htimers, TreeMap.getElem?_foldl_erase]

section Retired

variable (sessions : Sessions) (records : NodeMap) (id : Nat)

lemma retired_epoch :
    (sessions.retireAbsentStreamState records).streamSessionEpochs[id]? =
      if records.hasNode id then sessions.streamSessionEpochs[id]? else none := by
  rw [getElem?_retireAbsent _ (fun _ _ => rfl) fun _ _ => rfl]
  simp only [mem_absentIds]
  cases hlive : records.hasNode id with
  | true => simp
  | false =>
    by_cases hid : id ∈ sessions.streamSessionEpochs
    · simp
    · simp

lemma retired_flags :
    (sessions.retireAbsentStreamState records).streamCancelFlags[id]? =
      if id ∈ sessions.absentIds records then none else sessions.streamCancelFlags[id]? :=
  getElem?_retireAbsent _ (fun _ _ => rfl) (fun _ _ => rfl) ..

lemma retired_active :
    (sessions.retireAbsentStreamState records).activeConnections[id]? =
      if id ∈ sessions.absentIds records then none else sessions.activeConnections[id]? :=
  getElem?_retireAbsent _ (fun _ _ => rfl) (fun _ _ => rfl) ..

lemma retired_sessions :
    (sessions.retireAbsentStreamState records).stateSessions[id]? =
      if id ∈ sessions.absentIds records then none else sessions.stateSessions[id]? :=
  getElem?_retireAbsent _ (fun _ _ => rfl) (fun _ _ => rfl) ..

lemma retired_online :
    (sessions.retireAbsentStreamState records).onlineStates[id]? =
      if id ∈ sessions.absentIds records then none else sessions.onlineStates[id]? :=
  getElem?_retireAbsent _ (fun _ _ => rfl) (fun _ _ => rfl) ..

/-- What retirement does not erase entries of it does not touch. -/
theorem foldl_retireNode_eq {β : Type} (field : Sessions → β)
    (hnode : ∀ sessions id, field (retireNode sessions id) = field sessions) (ids : List Nat) :
    field (ids.foldl retireNode sessions) = field sessions := by
  induction ids generalizing sessions with
  | nil => rfl
  | cons id ids ih => rw [foldl_cons, ih, hnode]

@[simp] lemma retired_nextEpoch :
    (sessions.retireAbsentStreamState records).nextEpoch = sessions.nextEpoch :=
  foldl_retireNode_eq _ nextEpoch (fun _ _ => rfl) _

@[simp] lemma retired_gc :
    (sessions.retireAbsentStreamState records).ephemeralGc =
      sessions.ephemeralGc.retireAbsentTimers records :=
  foldl_retireNode_eq _ ephemeralGc (fun _ _ => rfl) _

end Retired

end Sessions

/-! ## Settled registries -/

/-- Every epoch and every timer is one of a node of the map. -/
structure Settled (records : NodeMap) (sessions : Sessions) : Prop where
  live : ∀ id, id ∈ sessions.streamSessionEpochs → records.hasNode id = true
  bound : ∀ (key : String) timer, sessions.ephemeralGc.timers[key]? = some timer →
    timer.boundTo records key = true

/-- The identities of the epochs have all been handed out before. -/
def Sessions.Fresh (sessions : Sessions) : Prop :=
  ∀ id epoch : Nat, sessions.streamSessionEpochs[id]? = some epoch → epoch < sessions.nextEpoch

lemma settled_retired (records : NodeMap) (sessions : Sessions) :
    Settled records (sessions.retireAbsentStreamState records) where
  live id hid := by
    rw [mem_iff_isSome_getElem?, retired_epoch] at hid
    by_contra hlive
    simp [hlive] at hid
  bound key timer htimer := by
    rw [retired_gc, GcTimers.retireAbsentTimers, getElem?_filter',
      Option.filter_eq_some_iff] at htimer
    exact htimer.2

lemma Sessions.Fresh.retired {sessions : Sessions} (h : sessions.Fresh) (records : NodeMap) :
    (sessions.retireAbsentStreamState records).Fresh := by
  intro id epoch hepoch
  rw [retired_epoch] at hepoch
  rw [retired_nextEpoch]
  exact h id epoch (by by_contra; simp_all)

/-- Nothing of a settled registry is retired. -/
theorem Settled.retire_eq {records : NodeMap} {sessions : Sessions} (h : Settled records sessions) :
    sessions.retireAbsentStreamState records = sessions := by
  have habsent : sessions.absentIds records = [] := by
    refine eq_nil_iff_forall_not_mem.mpr fun id hid => ?_
    obtain ⟨hepoch, hlive⟩ := mem_absentIds.mp hid
    rw [h.live id hepoch] at hlive
    cases hlive
  have htimers : sessions.ephemeralGc.retireAbsentTimers records = sessions.ephemeralGc := by
    rw [GcTimers.retireAbsentTimers]
    congr 1
    refine ExtTreeMap.ext_getElem? fun key => ?_
    rw [getElem?_filter']
    cases htimer : sessions.ephemeralGc.timers[key]? with
    | none => rfl
    | some timer => rw [Option.filter_some, if_pos (h.bound key timer htimer)]
  rw [retireAbsentStreamState, habsent, htimers, foldl_nil]

end Headscale.NodeStore
