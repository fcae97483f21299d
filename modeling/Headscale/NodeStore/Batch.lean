import Headscale.NodeStore.Sessions
import Headscale.Netmap.Delta
import Headscale.Routes.Selection

/-!
# Batched writes of the node store

A write reaches the node store either directly, publishing a new map of its own, or through a queue
that is drained in batches. A batch works on one private copy of the map, retires session state after
each of its writes, publishes once at the end, and then corrects the answers of the writes whose nodes
are gone again by that time.

An update runs inside the writer and may read and change the session maps it has captured as well as
the map of records; the acquisition of a stream does both. What the updates of the source have in
common is that they close no epoch, and open epochs for nodes of the map only.
-/

namespace Headscale.NodeStore

open Std Node Netmap List

/-! ## Outcomes -/

structure PendingMapChange where
  reason : MapChangeReason
  companionReasons : List MapChangeReason := []
  targetNodeId : Option Nat := none
  originNodeId : Option Nat := none
  content : MapChangeContent := {}
deriving DecidableEq, Repr

structure NodeStoreBoolUpdateOutcome where
  applied : Bool
  publishSnapshot : Bool
  change : Option PendingMapChange := none
  clearUnhealthyRouteState : Option Nat := none
  finalPresenceNodeId : Option Nat := none
deriving DecidableEq, Repr

namespace NodeStoreBoolUpdateOutcome

def unchanged (applied : Bool) : NodeStoreBoolUpdateOutcome :=
  { applied := applied, publishSnapshot := false }

def quiet (applied : Bool) : NodeStoreBoolUpdateOutcome :=
  { applied := applied, publishSnapshot := applied }

def markAbsentAfterBatch (outcome : NodeStoreBoolUpdateOutcome) : NodeStoreBoolUpdateOutcome :=
  { outcome with
    applied := false
    publishSnapshot := false
    change := none
    clearUnhealthyRouteState := none }

end NodeStoreBoolUpdateOutcome

structure NodeStoreManyUpdateOutcome where
  applied : Nat := 0
  publishSnapshot : Bool := false
  change : Option PendingMapChange := none
  clearUnhealthyRouteStates : List Nat := []
  missingNodeKeys : List String := []
  affectedNodeKeys : List String := []
  affectedNodeIds : List Nat := []
  finalPresenceNodeIds : List Nat := []
deriving DecidableEq, Repr

namespace NodeStoreManyUpdateOutcome

def markAbsentAfterBatch (outcome : NodeStoreManyUpdateOutcome) : NodeStoreManyUpdateOutcome :=
  { outcome with
    applied := 0
    publishSnapshot := false
    change := none
    clearUnhealthyRouteStates := [] }

/-- The named nodes that the map has, each once. -/
def present (outcome : NodeStoreManyUpdateOutcome) (finalSnapshot : NodeMap) : ExtTreeSet Nat :=
  .ofList (outcome.finalPresenceNodeIds.filter finalSnapshot.hasNode)

def revalidateFinalPresenceAfterBatch (outcome : NodeStoreManyUpdateOutcome)
    (finalSnapshot : NodeMap) : NodeStoreManyUpdateOutcome :=
  if outcome.finalPresenceNodeIds.isEmpty then outcome
  else if (outcome.present finalSnapshot).isEmpty then outcome.markAbsentAfterBatch
  else
    { outcome with
      applied := min outcome.applied (outcome.present finalSnapshot).size
      clearUnhealthyRouteStates :=
        outcome.clearUnhealthyRouteStates.filter (outcome.present finalSnapshot).contains
      finalPresenceNodeIds :=
        outcome.finalPresenceNodeIds.filter (outcome.present finalSnapshot).contains }

end NodeStoreManyUpdateOutcome

/-- What a deletion has removed. -/
structure RemovedNode where
  id : Nat
  ipv4 : Option IpAddr
  ipv6 : Option IpAddr
deriving DecidableEq, Repr

def RemovedNode.fromRecord (key : String) (record : MachineRecord) : RemovedNode :=
  { id := stableNodeIdForKey key record, ipv4 := record.ipv4, ipv6 := record.ipv6 }

/-! ## Writes -/

/-- What the session maps may become while an update runs on a map. -/
structure Sessions.Grows (records : NodeMap) (before after : Sessions) : Prop where
  kept : ∀ id epoch : Nat, before.streamSessionEpochs[id]? = some epoch →
    after.streamSessionEpochs[id]? = some epoch
  opened : ∀ id epoch : Nat, after.streamSessionEpochs[id]? = some epoch →
    before.streamSessionEpochs[id]? = some epoch ∨
      records.hasNode id = true ∧ before.nextEpoch ≤ epoch ∧ epoch < after.nextEpoch
  nextEpoch : before.nextEpoch ≤ after.nextEpoch
  timers : after.ephemeralGc = before.ephemeralGc

structure UpdateResult (ω : Type) where
  records : NodeMap
  sessions : Sessions
  outcome : ω

/-- A function that runs in the writer. -/
structure Update (ω : Type) where
  run : NodeMap → Sessions → UpdateResult ω
  grows : ∀ (records : NodeMap) (sessions : Sessions),
    sessions.Grows records (run records sessions).sessions

/-- The update keeps the map unless it asks for publication. -/
def Update.QuietKeepsMap {ω : Type} (publish : ω → Bool) (update : Update ω) : Prop :=
  ∀ records sessions, publish (update.run records sessions).outcome = false →
    (update.run records sessions).records = records

inductive NodeStoreWriteWork where
  | upsert (nodeKeyHex : String) (rec : MachineRecord)
  | delete (nodeKeyHex : String)
  | updateBool (update : Update NodeStoreBoolUpdateOutcome)
  | updateMany (update : Update NodeStoreManyUpdateOutcome)
  | rekey (oldNodeKeyHex newNodeKeyHex : String) (rec : MachineRecord)
      (changes : List PendingMapChange) (finalPresenceNodeId : Option Nat)
  /-- Wakes the writer and carries no write. -/
  | wake

open NodeStoreBoolUpdateOutcome

def NodeStoreWriteWork.QuietKeepsMap : NodeStoreWriteWork → Prop
  | .updateBool update => update.QuietKeepsMap publishSnapshot
  | .updateMany update => update.QuietKeepsMap NodeStoreManyUpdateOutcome.publishSnapshot
  | _ => True

/-- The answer to a write: the value it is given, and the changes it sends to the waiters. -/
inductive NodeStoreWriteCompletion where
  | bool (result : Bool)
  | delete (removed : Option RemovedNode)
  | updateBool (outcome : NodeStoreBoolUpdateOutcome)
  | updateMany (outcome : NodeStoreManyUpdateOutcome)
  | unit (changes : List PendingMapChange) (finalPresenceNodeId : Option Nat)
deriving DecidableEq

structure Registry where
  records : NodeMap := ∅
  sessions : Sessions := {}

/-! ## Direct writes -/

namespace Registry

variable (registry : Registry)

/-- Installs a map after the session state of the nodes it lacks is retired. -/
def publish (next : NodeMap) (sessions : Sessions) : Registry :=
  { records := next, sessions := sessions.retireAbsentStreamState next }

def applyNodestoreUpsertDirect (nodeKeyHex : String) (rec : MachineRecord) : Registry × Bool :=
  (publish (registry.records.insert nodeKeyHex rec) registry.sessions,
    registry.records.contains nodeKeyHex)

def applyNodestoreDeleteDirect (nodeKeyHex : String) : Registry × Option RemovedNode :=
  (publish (registry.records.erase nodeKeyHex) registry.sessions,
    registry.records[nodeKeyHex]?.map (RemovedNode.fromRecord nodeKeyHex))

/-- An update publishes its map if it asks for that, and otherwise drops it. -/
def applyNodestoreUpdateDirect {ω : Type} (publishSnapshot : ω → Bool) (update : Update ω) :
    Registry × ω :=
  let result := update.run registry.records registry.sessions
  (if publishSnapshot result.outcome then publish result.records result.sessions
    else { registry with sessions := result.sessions },
    result.outcome)

def applyNodestoreBoolUpdateDirect (update : Update NodeStoreBoolUpdateOutcome) :
    Registry × NodeStoreBoolUpdateOutcome :=
  registry.applyNodestoreUpdateDirect publishSnapshot update

def applyNodestoreManyUpdateDirect (update : Update NodeStoreManyUpdateOutcome) :
    Registry × NodeStoreManyUpdateOutcome :=
  registry.applyNodestoreUpdateDirect NodeStoreManyUpdateOutcome.publishSnapshot update

/-- The map with a record moved to a new key. -/
def rekeyed (records : NodeMap) (oldNodeKeyHex newNodeKeyHex : String) (rec : MachineRecord) :
    NodeMap :=
  (if oldNodeKeyHex ≠ newNodeKeyHex then records.erase oldNodeKeyHex else records).insert
    newNodeKeyHex rec

def applyNodestoreRekeyDirect (oldNodeKeyHex newNodeKeyHex : String) (rec : MachineRecord) : Registry :=
  publish (rekeyed registry.records oldNodeKeyHex newNodeKeyHex rec) registry.sessions

/-- A queued write through its direct path. -/
def applyDirect : NodeStoreWriteWork → Registry × Option NodeStoreWriteCompletion
  | .upsert key rec => (registry.applyNodestoreUpsertDirect key rec).map id (some ∘ .bool)
  | .delete key => (registry.applyNodestoreDeleteDirect key).map id (some ∘ .delete)
  | .updateBool update => (registry.applyNodestoreBoolUpdateDirect update).map id (some ∘ .updateBool)
  | .updateMany update => (registry.applyNodestoreManyUpdateDirect update).map id (some ∘ .updateMany)
  | .rekey old new rec changes id =>
    (registry.applyNodestoreRekeyDirect old new rec, some (.unit changes id))
  | .wake => (registry, none)

/-- The writes one at a time, with their answers. -/
def directRun (registry : Registry) : List NodeStoreWriteWork → Registry × List NodeStoreWriteCompletion
  | [] => (registry, [])
  | work :: rest =>
    let (registry, completion) := registry.applyDirect work
    (registry.directRun rest).map id (completion.toList ++ ·)

/-- The maps that the writes publish one after the other. -/
def directMaps (registry : Registry) : List NodeStoreWriteWork → List NodeMap
  | [] => []
  | work :: rest =>
    let registry := (registry.applyDirect work).1
    registry.records :: registry.directMaps rest

end Registry

/-! ## Batches -/

open Registry

structure BatchState where
  next : NodeMap
  sessions : Sessions
  publishSnapshot : Bool := false
  completions : List NodeStoreWriteCompletion := []

namespace BatchState

/-- One queued write on the private copy. -/
def apply (batch : BatchState) : NodeStoreWriteWork → BatchState
  | .upsert key rec =>
    { batch with
      next := batch.next.insert key rec
      publishSnapshot := true
      completions := batch.completions ++ [.bool (batch.next.contains key)] }
  | .delete key =>
    { batch with
      next := batch.next.erase key
      publishSnapshot := true
      completions :=
        batch.completions ++ [.delete (batch.next[key]?.map (RemovedNode.fromRecord key))] }
  | .updateBool update =>
    let result := update.run batch.next batch.sessions
    { next := result.records
      sessions := result.sessions
      publishSnapshot := batch.publishSnapshot || result.outcome.publishSnapshot
      completions := batch.completions ++ [.updateBool result.outcome] }
  | .updateMany update =>
    let result := update.run batch.next batch.sessions
    { next := result.records
      sessions := result.sessions
      publishSnapshot := batch.publishSnapshot || result.outcome.publishSnapshot
      completions := batch.completions ++ [.updateMany result.outcome] }
  | .wake => batch
  | .rekey old new rec changes id =>
    { batch with
      next := rekeyed batch.next old new rec
      publishSnapshot := true
      completions := batch.completions ++ [.unit changes id] }

/-- Retirement comes before the next queued write, which may acquire a new incarnation. -/
def step (batch : BatchState) (work : NodeStoreWriteWork) : BatchState :=
  let applied := batch.apply work
  { applied with sessions := applied.sessions.retireAbsentStreamState applied.next }

end BatchState

/-- The correction of an answer for the map that the batch ends with. -/
def NodeStoreWriteCompletion.afterBatch (next : NodeMap) :
    NodeStoreWriteCompletion → NodeStoreWriteCompletion
  | .updateBool outcome =>
    match outcome.finalPresenceNodeId with
    | some id =>
      if next.hasNode id then .updateBool outcome else .updateBool outcome.markAbsentAfterBatch
    | none => .updateBool outcome
  | .unit changes (some id) => if next.hasNode id then .unit changes (some id) else .unit [] (some id)
  | .updateMany outcome => .updateMany (outcome.revalidateFinalPresenceAfterBatch next)
  | completion => completion

open BatchState

open NodeStoreWriteCompletion

def Registry.applyNodestoreWriteBatch (registry : Registry) (batch : List NodeStoreWriteWork) :
    Registry × List NodeStoreWriteCompletion :=
  if batch.isEmpty then (registry, [])
  else
    let final := batch.foldl step
      { next := registry.records, sessions := registry.sessions }
    ({ records := if final.publishSnapshot then final.next else registry.records
       sessions := final.sessions },
      final.completions.map (afterBatch final.next))

/-! ## What a batch should answer -/

/-- The answer of a many update, kept for the named nodes that the map has. -/
def NodeStoreManyUpdateOutcome.restrictedTo (next : NodeMap) (outcome : NodeStoreManyUpdateOutcome) :
    NodeStoreManyUpdateOutcome :=
  if outcome.finalPresenceNodeIds = [] then outcome
  else
    let named := outcome.finalPresenceNodeIds.filter next.hasNode
    { outcome with
      applied := min outcome.applied (outcome.present next).size
      publishSnapshot := outcome.publishSnapshot && !named.isEmpty
      change := if named.isEmpty then none else outcome.change
      clearUnhealthyRouteStates := outcome.clearUnhealthyRouteStates.filter (· ∈ named)
      finalPresenceNodeIds := named }

/-- The answer of the direct path, without what it has to do with named nodes that the map lacks. -/
def NodeStoreWriteCompletion.restrictedTo (next : NodeMap) :
    NodeStoreWriteCompletion → NodeStoreWriteCompletion
  | .bool result => .bool result
  | .delete removed => .delete removed
  | .updateBool outcome =>
    if outcome.finalPresenceNodeId.all next.hasNode then .updateBool outcome
    else
      .updateBool
        { applied := false
          publishSnapshot := false
          finalPresenceNodeId := outcome.finalPresenceNodeId }
  | .unit changes id => .unit (if id.all next.hasNode then changes else []) id
  | .updateMany outcome => .updateMany (outcome.restrictedTo next)

/-- Some named node is left, unless none was named. -/
def NodeStoreWriteCompletion.SomeNamedLeft (next : NodeMap) : NodeStoreWriteCompletion → Prop
  | .updateMany outcome =>
    outcome.finalPresenceNodeIds = [] ∨ ∃ id ∈ outcome.finalPresenceNodeIds, next.hasNode id = true
  | _ => True

lemma NodeStoreManyUpdateOutcome.mem_present {next : NodeMap} {outcome : NodeStoreManyUpdateOutcome}
    {id : Nat} :
    id ∈ outcome.present next ↔ id ∈ outcome.finalPresenceNodeIds.filter next.hasNode := by
  simp [present]

/-- The correction of a many update forgets to drop the named nodes when all of them are gone. -/
theorem NodeStoreManyUpdateOutcome.revalidate_eq_restricted_iff (next : NodeMap)
    (outcome : NodeStoreManyUpdateOutcome) :
    outcome.revalidateFinalPresenceAfterBatch next = outcome.restrictedTo next ↔
      outcome.finalPresenceNodeIds = [] ∨
        ∃ id ∈ outcome.finalPresenceNodeIds, next.hasNode id = true := by
  by_cases hnames : outcome.finalPresenceNodeIds = []
  · simp [revalidateFinalPresenceAfterBatch, restrictedTo, hnames]
  rw [or_iff_right hnames]
  have hcontains : (outcome.present next).contains = fun id =>
      decide (id ∈ outcome.finalPresenceNodeIds.filter next.hasNode) := by
    funext id
    rw [Bool.eq_iff_iff, ExtTreeSet.contains_iff_mem, mem_present, decide_eq_true_iff]
  by_cases hnamed : outcome.finalPresenceNodeIds.filter next.hasNode = []
  · -- all of them are gone
    have hempty : (outcome.present next).isEmpty = true := by
      simp [present, hnamed]
    have hnone : ¬ ∃ id ∈ outcome.finalPresenceNodeIds, next.hasNode id = true := by
      simpa using hnamed
    refine iff_of_false (fun heq => hnames ?_) hnone
    simpa [revalidateFinalPresenceAfterBatch, restrictedTo, hnames, hempty, hnamed,
      markAbsentAfterBatch] using congrArg finalPresenceNodeIds heq
  · have hempty : (outcome.present next).isEmpty = false := by
      obtain ⟨id, hid⟩ := exists_mem_of_ne_nil _ hnamed
      refine ExtTreeSet.isEmpty_eq_false_iff.mpr fun hempty => ?_
      exact ExtTreeSet.not_mem_empty (hempty ▸ mem_present.mpr hid)
    have hsome : ∃ id ∈ outcome.finalPresenceNodeIds, next.hasNode id = true := by
      simpa using hnamed
    have hfilter : outcome.finalPresenceNodeIds.filter
          (fun id => decide (id ∈ outcome.finalPresenceNodeIds.filter next.hasNode)) =
        outcome.finalPresenceNodeIds.filter next.hasNode :=
      filter_congr fun id hid => by simp [hid]
    refine iff_of_true ?_ hsome
    rw [revalidateFinalPresenceAfterBatch, if_neg (by simpa using hnames), hempty, if_neg nofun,
      restrictedTo, if_neg hnames, hcontains, hfilter]
    simp only [isEmpty_eq_false_iff.mpr hnamed, Bool.not_false, Bool.and_true,
      Bool.false_eq_true, if_false]

namespace NodeStoreWriteCompletion

variable {next : NodeMap}

lemma afterBatch_eq_restricted_iff (completion : NodeStoreWriteCompletion) :
    completion.afterBatch next = completion.restrictedTo next ↔ completion.SomeNamedLeft next := by
  cases completion with
  | bool | delete => exact iff_of_true rfl trivial
  | updateBool outcome =>
    refine iff_of_true ?_ trivial
    cases hid : outcome.finalPresenceNodeId with
    | none => simp [afterBatch, restrictedTo, hid]
    | some id =>
      by_cases hlive : next.hasNode id = true
      · simp [afterBatch, restrictedTo, hid, hlive]
      · simp [afterBatch, restrictedTo, hid, markAbsentAfterBatch]
  | updateMany outcome =>
    simp only [afterBatch, restrictedTo, updateMany.injEq]
    exact outcome.revalidate_eq_restricted_iff next
  | unit changes id =>
    refine iff_of_true ?_ trivial
    cases id with
    | none => simp [afterBatch, restrictedTo]
    | some id => by_cases hlive : next.hasNode id = true <;> simp [afterBatch, restrictedTo, hlive]

end NodeStoreWriteCompletion

/-! ## A batch and the direct writes -/

lemma Settled.grow {records : NodeMap} {before after : Sessions} (h : Settled records before)
    (hgrows : before.Grows records after) : Settled records after where
  live id hid := by
    obtain ⟨epoch, hepoch⟩ := Option.isSome_iff_exists.mp (ExtTreeMap.mem_iff_isSome_getElem?.mp hid)
    obtain hbefore | ⟨hlive, -⟩ := hgrows.opened id epoch hepoch
    · exact h.live id (ExtTreeMap.mem_iff_isSome_getElem?.mpr (by rw [hbefore]; rfl))
    · exact hlive
  bound key timer htimer := h.bound key timer (hgrows.timers ▸ htimer)

/-- An epoch that has been handed out before is neither opened nor closed by an update. -/
theorem Sessions.Grows.epoch_iff {records : NodeMap} {before after : Sessions}
    (h : before.Grows records after) {id epoch : Nat} (hepoch : epoch < before.nextEpoch) :
    after.streamSessionEpochs[id]? = some epoch ↔ before.streamSessionEpochs[id]? = some epoch := by
  refine ⟨fun hafter => ?_, h.kept id epoch⟩
  obtain hbefore | ⟨-, hfresh, -⟩ := h.opened id epoch hafter
  · exact hbefore
  · omega

/-- Whether or not an update asks for it, its map may be taken to be published. -/
theorem Registry.updateDirect_eq_publish {ω : Type} {publishSnapshot : ω → Bool} {update : Update ω}
    (hquiet : update.QuietKeepsMap publishSnapshot) {registry : Registry}
    (hsettled : Settled registry.records registry.sessions) :
    registry.applyNodestoreUpdateDirect publishSnapshot update =
      (publish (update.run registry.records registry.sessions).records
          (update.run registry.records registry.sessions).sessions,
        (update.run registry.records registry.sessions).outcome) := by
  rw [applyNodestoreUpdateDirect]
  cases hpublish : publishSnapshot (update.run registry.records registry.sessions).outcome with
  | true => simp only [if_true]
  | false =>
    have hrecords := hquiet registry.records registry.sessions hpublish
    have hgrown := hsettled.grow (update.grows registry.records registry.sessions)
    simp only [hrecords, Bool.false_eq_true, if_false, publish, hgrown.retire_eq]

namespace BatchState

def registry (batch : BatchState) : Registry := { records := batch.next, sessions := batch.sessions }

variable {works : List NodeStoreWriteWork} {batch : BatchState}

/-- A queued write does to the private copy what its direct path does to the registry. -/
theorem step_eq_direct (hsettled : Settled batch.next batch.sessions) {work : NodeStoreWriteWork}
    (hquiet : work.QuietKeepsMap) :
    (batch.step work).registry = (batch.registry.applyDirect work).1 ∧
      (batch.step work).completions =
        batch.completions ++ (batch.registry.applyDirect work).2.toList := by
  have hregistry : Settled batch.registry.records batch.registry.sessions := hsettled
  cases work with
  | upsert | delete | rekey => exact ⟨rfl, rfl⟩
  | wake => exact ⟨congrArg (Registry.mk _) hregistry.retire_eq, (append_nil _).symm⟩
  | updateBool update =>
    simp only [applyDirect, applyNodestoreBoolUpdateDirect,
      updateDirect_eq_publish hquiet hregistry]
    exact ⟨rfl, rfl⟩
  | updateMany update =>
    simp only [applyDirect, applyNodestoreManyUpdateDirect,
      updateDirect_eq_publish hquiet hregistry]
    exact ⟨rfl, rfl⟩

lemma step_settled (batch : BatchState) (work : NodeStoreWriteWork) :
    Settled (batch.step work).next (batch.step work).sessions :=
  settled_retired (batch.apply work).next (batch.apply work).sessions

/-- An unpublished copy is the published map still. -/
theorem step_unpublished {work : NodeStoreWriteWork} (hquiet : work.QuietKeepsMap)
    (h : (batch.step work).publishSnapshot = false) :
    batch.publishSnapshot = false ∧ (batch.step work).next = batch.next := by
  cases work with
  | upsert | delete | rekey => cases h
  | wake => exact ⟨h, rfl⟩
  | updateBool | updateMany =>
    obtain ⟨hbatch, hupdate⟩ := Bool.or_eq_false_iff.mp h
    exact ⟨hbatch, hquiet batch.next batch.sessions hupdate⟩

/-- The write leaves the epochs of the nodes that its map has, and lets no earlier epoch return. -/
theorem step_epoch_iff (batch : BatchState) (work : NodeStoreWriteWork) {id epoch : Nat}
    (hepoch : epoch < batch.sessions.nextEpoch) :
    (batch.step work).sessions.streamSessionEpochs[id]? = some epoch ↔
      batch.sessions.streamSessionEpochs[id]? = some epoch ∧
        (batch.step work).next.hasNode id = true := by
  have happly : (batch.apply work).sessions.streamSessionEpochs[id]? = some epoch ↔
      batch.sessions.streamSessionEpochs[id]? = some epoch := by
    cases work with
    | updateBool update | updateMany update =>
      exact (update.grows batch.next batch.sessions).epoch_iff hepoch
    | upsert | delete | rekey | wake => exact Iff.rfl
  rw [← happly, step, Sessions.retired_epoch]
  by_cases hlive : (batch.apply work).next.hasNode id = true <;> simp [hlive]

lemma step_nextEpoch (batch : BatchState) (work : NodeStoreWriteWork) :
    batch.sessions.nextEpoch ≤ (batch.step work).sessions.nextEpoch := by
  rw [step, Sessions.retired_nextEpoch]
  cases work with
  | updateBool update | updateMany update =>
    exact (update.grows batch.next batch.sessions).nextEpoch
  | upsert | delete | rekey | wake => exact le_rfl

variable (hquiet : ∀ work ∈ works, work.QuietKeepsMap)

include hquiet

/-- A batch ends where the direct writes end, with their answers. -/
theorem foldl_eq_direct (hsettled : Settled batch.next batch.sessions) :
    (works.foldl step batch).registry = (batch.registry.directRun works).1 ∧
      (works.foldl step batch).completions =
        batch.completions ++ (batch.registry.directRun works).2 := by
  induction works generalizing batch with
  | nil => exact ⟨rfl, (append_nil _).symm⟩
  | cons work rest ih =>
    obtain ⟨hwork, hrest⟩ := forall_mem_cons.mp hquiet
    obtain ⟨hregistry, hcompletions⟩ := step_eq_direct hsettled hwork
    obtain ⟨ihregistry, ihcompletions⟩ := ih hrest (step_settled batch work)
    rw [foldl_cons, ihregistry, ihcompletions, hregistry, hcompletions, append_assoc]
    exact ⟨rfl, rfl⟩

lemma foldl_unpublished (h : (works.foldl step batch).publishSnapshot = false) :
    batch.publishSnapshot = false ∧ (works.foldl step batch).next = batch.next := by
  induction works generalizing batch with
  | nil => exact ⟨h, rfl⟩
  | cons work rest ih =>
    obtain ⟨hwork, hrest⟩ := forall_mem_cons.mp hquiet
    obtain ⟨hstep, hnext⟩ := ih hrest h
    obtain ⟨hbatch, hcopy⟩ := step_unpublished hwork hstep
    exact ⟨hbatch, hnext.trans hcopy⟩

/-- An epoch stays as long as the maps have its node, and does not return afterwards. -/
theorem foldl_epoch_iff (hsettled : Settled batch.next batch.sessions) {id epoch : Nat}
    (hepoch : epoch < batch.sessions.nextEpoch) :
    (works.foldl step batch).sessions.streamSessionEpochs[id]? = some epoch ↔
      batch.sessions.streamSessionEpochs[id]? = some epoch ∧
        ∀ records ∈ batch.registry.directMaps works, records.hasNode id = true := by
  induction works generalizing batch with
  | nil => simp [directMaps]
  | cons work rest ih =>
    obtain ⟨hwork, hrest⟩ := forall_mem_cons.mp hquiet
    obtain ⟨hregistry, -⟩ := step_eq_direct hsettled hwork
    have hnext := hepoch.trans_le (step_nextEpoch batch work)
    rw [foldl_cons, ih hrest (step_settled batch work) hnext, step_epoch_iff batch work hepoch,
      and_assoc, directMaps, forall_mem_cons, ← hregistry]
    exact Iff.rfl

end BatchState

/-- A batch does what the direct writes do one after the other, and answers each of them the same
except for what names nodes that are gone in the end. -/
structure Registry.BatchMatchesDirect (registry : Registry) (batch : List NodeStoreWriteWork) : Prop where
  published : (registry.applyNodestoreWriteBatch batch).1 = (registry.directRun batch).1
  retired : ∀ id epoch : Nat, registry.sessions.streamSessionEpochs[id]? = some epoch →
    ((registry.applyNodestoreWriteBatch batch).1.sessions.streamSessionEpochs[id]? = some epoch ↔
      ∀ records ∈ registry.directMaps batch, records.hasNode id = true)
  answered : (registry.applyNodestoreWriteBatch batch).2 =
    (registry.directRun batch).2.map
      (restrictedTo (registry.directRun batch).1.records)

/-- The final state of a batch, without the shortcut for an empty one. -/
theorem Registry.writeBatch_eq {registry : Registry}
    (hsettled : Settled registry.records registry.sessions) {batch : List NodeStoreWriteWork}
    (hquiet : ∀ work ∈ batch, work.QuietKeepsMap) :
    registry.applyNodestoreWriteBatch batch =
      ((registry.directRun batch).1,
        (registry.directRun batch).2.map
          (afterBatch (registry.directRun batch).1.records)) := by
  cases hbatch : batch.isEmpty with
  | true =>
    obtain rfl := List.isEmpty_iff.mp hbatch
    rfl
  | false =>
    let start : BatchState := { next := registry.records, sessions := registry.sessions }
    have hstart : Settled start.next start.sessions := hsettled
    obtain ⟨hregistry, hcompletions⟩ := foldl_eq_direct hquiet hstart
    have hnext : (batch.foldl step start).next = (registry.directRun batch).1.records :=
      congrArg records hregistry
    have hrecords : (if (batch.foldl step start).publishSnapshot then
        (batch.foldl step start).next else registry.records) =
          (registry.directRun batch).1.records := by
      rw [← hnext]
      split
      · rfl
      · exact (foldl_unpublished hquiet (Bool.eq_false_iff.mpr ‹_›)).2.symm
    rw [applyNodestoreWriteBatch, hbatch, if_neg nofun]
    refine Prod.ext ?_ ?_
    · exact Registry.mk.injEq .. ▸ ⟨hrecords, congrArg sessions hregistry⟩
    · show (batch.foldl step start).completions.map _ = _
      rw [hcompletions, hnext]
      rfl

/-- An epoch survives a batch exactly if every map in between has its node. -/
theorem Registry.writeBatch_epoch_iff {registry : Registry}
    (hsettled : Settled registry.records registry.sessions) (hfresh : registry.sessions.Fresh)
    {batch : List NodeStoreWriteWork} (hquiet : ∀ work ∈ batch, work.QuietKeepsMap) {id epoch : Nat}
    (hepoch : registry.sessions.streamSessionEpochs[id]? = some epoch) :
    (registry.applyNodestoreWriteBatch batch).1.sessions.streamSessionEpochs[id]? = some epoch ↔
      ∀ records ∈ registry.directMaps batch, records.hasNode id = true := by
  let start : BatchState := { next := registry.records, sessions := registry.sessions }
  have hstart : Settled start.next start.sessions := hsettled
  have hold : epoch < start.sessions.nextEpoch := hfresh id epoch hepoch
  obtain ⟨hregistry, -⟩ := foldl_eq_direct hquiet hstart
  have hsessions : (registry.directRun batch).1.sessions =
      (batch.foldl step start).sessions := congrArg sessions hregistry.symm
  rw [writeBatch_eq hsettled hquiet, hsessions, foldl_epoch_iff hquiet hstart hold]
  exact and_iff_right hepoch

/-- A batch matches its direct writes exactly if every many update that names nodes names one that is
left in the end: when all of them are gone, the answer keeps their names. -/
theorem Registry.writeBatch_matches_iff (registry : Registry)
    (hsettled : Settled registry.records registry.sessions) (hfresh : registry.sessions.Fresh)
    (batch : List NodeStoreWriteWork) (hquiet : ∀ work ∈ batch, work.QuietKeepsMap) :
    registry.BatchMatchesDirect batch ↔
      ∀ completion ∈ (registry.directRun batch).2,
        completion.SomeNamedLeft (registry.directRun batch).1.records := by
  have heq := writeBatch_eq hsettled hquiet
  have hanswered : (registry.applyNodestoreWriteBatch batch).2 =
        (registry.directRun batch).2.map
          (restrictedTo (registry.directRun batch).1.records) ↔
      ∀ completion ∈ (registry.directRun batch).2,
        completion.SomeNamedLeft (registry.directRun batch).1.records := by
    rw [heq, map_inj_left]
    exact forall₂_congr fun completion _ => completion.afterBatch_eq_restricted_iff
  constructor
  · intro h
    exact hanswered.mp h.answered
  · intro h
    exact
      { published := by rw [heq]
        retired := fun id epoch => writeBatch_epoch_iff hsettled hfresh hquiet
        answered := hanswered.mpr h }

/-! ## Route approvals by policy -/

/-- The state of the loop of `apply_policy_route_approvals` over the records. -/
structure RouteApprovals where
  records : NodeMap
  updates : ExtTreeMap Nat (List String)
  ids : List Nat := []
  clearUnhealthyRouteStates : List Nat := []

def RouteApprovals.approve (state : RouteApprovals) (entry : String × MachineRecord) : RouteApprovals :=
  let id := stableNodeIdForKey entry.1 entry.2
  match state.updates[id]? with
  | none => state
  | some routes =>
    { records := state.records.insert entry.1 { entry.2 with approvedRoutes := routes }
      updates := state.updates.erase id
      ids := state.ids ++ [id]
      clearUnhealthyRouteStates :=
        if Routes.activeApprovedRoutes entry.2.availableRoutes routes = [] then
          state.clearUnhealthyRouteStates ++ [id]
        else state.clearUnhealthyRouteStates }

/-- The update of `apply_policy_route_approvals`, whose answer names the nodes that are to be saved. -/
def policyRouteApprovals (updates : List (Nat × List String)) : Update NodeStoreManyUpdateOutcome where
  run records sessions :=
    let state := records.toList.foldl RouteApprovals.approve
      { records := records, updates := ExtTreeMap.ofList updates }
    let ids := state.ids.insertionSort (· ≤ ·)
    { records := state.records
      sessions := sessions
      outcome :=
        { applied := ids.length
          publishSnapshot := !ids.isEmpty
          clearUnhealthyRouteStates := state.clearUnhealthyRouteStates
          finalPresenceNodeIds := ids } }
  grows _ _ :=
    { kept := fun _ _ h => h
      opened := fun _ _ h => .inl h
      nextEpoch := le_rfl
      timers := rfl }

lemma RouteApprovals.foldl_approve_of_ids_eq_nil {entries : List (String × MachineRecord)}
    {state : RouteApprovals} (h : (entries.foldl approve state).ids = []) :
    state.ids = [] ∧ (entries.foldl approve state).records = state.records := by
  induction entries generalizing state with
  | nil => exact ⟨h, rfl⟩
  | cons entry entries ih =>
    obtain ⟨hids, hrecords⟩ := ih h
    rw [foldl_cons, hrecords]
    rw [approve] at hids ⊢
    split at hids
    · exact ⟨hids, rfl⟩
    · exact absurd hids (append_ne_nil_of_right_ne_nil _ (cons_ne_nil _ _))

lemma policyRouteApprovals_quiet (updates : List (Nat × List String)) :
    (policyRouteApprovals updates).QuietKeepsMap NodeStoreManyUpdateOutcome.publishSnapshot := by
  intro records sessions h
  refine (RouteApprovals.foldl_approve_of_ids_eq_nil ?_).2
  rw [← length_eq_zero_iff, ← length_insertionSort (· ≤ ·), length_eq_zero_iff]
  simpa [policyRouteApprovals] using h

/-! ## Two routers -/

/-- Two routers, the first of which has a map stream. -/
def routers : Registry where
  records := ((∅ : NodeMap).insert "node-a"
      { nodeId := some 7, availableRoutes := ["10.9.0.0/24"] }).insert "node-b"
      { nodeId := some 8, availableRoutes := ["10.9.0.0/24"] }
  sessions := { streamSessionEpochs := (∅ : ExtTreeMap Nat Nat).insert 7 0, nextEpoch := 1 }

/-- Routes are approved for the given nodes, and the first router is deleted before the batch ends. -/
def approvedAndDeleted (ids : List Nat) : List NodeStoreWriteWork :=
  [.updateMany (policyRouteApprovals (ids.map fun id => (id, ["10.9.0.0/24"]))), .delete "node-a"]

lemma routers_settled : Settled routers.records routers.sessions where
  live id hid := by
    obtain rfl : 7 = id := by simpa [routers] using hid
    decide +kernel
  bound key timer htimer := by simp [routers] at htimer

lemma routers_fresh : routers.sessions.Fresh := by
  intro id epoch hepoch
  obtain ⟨rfl, rfl⟩ : 7 = id ∧ 0 = epoch := by
    simpa [routers, ExtTreeMap.getElem?_insert] using hepoch
  decide

lemma approvedAndDeleted_quiet (ids : List Nat) :
    ∀ work ∈ approvedAndDeleted ids, work.QuietKeepsMap := by
  simp [approvedAndDeleted, NodeStoreWriteWork.QuietKeepsMap, policyRouteApprovals_quiet]

/-- The deleted router is named in the answer, as one whose new routes are to be saved. -/
theorem Registry.approval_keeps_deleted_name :
    (routers.applyNodestoreWriteBatch (approvedAndDeleted [7])).1.records.hasNode 7 = false ∧
      (routers.applyNodestoreWriteBatch (approvedAndDeleted [7])).2 =
        [.updateMany { finalPresenceNodeIds := [7] }, .delete (some { id := 7, ipv4 := none, ipv6 := none })] ∧
      ¬ routers.BatchMatchesDirect (approvedAndDeleted [7]) := by
  refine ⟨by decide +kernel, by decide +kernel, fun h => absurd h.answered ?_⟩
  decide +kernel

/-- With the second router approved as well, only the one that is left is named. -/
theorem Registry.approval_drops_deleted_name :
    routers.BatchMatchesDirect (approvedAndDeleted [7, 8]) ∧
      (routers.applyNodestoreWriteBatch (approvedAndDeleted [7, 8])).2 =
        [.updateMany { applied := 1, publishSnapshot := true, finalPresenceNodeIds := [8] },
          .delete (some { id := 7, ipv4 := none, ipv6 := none })] := by
  refine ⟨?_, by decide +kernel⟩
  refine (writeBatch_matches_iff routers routers_settled routers_fresh _
    (approvedAndDeleted_quiet [7, 8])).mpr ?_
  have hrun : (routers.directRun (approvedAndDeleted [7, 8])).2 =
      [.updateMany { applied := 2, publishSnapshot := true, finalPresenceNodeIds := [7, 8] },
        .delete (some { id := 7, ipv4 := none, ipv6 := none })] := by decide +kernel
  rw [hrun, forall_mem_cons, forall_mem_singleton]
  exact ⟨.inr ⟨8, by decide, by decide +kernel⟩, trivial⟩

end Headscale.NodeStore
