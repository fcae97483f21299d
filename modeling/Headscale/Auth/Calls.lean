import Headscale.Auth.Cache
import Headscale.Lib.Threads

/-!
# Calls of the registration cache

Many calls use the cache at once. The map is under one lock, the verdict of every entry under a lock of
its own, and an entry that has left the map lives on for those who hold it. So the entries are kept apart
from the map here: an entry is known by its position in the list of all entries ever made, and the map
has positions as its values. Every call is a program whose sections are what is done under one lock.

The verdicts are not under the lock of the map, and so `is_pending` may answer differently for one entry
in the course of an insertion. What an insertion drops is therefore left open here; that its rules are a
case of it is `insert_view`.

A waiter is a future that its caller may drop whenever it sleeps. Its loop is written for the number of
rounds after which that happens; of a waiter that is never dropped a run sees only finitely many.
-/

namespace Headscale.Auth

open Std Node TreeMap Threads

/-! ## The state -/

/-- An entry, with the id it was made for. -/
structure Cell where
  id : String
  entry : RegistrationEntry
deriving DecidableEq

structure SshCheckPair where
  srcNodeId : Nat
  dstNodeId : Nat
deriving DecidableEq, Repr

def SshCheckBinding.pair (binding : SshCheckBinding) : SshCheckPair :=
  ⟨binding.srcNodeId, binding.dstNodeId⟩

def SshCheckBinding.matchesPair (binding other : SshCheckBinding) : Bool := binding.pair = other.pair

/-- The identity of a policy. A new `Arc` is a number that was not used before. -/
structure SshPolicyStamp where
  updatedAt : Option Int
  epoch : Nat
deriving DecidableEq, Repr

structure SshAuthRecord where
  recordedAt : Int
  policyUpdatedAt : Option Int
  policyStamp : Option SshPolicyStamp
deriving DecidableEq, Repr

/-- What the server is run with: the documents and nodes of its policies and how they decide. -/
structure WireConfig where
  Doc : Type
  Snapshot : Type
  Nodes : Type
  expiration : Int
  /-- `node_by_id` and the machine key of the node. -/
  machineKeyHex : Snapshot → Nat → Option String
  sshPolicyNodes : Snapshot → Nodes
  sshCheckPeriodForBytes : Doc → Nodes → Nat → Nat → List UInt8 → Option Nat
  publicControlUrl : String
  /-- `DelegationUrl::parse`, which gives `with_auth`. -/
  delegationUrl : String → Option (String → List UInt8 → String)

structure PolicyState (cfg : WireConfig) where
  doc : Option cfg.Doc := none
  /-- The nodes that the policy was last told of. -/
  nodeInputs : Option cfg.Nodes := none
  updatedAt : Option Int := none
  sshAuthEpoch : Nat := 0

structure WireState (cfg : WireConfig) where
  cells : List Cell := []
  inner : ExtTreeMap String Nat := ∅
  accessCounter : Nat := 0
  lastSshAuth : SshCheckPair → Option SshAuthRecord := fun _ => none
  policy : PolicyState cfg := {}

/-- What a section finds outside of the state: the time, what an insertion drops, the random id it draws
and the nodes of the registry. -/
structure Choice (cfg : WireConfig) where
  now : Int
  dropped : List String := []
  authId : Option String := none
  snapshot : cfg.Snapshot

variable {cfg : WireConfig}

/-- A call that returns an `α`. -/
abbrev Call (cfg : WireConfig) (α : Type) := Program (WireState cfg) (Choice cfg) α

namespace WireState

variable (s : WireState cfg)

def entry (e : Nat) : Option RegistrationEntry := s.cells[e]?.map Cell.entry

def modifyEntry (e : Nat) (f : RegistrationEntry → RegistrationEntry) : WireState cfg :=
  { s with cells := s.cells.modify e fun cell => { cell with entry := f cell.entry } }

def hasExpired (e : Nat) (now : Int) : Bool := (s.entry e).any fun entry => entry.expiresAt ≤ now

def hasRecord (e : Nat) : Bool := (s.entry e).any fun entry => entry.record.isSome

end WireState

/-! ## Entries -/

def nextAccess : Call cfg Nat :=
  .run fun _ s => (s.accessCounter + 1, { s with accessCounter := s.accessCounter + 1 })

def touch (e lastUsed : Nat) : Call cfg Unit := .write fun _ s => s.modifyEntry e (·.touch lastUsed)

def settle (e : Nat) (outcome : RegistrationOutcome) : Call cfg Unit :=
  .write fun _ s => s.modifyEntry e (·.settle outcome)

def expire (e : Nat) : Call cfg Unit := settle e .expired

def outcome (e : Nat) : Call cfg (Option RegistrationOutcome) :=
  .read fun _ s => (s.entry e).bind (·.outcome)

/-- `ssh_verdict_consumed.swap(true)`. -/
def swapConsumed (e : Nat) : Call cfg Bool :=
  .run fun _ s => ((s.entry e).any (·.sshVerdictConsumed),
    s.modifyEntry e fun entry => { entry with sshVerdictConsumed := true })

/-! ## The map -/

def pruneExpired : Call cfg Nat := do
  let expired ← .run fun c s =>
    let expired := s.inner.toList.filter fun (_, e) => s.hasExpired e c.now
    (expired.map Prod.snd, { s with inner := (expired.map Prod.fst).foldl ExtTreeMap.erase s.inner })
  expired.forM expire
  return expired.length

def getEntry (id : String) : Call cfg (Option Nat) := do
  let _ ← pruneExpired
  match ← .read fun _ s => s.inner[id]? with
  | none => return none
  | some e =>
    touch e (← nextAccess)
    return some e

def expireIfCurrent (id : String) (target : Nat) : Call cfg Bool := do
  let removed ← .run fun _ s =>
    if s.inner[id]? = some target then (true, { s with inner := s.inner.erase id }) else (false, s)
  if removed then
    expire target
    return true
  else return false

/-- The section of `insert_entry` under the lock, with the entries that it drops. -/
def insertSection (id : String) (e : Nat) (dropped : List String) (s : WireState cfg) :
    List Nat × WireState cfg :=
  let dropped := dropped.filter (· ≠ id)
  (s.inner[id]?.toList ++ dropped.filterMap (s.inner[·]?),
    { s with inner := dropped.foldl ExtTreeMap.erase (s.inner.insert id e) })

def insertEntry (id : String) (e : Nat) : Call cfg Unit := do
  let expired ← .run fun c s => insertSection id e c.dropped s
  expired.forM expire

/-- The entry that is about to be inserted. -/
def newCell (id : String) (entry : RegistrationEntry) : Call cfg Nat :=
  .run fun c s => (s.cells.length,
    { s with cells := s.cells ++ [⟨id, { entry with expiresAt := c.now + cfg.expiration }⟩] })

def insertFromSource (registrationId : String) (record : MachineRecord)
    (source : Option RegistrationSource) : Call cfg Unit := do
  let _ ← pruneExpired
  let used ← nextAccess
  let e ← newCell registrationId
    { record := some record, source := source, expiresAt := 0, lastUsed := used }
  insertEntry registrationId e

def insertSshCheck (authId : String) (binding : SshCheckBinding) : Call cfg Unit := do
  let _ ← pruneExpired
  let used ← nextAccess
  let e ← newCell authId { sshBinding := some binding, expiresAt := 0, lastUsed := used }
  insertEntry authId e

/-- The entry of an id leaves the map, if it is one of a registration. -/
def takeRegistration (registrationId : String) : Call cfg (Option Nat) :=
  .run fun _ s =>
    match s.inner[registrationId]? with
    | some e =>
      if s.hasRecord e then (some e, { s with inner := s.inner.erase registrationId }) else (none, s)
    | none => (none, s)

/-! ## Verdicts -/

structure RegistrationCompletion where
  registrationId : String
  entry : Nat
deriving DecidableEq, Repr

def pendingRegistrationCompletion (registrationId : String) :
    Call cfg (Option RegistrationCompletion) := do
  match ← getEntry registrationId with
  | none => return none
  | some e =>
    match ← outcome e with
    | some _ => return none
    | none =>
      if ← .read fun _ s => s.hasRecord e then return some ⟨registrationId, e⟩ else return none

def finishRegistration (completion : RegistrationCompletion) (registered : MachineRecord) :
    Call cfg Unit := do
  settle completion.entry (.registered registered)
  let _ ← expireIfCurrent completion.registrationId completion.entry

def remove (registrationId : String) : Call cfg (Option MachineRecord) := do
  match ← takeRegistration registrationId with
  | none => return none
  | some e =>
    expire e
    .read fun _ s => (s.entry e).bind (·.record)

def complete (registrationId : String) (registered : MachineRecord) : Call cfg Bool := do
  match ← takeRegistration registrationId with
  | none => return false
  | some e =>
    settle e (.registered registered)
    return true

def settleById (id : String) (verdict : RegistrationOutcome) : Call cfg Bool := do
  match ← getEntry id with
  | none => return false
  | some e =>
    settle e verdict
    return true

def approveWithoutNode (registrationId : String) : Call cfg Bool :=
  settleById registrationId .approvedWithoutNode

def reject (registrationId reason : String) : Call cfg Bool := settleById registrationId (.rejected reason)

/-! ## Waiters -/

/-- The loop of a waiter. It ends with the verdict, or without one when the caller goes away. -/
def awaitOutcome (id : String) (e : Nat) : Nat → Call cfg (Option RegistrationOutcome)
  | 0 => return none
  | rounds + 1 => do
    match ← outcome e with
    | some verdict => return some verdict
    | none =>
      if ← .read fun c s => s.hasExpired e c.now then
        let _ ← expireIfCurrent id e
        awaitOutcome id e rounds
      else awaitOutcome id e rounds

inductive RegistrationWaitOutcome where
  | verdict (outcome : RegistrationOutcome)
  | missing
deriving DecidableEq

inductive AuthWaitOutcome where
  | accepted
  | rejected (reason : String)
  | expired
  | missing
deriving DecidableEq, Repr

def AuthWaitOutcome.ofOutcome : RegistrationOutcome → AuthWaitOutcome
  | .registered _ => .accepted
  | .approvedWithoutNode => .accepted
  | .rejected reason => .rejected reason
  | .expired => .expired

/-- What a waiter returns, with the entry it has waited on. -/
structure Waited (ρ : Type) where
  entry : Option Nat
  result : Option ρ
deriving DecidableEq, Repr

def waitForRegistration (rounds : Nat) (registrationId : String) :
    Call cfg (Waited RegistrationWaitOutcome) := do
  match ← getEntry registrationId with
  | none => return ⟨none, some .missing⟩
  | some e => return ⟨some e, (← awaitOutcome registrationId e rounds).map .verdict⟩

def waitForAuthInner (rounds : Nat) (authId : String) (consumeSshVerdict : Bool) :
    Call cfg (Waited AuthWaitOutcome) := do
  match ← getEntry authId with
  | none => return ⟨none, some .missing⟩
  | some e =>
    match ← awaitOutcome authId e rounds with
    | none => return ⟨some e, none⟩
    | some verdict =>
      if consumeSshVerdict then
        if ← swapConsumed e then return ⟨some e, some .missing⟩
        else return ⟨some e, some (.ofOutcome verdict)⟩
      else return ⟨some e, some (.ofOutcome verdict)⟩

def waitForAuth (rounds : Nat) (authId : String) : Call cfg (Waited AuthWaitOutcome) :=
  waitForAuthInner rounds authId false

def waitForSshAuth (rounds : Nat) (authId : String) : Call cfg (Waited AuthWaitOutcome) :=
  waitForAuthInner rounds authId true

end Headscale.Auth
