import Headscale.Lib.Machine
import Headscale.Lib.TreeMap
import Headscale.Node.Record
import Mathlib.Data.List.MinMax
import Mathlib.Data.List.Sort
import Mathlib.Data.Prod.Lex

/-!
# The cache of pending registrations

An unauthenticated client that wants to register is given an entry in a cache, where it waits for its
verdict; so does a request to check an SSH session. The cache has a limited size, and anybody can fill
it. An insertion therefore first holds the source of the new entry to a quota of pending ones, by
dropping the least recently used of that source, if anybody else has pending entries. Then it drops
entries until the size is kept: one with a verdict if there is any, else one of the source that holds
most, else the least recently used. The entry just inserted is never dropped.

The map of the cache is a map of entries here, and so the entry just inserted is told by its id. Of an
entry the host info, the OIDC confirmation and the list of its waiters are left out.
-/

namespace Headscale.Auth

open Std Node TreeMap

/-! ## Entries -/

inductive RegistrationSource where
  | unknown
  | v4 (addr : Nat)
  /-- The upper half of an IPv6 address. -/
  | v6Prefix (bits : Nat)
deriving DecidableEq, Repr

structure SshCheckBinding where
  srcNodeId : Nat
  dstNodeId : Nat
  localUser : String
deriving DecidableEq, Repr

inductive RegistrationOutcome where
  | registered (record : MachineRecord)
  | approvedWithoutNode
  | rejected (reason : String)
  | expired
deriving DecidableEq

structure RegistrationEntry where
  record : Option MachineRecord := none
  source : Option RegistrationSource := none
  sshBinding : Option SshCheckBinding := none
  expiresAt : Int
  lastUsed : Nat
  outcome : Option RegistrationOutcome := none
  sshVerdictConsumed : Bool := false
deriving DecidableEq

namespace RegistrationEntry

def isPending (entry : RegistrationEntry) (now : Int) : Bool :=
  now < entry.expiresAt && entry.outcome.isNone

def touch (entry : RegistrationEntry) (lastUsed : Nat) : RegistrationEntry :=
  { entry with lastUsed := lastUsed }

/-- `complete`, `approve_without_node`, `reject` and `expire`: the first verdict stays. -/
def settle (entry : RegistrationEntry) (outcome : RegistrationOutcome) : RegistrationEntry :=
  { entry with outcome := entry.outcome.or (some outcome) }

end RegistrationEntry

abbrev Entries := ExtTreeMap String RegistrationEntry

/-! ## Eviction -/

namespace Entries

variable (inner : Entries) (keep : String) (source : RegistrationSource)

/-- How many entries a source holds. -/
def held : Nat :=
  (keysWith (fun _ entry => entry.source = some source) inner).length

/-- The pending entries of a source. -/
def pendingOf (now : Int) : List String :=
  keysWith (fun _ entry => entry.source = some source && entry.isPending now) inner

def otherPartyPending (now : Int) : Bool :=
  inner.toList.any fun (_, entry) => entry.source ≠ some source && entry.isPending now

/-- The other pending entries of a source, each with the time it was used. -/
def droppable (now : Int) : List (Nat ×ₗ String) :=
  (inner.toList.filter fun (id, entry) =>
    entry.source = some source && entry.isPending now && id ≠ keep).map
    fun (id, entry) => toLex (entry.lastUsed, id)

/-- The ids that `evict_over_source_quota` drops. -/
def overQuota (quota : Nat) (keep : String) (source : RegistrationSource) (now : Int) : List String :=
  let excess := (inner.pendingOf source now).length - quota
  (((inner.droppable keep source now).insertionSort (· ≤ ·)).take excess).map fun used => (ofLex used).2

def evictOverSourceQuota (quota : Nat) (keep : String) (source : RegistrationSource) (now : Int) :
    Entries :=
  (inner.overQuota quota keep source now).foldl ExtTreeMap.erase inner

/-- The entries other than the one just inserted. -/
def candidates : List (String × RegistrationEntry) :=
  inner.toList.filter fun (id, _) => id ≠ keep

/-- How many entries the source of an entry holds. -/
def heldWith (entry : RegistrationEntry) : Nat := entry.source.elim 0 inner.held

def evictionVictim (now : Int) : Option String :=
  match ((inner.candidates keep).filter fun (_, entry) => !entry.isPending now).argmin
      fun (_, entry) => entry.lastUsed with
  | some (id, _) => some id
  | none =>
    -- of several that compare equal, `max_by` takes the last
    match (((inner.candidates keep).filter fun (_, entry) => 1 < inner.heldWith entry).reverse.argmax
        fun (_, entry) => toLex (inner.heldWith entry, OrderDual.toDual entry.lastUsed)) with
    | some (id, _) => some id
    | none => ((inner.candidates keep).argmin fun (_, entry) => entry.lastUsed).map Prod.fst

/-- A removal by the loop of `insert_entry`, with the map before it. -/
structure Drop where
  before : Entries
  id : String

/-- The loop of `insert_entry` that keeps the size. -/
def evictOverCapacity (maxEntries : Nat) (keep : String) (now : Int) : Nat → Entries → Entries × List Drop
  | 0, inner => (inner, [])
  | fuel + 1, inner =>
    if inner.size ≤ maxEntries then (inner, [])
    else
      match inner.evictionVictim keep now with
      | none => (inner, [])
      | some id =>
        let (final, drops) := evictOverCapacity maxEntries keep now fuel (inner.erase id)
        (final, ⟨inner, id⟩ :: drops)

end Entries

/-- The limits of a cache. A size of zero stands for the default. -/
structure CacheLimits where
  maxEntries : Nat
  maxPendingPerSource : Nat
  maxEntries_pos : 0 < maxEntries
  quota_pos : 0 < maxPendingPerSource

def CacheLimits.of (maxEntries maxPendingPerSource : Nat) : CacheLimits where
  maxEntries := if maxEntries = 0 then 1024 else maxEntries
  maxPendingPerSource := max maxPendingPerSource 1
  maxEntries_pos := by split <;> omega
  quota_pos := by omega

namespace Entries

variable (limits : CacheLimits) (inner : Entries) (id : String) (entry : RegistrationEntry) (now : Int)

/-- The map of `insert_entry` once the source of the new entry is held to its quota. -/
def quotaKept : Entries :=
  let inserted : Entries := inner.insert id entry
  match entry.source with
  | none => inserted
  | some source =>
    if inserted.otherPartyPending source now then
      inserted.evictOverSourceQuota limits.maxPendingPerSource id source now
    else inserted

/-- `insert_entry`, with the removals of its loop. -/
def insertEntry : Entries × List Drop :=
  let kept := inner.quotaKept limits id entry now
  evictOverCapacity limits.maxEntries id now kept.size kept

end Entries

/-! ## The cache -/

/-- The map and the counter that the times of use are taken from. -/
structure RegistrationCache where
  inner : Entries := ∅
  accessCounter : Nat := 0

/-- What the operations do while they hold a lock. A verdict or a time of use reaches the map only
through an entry that is still in it. -/
inductive CacheAction where
  /-- The first half of `prune_expired`. -/
  | prune (now : Int)
  | insert (id : String) (record : Option MachineRecord) (source : Option RegistrationSource)
      (sshBinding : Option SshCheckBinding) (expiresAt now : Int)
  /-- `get_entry`. -/
  | touch (id : String)
  | settle (id : String) (outcome : RegistrationOutcome)
  /-- The first half of `remove`, `complete` and `expire_if_current`. -/
  | remove (id : String)

namespace RegistrationCache

variable (limits : CacheLimits) (cache : RegistrationCache)

def newEntry (record : Option MachineRecord) (source : Option RegistrationSource)
    (sshBinding : Option SshCheckBinding) (expiresAt : Int) : RegistrationEntry :=
  { record := record
    source := source
    sshBinding := sshBinding
    expiresAt := expiresAt
    lastUsed := cache.accessCounter + 1 }

def apply : CacheAction → RegistrationCache
  | .prune now => { cache with inner := cache.inner.filter fun _ entry => now < entry.expiresAt }
  | .insert id record source sshBinding expiresAt now =>
    { inner := (cache.inner.insertEntry limits id (cache.newEntry record source sshBinding expiresAt)
        now).1
      accessCounter := cache.accessCounter + 1 }
  | .touch id =>
    if id ∈ cache.inner then
      { inner := cache.inner.alter id (Option.map (·.touch (cache.accessCounter + 1)))
        accessCounter := cache.accessCounter + 1 }
    else cache
  | .settle id outcome => { cache with inner := cache.inner.alter id (Option.map (·.settle outcome)) }
  | .remove id => { cache with inner := cache.inner.erase id }

end RegistrationCache

def caching (limits : CacheLimits) : Machine.System RegistrationCache CacheAction where
  init cache := cache.inner = ∅
  step cache a cache' := cache.apply limits a = cache'

end Headscale.Auth
