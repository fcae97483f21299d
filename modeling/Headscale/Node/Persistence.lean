import Headscale.Node.Record
import Headscale.Db.AuthKeyRegistration
import Headscale.Lib.Result

/-!
# The stored shape of a node

Beside the live record the registry remembers how the node's columns were last stored: which lists
were absent, the texts of the addresses, the raw hostinfo. A save keeps a stored shape as long as the
live value it belongs to has not changed since.
-/

namespace Headscale.Node

open Db

inductive MachineAdminError where
  | badRequest (message : String)
  | storage (message : String)
deriving DecidableEq, Repr

/-- The reading and writing of hostinfo JSON, which is kept as text. -/
structure HostCodec where
  decode : String → Option HostInfo
  /-- Fails on coordinates or latencies that JSON cannot hold. -/
  encode : HostInfo → Except MachineAdminError String
  /-- `merge_projection`: the stored JSON, with what differs between two encodings changed. -/
  merge : String → String → String → String

def hostInfoFromValue (codec : HostCodec) (value : String) : Except MachineAdminError HostInfo :=
  if value = "null" then .ok {}
  else
    match codec.decode value with
    | some hostInfo => .ok hostInfo
    | none =>
      .error (.badRequest "persisted Hostinfo cannot be represented by the wire projection")

/-- The values of a record that the stored shapes belong to. -/
structure Projection where
  ipv4 : Option IpAddr
  ipv6 : Option IpAddr
  userId : Option Nat
  authKeyId : Option Int
  registerMethod : Int
  hostInfo : HostInfo
  endpoints : List String
  tags : List String
  routes : List String
  lastSeen : Int
deriving DecidableEq, Repr

def Projection.fromRecord (record : MachineRecord) : Projection :=
  { ipv4 := record.ipv4
    ipv6 := record.ipv6
    userId := record.userId
    authKeyId := record.authKeyId
    registerMethod := record.registerMethod
    hostInfo := record.hostInfoForNode
    endpoints := record.endpoints
    tags := record.forcedTags
    routes := record.approvedRoutes
    lastSeen := record.lastSeen }

/-- A key as it was loaded with its node. Whether it was used since is kept elsewhere. -/
structure NativeAuthKey where
  id : Nat
  user : Option (Option UserRecord) := none
  reusable : Bool := false
  ephemeral : Bool := false
  tags : List String := []
deriving DecidableEq, Repr

/-- The user and the key of a node: not known, known to be absent, or loaded. -/
structure NativeNodeAssociations where
  user : Option (Option UserRecord) := none
  authKey : Option (Option NativeAuthKey) := none
deriving DecidableEq, Repr

structure NativeNodePersistence where
  projection : Projection
  ipv4 : Option String
  ipv6 : Option String
  userId : Option Int
  userAssociation : Option (Option UserRecord)
  authKeyAssociation : Option (Option NativeAuthKey)
  registerMethod : String
  hostInfo : Option String
  endpointsNil : Bool
  tagsNil : Bool
  routesNil : Bool
  lastSeenNil : Bool
deriving DecidableEq, Repr

/-- The columns that a save writes, with the id of the row. -/
structure CachedNodeSnapshot where
  id : Int
  columns : NodeColumns
deriving DecidableEq, Repr

/-- `i64::try_from` of an unsigned value. -/
def toSigned (value : Nat) : Option Int := if value < 2 ^ 63 then some value else none

/-- `u64::try_from` of a signed value. -/
def toUnsigned (value : Int) : Option Nat := if 0 ≤ value then some value.toNat else none

/-- The value that was stored, when the live value it belongs to is unchanged. -/
def storedUnless {α β : Type} [DecidableEq α] (native : Option NativeNodePersistence)
    (projected : Projection → α) (live : α) (stored : NativeNodePersistence → β) (fresh : β) : β :=
  match native with
  | some native => if projected native.projection = live then stored native else fresh
  | none => fresh

open NativeNodePersistence

open Projection

/-- What holds of the stored value while it is current, and of the fresh one. -/
theorem storedUnless_cases {α β : Type} [DecidableEq α] {native : Option NativeNodePersistence}
    {projected : Projection → α} {live : α} {stored : NativeNodePersistence → β} {fresh : β}
    (P : β → Prop)
    (hstored : ∀ shape, native = some shape → projected shape.projection = live → P (stored shape))
    (hfresh : P fresh) : P (storedUnless native projected live stored fresh) := by
  unfold storedUnless
  cases native with
  | none => exact hfresh
  | some shape =>
    simp only
    split
    · exact hstored shape rfl ‹_›
    · exact hfresh

namespace NativeNodePersistence

def userAssociationFor (native : NativeNodePersistence) (record : MachineRecord) :
    Option (Option UserRecord) :=
  if native.projection.userId ≠ record.userId then
    if record.userId.isNone then some none else none
  else native.userAssociation

def authKeyAssociationFor (native : NativeNodePersistence) (record : MachineRecord) :
    Option (Option NativeAuthKey) :=
  if native.projection.authKeyId ≠ record.authKeyId then
    if record.authKeyId.isNone then some none else none
  else native.authKeyAssociation

def setAssociations (native : NativeNodePersistence) (associations : NativeNodeAssociations) :
    NativeNodePersistence :=
  { native with
    userAssociation := associations.user
    authKeyAssociation := associations.authKey.or native.authKeyAssociation }

def fromSnapshot (record : MachineRecord) (saved : CachedNodeSnapshot)
    (prior : Option NativeNodePersistence) : NativeNodePersistence :=
  { projection := .fromRecord record
    ipv4 := saved.columns.ipv4
    ipv6 := saved.columns.ipv6
    userId := saved.columns.userId
    userAssociation :=
      (prior.bind (·.userAssociationFor record)).or
        (if record.userId.isNone then some none else none)
    authKeyAssociation :=
      (prior.bind (·.authKeyAssociationFor record)).or
        (if record.authKeyId.isNone then some none else none)
    registerMethod := saved.columns.registerMethod
    hostInfo := saved.columns.hostInfo.filter (· ≠ "null")
    endpointsNil := saved.columns.endpoints.isNone
    tagsNil := saved.columns.tags.isNone
    routesNil := saved.columns.approvedRoutes.isNone
    lastSeenNil := saved.columns.lastSeen.isNone }

/-- Replaces the stored hostinfo together with the live value it belongs to. -/
def replaceHostinfoSnapshot (native : NativeNodePersistence) (projection : HostInfo)
    (value : String) : NativeNodePersistence :=
  { native with
    projection := { native.projection with hostInfo := projection }
    hostInfo := if value = "null" then none else some value }

/-- The hostinfo column: the stored JSON with the differences of the live value merged in. -/
def snapshotHostInfo (codec : HostCodec) (hostInfo : HostInfo)
    (native : Option NativeNodePersistence) : Except MachineAdminError (Option String) := do
  let after ← codec.encode hostInfo
  match native with
  | none => return some after
  | some native =>
    if native.projection.hostInfo = hostInfo then return native.hostInfo
    else
      let before ← codec.encode native.projection.hostInfo
      return some (codec.merge (native.hostInfo.getD "null") before after)

/-- The columns of a node as a save writes them. -/
def snapshot (codec : HostCodec) (id : Nat) (record : MachineRecord)
    (native : Option NativeNodePersistence) : Except MachineAdminError CachedNodeSnapshot := do
  let invalidId : MachineAdminError := .badRequest "invalid cached node identity"
  let id ← (toSigned id).elim (.error invalidId) .ok
  let hostInfo ← snapshotHostInfo codec record.hostInfoForNode native
  let userId ←
    storedUnless native Projection.userId record.userId (fun native => .ok native.userId)
      (match record.userId with
      | none => .ok none
      | some userId => (toSigned userId).elim (.error invalidId) (.ok ∘ some))
  let endpointsNil :=
    storedUnless native endpoints record.endpoints endpointsNil false
  let tagsNil :=
    storedUnless native tags record.forcedTags tagsNil false
  let routesNil :=
    storedUnless native routes record.approvedRoutes routesNil false
  let lastSeenNil :=
    storedUnless native lastSeen record.lastSeen lastSeenNil false
  return {
    id := id
    columns :=
      { machineKey := keyWithPrefix "mkey:" record.machineKeyHex
        nodeKey := keyWithPrefix "nodekey:" record.nodeKeyHex
        discoKey := record.discoKey.getD ""
        endpoints := if endpointsNil then none else some record.endpoints
        hostInfo := hostInfo
        ipv4 := storedUnless native Projection.ipv4 record.ipv4 ipv4
          (record.ipv4.map IpAddr.toString)
        ipv6 := storedUnless native Projection.ipv6 record.ipv6 ipv6
          (record.ipv6.map IpAddr.toString)
        hostname := record.rawHostname
        givenName := record.hostname
        userId := userId
        registerMethod := storedUnless native Projection.registerMethod record.registerMethod
          registerMethod (registerMethodToDb record.registerMethod)
        tags := if tagsNil then none else some record.forcedTags
        lastSeen := if lastSeenNil then none else some record.lastSeen
        approvedRoutes := if routesNil then none else some record.approvedRoutes } }

end NativeNodePersistence

end Headscale.Node
