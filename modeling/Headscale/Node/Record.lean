import Headscale.Netip.Addr
import Headscale.Db.Rows

/-!
# Node records

The record that the live registry keeps for a node, and the hostinfo a client last reported. Of the
hostinfo the fields that the server reads are spelled out; the others are compared and copied as one
value. Timestamps are instants in nanoseconds.
-/

namespace Headscale.Node

/-! ## Hostinfo -/

structure NetInfo where
  preferredDerp : Int := 0
  /-- The fields that nothing on the server reads. -/
  rest : String := ""
deriving DecidableEq, Repr

structure HostInfo where
  hostname : String := ""
  os : String := ""
  osVersion : String := ""
  routableIps : List String := []
  requestTags : List String := []
  sshHostKeys : List String := []
  netInfo : Option NetInfo := none
  /-- The fields that nothing on the server reads. -/
  rest : String := ""
deriving DecidableEq, Repr

/-! ## Records -/

structure MachineRecord where
  nodeId : Option Nat := none
  authKeyId : Option Int := none
  nodeKeyHex : String := ""
  machineKeyHex : String := ""
  user : String := ""
  userId : Option Nat := none
  userDisplayName : String := ""
  userProfilePicUrl : String := ""
  userProvider : String := ""
  userCreatedAt : Option Int := none
  /-- The given name, which an admin may change. -/
  hostname : String := ""
  /-- The name that the client reports. -/
  rawHostname : String := ""
  os : String := ""
  osVersion : String := ""
  hostInfo : HostInfo := {}
  ipv4 : Option IpAddr := none
  ipv6 : Option IpAddr := none
  discoKey : Option String := none
  endpoints : List String := []
  homeDerp : Int := 0
  expiry : Option Int := none
  lastSeen : Int := 0
  ephemeral : Bool := false
  createdAt : Int := 0
  forcedTags : List String := []
  availableRoutes : List String := []
  approvedRoutes : List String := []
  sshHostKeys : List String := []
  registerMethod : Int := 1
deriving DecidableEq, Repr

namespace MachineRecord

variable (record : MachineRecord)

def isTagged : Bool := !record.forcedTags.isEmpty

def setUserIdentity (userId : Option Nat) (loginName displayName profilePicUrl : String) :
    MachineRecord :=
  { record with
    userId := userId
    user := loginName
    userDisplayName := displayName
    userProfilePicUrl := profilePicUrl }

def setUserAccountMetadata (provider : String) (createdAt : Option Int) :
    MachineRecord :=
  { record with userProvider := provider, userCreatedAt := createdAt }

def clearUserIdentity : MachineRecord :=
  { record with
    user := ""
    userId := none
    userDisplayName := ""
    userProfilePicUrl := ""
    userProvider := ""
    userCreatedAt := none }

/-- An expiry at Go's zero time means none. -/
def isExpiredAt (now : Int) : Bool :=
  record.expiry.any fun time => time ≠ Db.goZeroTime ∧ now > time

/-- The reported values that older paths read directly are refreshed with the hostinfo. -/
def replaceHostInfo (hostInfo : HostInfo) : MachineRecord :=
  { record with
    rawHostname := if hostInfo.hostname ≠ "" then hostInfo.hostname else record.rawHostname
    os := hostInfo.os
    osVersion := hostInfo.osVersion
    availableRoutes := hostInfo.routableIps
    sshHostKeys := hostInfo.sshHostKeys
    homeDerp := (hostInfo.netInfo.map NetInfo.preferredDerp).getD 0
    hostInfo := hostInfo }

/-- The hostinfo with the values that admin and map code may have changed. -/
def hostInfoForNode : HostInfo :=
  { record.hostInfo with
    os := if record.hostInfo.os = "" then record.os else record.hostInfo.os
    osVersion := if record.hostInfo.osVersion = "" then record.osVersion else record.hostInfo.osVersion
    routableIps := record.availableRoutes
    sshHostKeys := record.sshHostKeys
    netInfo :=
      match record.hostInfo.netInfo with
      | some netInfo => some { netInfo with preferredDerp := record.homeDerp }
      | none => if record.homeDerp ≠ 0 then some { preferredDerp := record.homeDerp } else none }

end MachineRecord

/-! ## Users -/

structure UserRecord where
  id : Nat := 0
  name : String := ""
  createdAt : Nat := 0
  createdAtPrecise : Option Int := none
  displayName : String := ""
  email : String := ""
  providerId : String := ""
  provider : String := ""
  profilePicUrl : String := ""
deriving DecidableEq, Repr

def userLoginName (user : UserRecord) : String :=
  if user.email ≠ "" then user.email
  else if user.name ≠ "" then user.name
  else if user.providerId ≠ "" then user.providerId
  else toString user.id

/-- `DateTime::from_timestamp` of whole seconds. -/
def fromTimestamp (seconds : Int) : Option Int :=
  if -8334601228800 ≤ seconds ∧ seconds ≤ 8210266876799 then some (seconds * 1000000000) else none

structure UserIdentity where
  loginName : String := ""
  displayName : String := ""
  profilePicUrl : String := ""
  provider : String := ""
  createdAt : Option Int := none
deriving DecidableEq, Repr

def userIdentityFromRecord (user : UserRecord) : UserIdentity :=
  { loginName := userLoginName user
    displayName := if user.displayName = "" then userLoginName user else user.displayName
    profilePicUrl := user.profilePicUrl
    provider := user.provider
    createdAt := user.createdAtPrecise.or
      (if 0 < user.createdAt ∧ user.createdAt < 2 ^ 63 then fromTimestamp user.createdAt else none) }

/-- Takes over the identity of a loaded user; an association that was not loaded changes nothing. -/
def applyLoadedUserIdentity (record : MachineRecord) (association : Option (Option UserRecord)) :
    MachineRecord :=
  match association with
  | none => record
  | some user =>
    let identity := (user.map userIdentityFromRecord).getD {}
    (record.setUserIdentity record.userId identity.loginName identity.displayName
      identity.profilePicUrl).setUserAccountMetadata identity.provider identity.createdAt

/-! ## Stored forms -/

/-- `key_with_prefix`. -/
def keyWithPrefix (start value : String) : String :=
  if value = "" ∨ Text.startsWith start value then value else start ++ value

/-- `key_without_prefix`. -/
def keyWithoutPrefix (start value : String) : String := (Text.stripStartStr start value).getD value

def registerMethodToDb (method : Int) : String :=
  if method = 1 then "authkey" else if method = 2 then "cli" else if method = 3 then "oidc" else ""

def registerMethodFromDb (method : String) : Int :=
  if method = "authkey" then 1 else if method = "cli" then 2 else if method = "oidc" then 3 else 0

end Headscale.Node
