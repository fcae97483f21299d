import Headscale.Auth.Calls

/-!
# SSH actions

The destination of an SSH session asks what to do with it. If the policy has a rule that wants a check,
an approval that was recorded for the same two nodes under the same policy may still count; otherwise
the session is held, with an id under which the user gives a verdict, and the destination asks again with
that id.

A policy is decided on under its lock, together with the record of the approval. A new policy gets a
stamp of its own, and an approval is only good for the policy it was stamped with.

The texts of a query are taken as decoded, and of an action the flags for forwarding are left out.
-/

namespace Headscale.Auth

open Std Node TreeMap Threads

variable {cfg : WireConfig}

/-! ## Approvals -/

namespace WireState

variable (s : WireState cfg)

def lastSshAuthWithStamp (binding : SshCheckBinding) (stamp : SshPolicyStamp) : Option Int :=
  ((s.lastSshAuth binding.pair).filter fun record =>
    -- stamps are compared by the identity of the epoch alone
    record.policyStamp.map (·.epoch) = some stamp.epoch).map (·.recordedAt)

def recordAuth (pair : SshCheckPair) (record : SshAuthRecord) : WireState cfg :=
  { s with lastSshAuth := fun other => if other = pair then some record else s.lastSshAuth other }

def recordSshAuthWithStamp (binding : SshCheckBinding) (now : Int) (stamp : SshPolicyStamp) :
    WireState cfg :=
  s.recordAuth binding.pair ⟨now, stamp.updatedAt, some stamp⟩

def sshPolicyStamp : SshPolicyStamp := ⟨s.policy.updatedAt, s.policy.sshAuthEpoch⟩

/-- What `with_ssh_check_period_for_bytes` decides on. -/
def sshCheckPeriod (nodes : cfg.Nodes) (src dst : Nat) (localUser : List UInt8) : Option Nat :=
  s.policy.doc.bind fun doc =>
    cfg.sshCheckPeriodForBytes doc (s.policy.nodeInputs.getD nodes) src dst localUser

end WireState

variable (binding : SshCheckBinding)

def recordSshAuth (policyUpdatedAt : Option Int) : Call cfg Unit :=
  .write fun c s => s.recordAuth binding.pair ⟨c.now, policyUpdatedAt, none⟩

def recordSshAuthForPolicy : Call cfg Unit :=
  .write fun c s => s.recordSshAuthWithStamp binding c.now s.sshPolicyStamp

def clearSshAuth : Call cfg Unit := .write fun _ s => { s with lastSshAuth := fun _ => none }

/-! ## The policy -/

/-- `install_at_quiet` that succeeds. -/
def installPolicy (doc : cfg.Doc) (updatedAt : Int) : Call cfg Unit :=
  .write fun _ s => { s with
    policy := { s.policy with
      doc := some doc
      updatedAt := some updatedAt
      sshAuthEpoch := s.policy.sshAuthEpoch + 1 } }

/-- A change of the document or of the nodes that is no installation: other users, other nodes, or an
initial policy that was refused. -/
def refreshPolicy (doc : Option cfg.Doc) (nodeInputs : Option cfg.Nodes) : Call cfg Unit :=
  .write fun _ s => { s with policy := { s.policy with doc := doc, nodeInputs := nodeInputs } }

def invalidateSshAuth : Call cfg Unit :=
  .write fun _ s =>
    { s with policy := { s.policy with sshAuthEpoch := s.policy.sshAuthEpoch + 1 } }

/-! ## Requests -/

structure SshAction where
  accept : Bool := false
  reject : Bool := false
  message : String := ""
  holdAndDelegate : String := ""
deriving DecidableEq, Repr

inductive SshResponse where
  | error (status : Nat) (message : String)
  | action (a : SshAction)
deriving DecidableEq, Repr

structure SshActionRequest where
  /-- What stands before and after `/to/` in the path. -/
  src : String
  dst : String
  /-- The key of the Noise session, if the request came through one. -/
  machineKeyHex : Option String
  authId : Option (List UInt8)
  localUser : Option (List UInt8)
  /-- How many rounds a follow-up waits for its verdict. -/
  rounds : Nat

def parseNodeId (value : String) : Option Nat := (Text.readDecimal value.toList).filter (· < 2 ^ 64)

def pathNodeIds (request : SshActionRequest) : Except SshResponse (Nat × Nat) :=
  match parseNodeId request.src with
  | none => .error (.error 400 "Invalid src_node_id")
  | some src =>
    match parseNodeId request.dst with
    | none => .error (.error 400 "Invalid dst_node_id")
    | some dst => .ok (src, dst)

def authIdBytes (request : SshActionRequest) : Option (List UInt8) := request.authId.filter (· ≠ [])

def utf8 (bytes : List UInt8) : Option String := String.fromUTF8? ⟨bytes.toArray⟩

def authIdStart : List UInt8 := "hskey-authreq-".toUTF8.toList

def authIdCacheKey (authId : List UInt8) : Option (List UInt8) :=
  if authIdStart.isPrefixOf authId ∧ authId.length = authIdStart.length + 24 then
    some (authId.drop authIdStart.length)
  else none

def sshNoCheckAction : SshAction :=
  { reject := true
    message := "# Headscale SSH: no check rule in the tailnet policy covers this connection.\n" }

def sshAcceptAction : SshAction := { accept := true }

inductive AuthRequestKind where
  | registration
  | sshCheck (binding : SshCheckBinding)
deriving DecidableEq

def kindOf (entry : RegistrationEntry) : Option AuthRequestKind :=
  match entry.sshBinding with
  | some binding => some (.sshCheck binding)
  | none => if entry.record.isSome then some .registration else none

def authRequestKind (authId : String) : Call cfg (Option AuthRequestKind) := do
  match ← getEntry authId with
  | none => return none
  | some e => .read fun _ s => (s.entry e).bind kindOf

def authUrl (baseUrl authId : String) : String :=
  if baseUrl = "" then "/auth/" ++ authId
  else (Text.stripLastStr '/' baseUrl).getD baseUrl ++ "/auth/" ++ authId

def holdMessage (url : String) : String :=
  "# Headscale SSH requires an additional check.\n# To authenticate, visit: " ++ url ++
    "\n# Authentication checked with Headscale SSH.\n"

/-- The id is drawn at random, and drawing it may fail. -/
def newAuthId : Call cfg (Option String) := .read fun c _ => c.authId

def sshActionHold (localUser : List UInt8) : Call cfg SshResponse := do
  match cfg.delegationUrl cfg.publicControlUrl with
  | none => return .error 500 "Internal error"
  | some withAuth =>
    match ← newAuthId with
    | none => return .error 500 "Internal error"
    | some rawAuthId =>
      let authId := "hskey-authreq-" ++ rawAuthId
      insertSshCheck rawAuthId binding
      return .action
        { holdAndDelegate := withAuth authId localUser
          message := holdMessage (authUrl cfg.publicControlUrl authId) }

/-- What a follow-up with an accepted verdict does under the lock of the policy. -/
def acceptedSection (localUser : List UInt8) (snapshot : cfg.Snapshot) (now : Int)
    (s : WireState cfg) : SshResponse × WireState cfg :=
  match s.sshCheckPeriod (cfg.sshPolicyNodes snapshot) binding.srcNodeId binding.dstNodeId localUser with
  | none => (.action sshNoCheckAction, s)
  | some _ => (.action sshAcceptAction, s.recordSshAuthWithStamp binding now s.sshPolicyStamp)

def sshActionFollowup (authId : List UInt8) (binding : SshCheckBinding) (localUser : List UInt8)
    (rounds : Nat) : Call cfg SshResponse := do
  match authIdCacheKey authId with
  | none => return .error 400 "Invalid auth_id"
  | some rawAuthId =>
    match utf8 rawAuthId with
    | none => sshActionHold binding localUser
    | some rawAuthId =>
      match ← authRequestKind rawAuthId with
      | none => sshActionHold binding localUser
      | some .registration => return .error 400 "auth session is not for SSH check"
      | some (.sshCheck cachedBinding) =>
        if cachedBinding.matchesPair binding then
          match (← waitForSshAuth rounds rawAuthId).result with
          | none => return .error 401 "ssh action follow-up cancelled"
          | some .accepted =>
            let snapshot ← .read fun c _ => c.snapshot
            .run fun c s => acceptedSection binding localUser snapshot c.now s
          | some (.rejected _) => return .action { reject := true }
          | some .expired => return .action { reject := true }
          | some .missing => sshActionHold binding localUser
        else return .error 401 "src/dst pair does not match auth session"

/-- What a request is answered at once, decided under the lock of the policy. -/
def cachedAction (followup : Bool) (binding : SshCheckBinding) (localUser : List UInt8)
    (snapshot : cfg.Snapshot) (now : Int) (s : WireState cfg) : Option SshResponse :=
  match s.sshCheckPeriod (cfg.sshPolicyNodes snapshot) binding.srcNodeId binding.dstNodeId localUser with
  | none => some (.action sshNoCheckAction)
  | some period =>
    if !followup && period ≠ 0 then
      ((s.lastSshAuthWithStamp binding s.sshPolicyStamp).filter fun last =>
        last ≤ now && now - last < period).map fun _ => .action sshAcceptAction
    else none

def handleSshAction (request : SshActionRequest) : Call cfg SshResponse := do
  match pathNodeIds request with
  | .error response => return response
  | .ok (src, dst) =>
    match request.machineKeyHex with
    | none => return .error 401 "missing Noise machine key"
    | some machineKeyHex =>
      let snapshot ← .read fun c _ => c.snapshot
      match cfg.machineKeyHex snapshot dst with
      | none => return .error 404 "dst node not found"
      | some dstMachineKey =>
        if dstMachineKey ≠ machineKeyHex then
          return .error 401 "machine key does not match dst node"
        else
          let localUser := request.localUser.getD []
          let binding : SshCheckBinding := ⟨src, dst, (utf8 localUser).getD ""⟩
          let authId := authIdBytes request
          match ← .read fun c s => cachedAction authId.isSome binding localUser snapshot c.now s with
          | some response => return response
          | none =>
            match authId with
            | some authId => sshActionFollowup authId binding localUser request.rounds
            | none => sshActionHold binding localUser

/-! ## The server -/

inductive Operation (cfg : WireConfig) where
  | pruneExpired
  | insertFromSource (registrationId : String) (record : MachineRecord)
      (source : Option RegistrationSource)
  | insertSshCheck (authId : String) (binding : SshCheckBinding)
  | pendingRegistrationCompletion (registrationId : String)
  | finishRegistration (completion : RegistrationCompletion) (registered : MachineRecord)
  | remove (registrationId : String)
  | complete (registrationId : String) (registered : MachineRecord)
  | approveWithoutNode (registrationId : String)
  | reject (registrationId reason : String)
  | waitForRegistration (rounds : Nat) (registrationId : String)
  | waitForAuth (rounds : Nat) (authId : String)
  | waitForSshAuth (rounds : Nat) (authId : String)
  | recordSshAuth (binding : SshCheckBinding) (policyUpdatedAt : Option Int)
  | recordSshAuthForPolicy (binding : SshCheckBinding)
  | clearSshAuth
  | installPolicy (doc : cfg.Doc) (updatedAt : Int)
  | refreshPolicy (doc : Option cfg.Doc) (nodeInputs : Option cfg.Nodes)
  | invalidateSshAuth
  | handleSshAction (request : SshActionRequest)

inductive Reply where
  | done
  | completion (completion : Option RegistrationCompletion)
  | registration (waited : Waited RegistrationWaitOutcome)
  | auth (waited : Waited AuthWaitOutcome)
  | ssh (response : SshResponse)
deriving DecidableEq

def Operation.code : Operation cfg → Call cfg Reply
  | .pruneExpired => do
    let _ ← Auth.pruneExpired
    return .done
  | .insertFromSource registrationId record source => do
    Auth.insertFromSource registrationId record source
    return .done
  | .insertSshCheck authId binding => do
    Auth.insertSshCheck authId binding
    return .done
  | .pendingRegistrationCompletion registrationId => do
    return .completion (← Auth.pendingRegistrationCompletion registrationId)
  | .finishRegistration completion registered => do
    Auth.finishRegistration completion registered
    return .done
  | .remove registrationId => do
    let _ ← Auth.remove registrationId
    return .done
  | .complete registrationId registered => do
    let _ ← Auth.complete registrationId registered
    return .done
  | .approveWithoutNode registrationId => do
    let _ ← Auth.approveWithoutNode registrationId
    return .done
  | .reject registrationId reason => do
    let _ ← Auth.reject registrationId reason
    return .done
  | .waitForRegistration rounds registrationId => do
    return .registration (← Auth.waitForRegistration rounds registrationId)
  | .waitForAuth rounds authId => do return .auth (← Auth.waitForAuth rounds authId)
  | .waitForSshAuth rounds authId => do return .auth (← Auth.waitForSshAuth rounds authId)
  | .recordSshAuth binding policyUpdatedAt => do
    Auth.recordSshAuth binding policyUpdatedAt
    return .done
  | .recordSshAuthForPolicy binding => do
    Auth.recordSshAuthForPolicy binding
    return .done
  | .clearSshAuth => do
    Auth.clearSshAuth
    return .done
  | .installPolicy doc updatedAt => do
    Auth.installPolicy doc updatedAt
    return .done
  | .refreshPolicy doc nodeInputs => do
    Auth.refreshPolicy doc nodeInputs
    return .done
  | .invalidateSshAuth => do
    Auth.invalidateSshAuth
    return .done
  | .handleSshAction request => do return .ssh (← Auth.handleSshAction request)

/-- The calls of one server, from an empty cache and any policy. -/
def serving (cfg : WireConfig) :
    Machine.System (World (Operation cfg) (WireState cfg) (Choice cfg) Reply)
      (Move (Operation cfg) (Choice cfg)) :=
  running Operation.code fun s => s.cells = [] ∧ s.inner = ∅ ∧ s.lastSshAuth = fun _ => none

end Headscale.Auth
