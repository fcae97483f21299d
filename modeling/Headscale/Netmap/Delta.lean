import Headscale.Lib.Machine
import Headscale.Lib.Text
import Headscale.Lib.TreeMap
import Headscale.Netmap.Patch

/-!
# Map frames

A client that streams its network map gets all visible peers once, and frames with differences from
then on. The server remembers for every stream the peers as it sent them last. A frame is made from
the peers that are visible now: those that are gone are removed, and of the others, as far as the
changes are about them, it sends the new and the changed ones, whole or as patches.

The client keeps a view of its peers. It has the peers that the server remembers, and each peer of the
view agrees with what the server remembers of it, unless it was patched since it was last sent whole.
-/

namespace Headscale.Netmap

open Std

/-! ## Peers as they are remembered -/

/-- A hostinfo as it was stored: absent slices are told from empty ones, and an explicitly unset flag
from one that is not there. -/
structure RawHostinfo where
  hostname : String := ""
  os : String := ""
  services : Option (List HostInfoService) := none
  sshHostKeys : Option (List String) := none
  location : Option HostInfoLocation := none
  appConnector : Option (Option Bool) := none
  routableIps : Option (List String) := none
  /-- The fields that peers do not see. -/
  rest : String := ""
deriving DecidableEq, Repr

/-- To peers an absent slice is as good as an empty one. -/
def peerSlicesEqual {α : Type} [DecidableEq α] (left right : Option (List α)) : Bool :=
  (left.getD [] = [] ∧ right.getD [] = []) ∨ left = right

def rawPeerHostinfoEqual : Option RawHostinfo → Option RawHostinfo → Bool
  | some left, some right =>
    left.hostname = right.hostname && left.os = right.os &&
      peerSlicesEqual left.services right.services &&
      peerSlicesEqual left.sshHostKeys right.sshHostKeys &&
      left.location = right.location && left.appConnector = right.appConnector &&
      peerSlicesEqual left.routableIps right.routableIps
  | none, none => true
  | _, _ => false

structure MapNodeSlices where
  addressesNil : Bool
  allowedIpsNil : Bool
  primaryRoutesNil : Bool
  endpointsNil : Bool
  tagsNil : Bool
deriving DecidableEq, Repr

structure MapStateNode where
  node : MapNode
  hostinfo : Option RawHostinfo := none
  slices : Option MapNodeSlices := none
deriving DecidableEq, Repr

def MapStateNode.id (peer : MapStateNode) : Nat := peer.node.id

/-- Peers by id. -/
abbrev PeerState := ExtTreeMap Nat MapStateNode

def insertPeer : PeerState → MapStateNode → PeerState := TreeMap.insertAt MapStateNode.id

def peerStateFromNodes (peers : List MapStateNode) : PeerState := peers.foldl insertPeer ∅

/-! ## The self node -/

/-- The canonical text of a key of the kind. -/
def parseKeyText (kind text : String) : Option String :=
  (Text.stripStartStr kind text).bind fun hex =>
    if hex.toList.length = 64 ∧ hex.toList.all fun c => (Text.hexDigit c).isSome then
      some (kind ++ String.ofList (hex.toList.map Char.toLower))
    else none

/-- Times and keys that are zero count as absent. -/
def selfNodeValue (node : MapNode) : MapNode :=
  let time (value : Option Int) := value.filter (· ≠ goZeroTime)
  let key (kind zero : String) (value : Option String) :=
    value.bind fun text =>
      match parseKeyText kind text with
      | some canonical => unlessZero (kind ++ zero) canonical
      | none => some text
  let zeros := "0000000000000000000000000000000000000000000000000000000000000000"
  { node with
    hostinfo := {}
    exitNodeDnsResolvers := []
    dataPlaneAuditLogId := ""
    created := time node.created
    keyExpiry := time node.keyExpiry
    key := (parseKeyText "nodekey:" node.key).getD node.key
    machine := key "mkey:" zeros node.machine
    discoKey := key "discokey:" zeros node.discoKey }

def selfNodesEqual (previous current : MapStateNode) : Bool :=
  previous.slices = current.slices && selfNodeValue previous.node = selfNodeValue current.node &&
    previous.hostinfo = current.hostinfo

/-! ## Changes and what a frame is asked for -/

inductive MapChangeReason where
  | fullUpdate | nodeAdded | nodeUpdated | tagUpdate | peersRemoved | nodeOnline | nodeOffline
  | subnetRouterOnline | subnetRouterOffline | userRemoved | selfUpdate | endpointDerpUpdate
  | nodeKeyRotated | keyExpiry | policyChange | dnsConfigUpdate | derpMapUpdate | pingNode
  | fullSelfUpdate | routeUpdate | routeHealthUpdate
deriving DecidableEq, Repr

structure MapChangeContent where
  includeSelf : Bool := false
  includeDerpMap : Bool := false
  includeDns : Bool := false
  includeDomain : Bool := false
  includePolicy : Bool := false
  peersChanged : List Nat := []
  peersRemoved : List Nat := []
  peerPatches : List Nat := []
  sendAllPeers : Bool := false
  requiresRuntimePeerComputation : Bool := false
  pingRequest : Bool := false
deriving DecidableEq, Repr

structure MapChange where
  reasons : List MapChangeReason := []
  targetNodeId : Option Nat := none
  content : MapChangeContent := {}
deriving DecidableEq, Repr

def MapChange.isFull (change : MapChange) : Bool :=
  change.content.sendAllPeers && change.content.includeSelf && change.content.includeDerpMap &&
    change.content.includeDns && change.content.includeDomain && change.content.includePolicy

inductive ResponseType where
  | peers
  | policy
deriving DecidableEq, Repr

structure PeerDeltaOptions where
  responseType : ResponseType
  includeSelfNode : Bool := false
  includeDnsConfig : Bool := false
  useIncrementalEmptyAclSemantics : Bool
  splitPeerRemovals : Bool
  resendVisiblePeers : Bool
deriving DecidableEq, Repr

namespace PeerDeltaOptions

def registryChange : PeerDeltaOptions :=
  { responseType := .peers
    useIncrementalEmptyAclSemantics := true
    splitPeerRemovals := false
    resendVisiblePeers := false }

def policyChange : PeerDeltaOptions :=
  { responseType := .policy
    useIncrementalEmptyAclSemantics := false
    splitPeerRemovals := true
    resendVisiblePeers := true }

end PeerDeltaOptions

variable (changes : List MapChange)

def mapBatchRequiresFullResponse : Bool :=
  changes.any fun change =>
    change.isFull || change.content.includeDerpMap || change.content.includeDomain ||
      (change.content.includeDns && !change.content.requiresRuntimePeerComputation &&
        !(change.targetNodeId.isSome && change.content.includeSelf))

def mapBatchPeerDeltaOptions (selfNodeId : Nat) : PeerDeltaOptions :=
  let requiresPolicy := changes.any fun change =>
    change.content.includePolicy || change.content.requiresRuntimePeerComputation
  let runtime := changes.any fun change => change.content.requiresRuntimePeerComputation
  { (if requiresPolicy then PeerDeltaOptions.policyChange else PeerDeltaOptions.registryChange) with
    includeDnsConfig := changes.any fun change =>
      decide (change.targetNodeId = some selfNodeId) && change.content.includeSelf &&
        change.content.includeDns
    includeSelfNode := changes.any fun change =>
      decide (change.targetNodeId = some selfNodeId) && change.content.includeSelf
    splitPeerRemovals := runtime
    resendVisiblePeers := runtime }

def mapBatchForcedOnlinePeerIds : List Nat :=
  (changes.filter fun change =>
    change.reasons.any fun reason => decide (reason = .nodeOnline ∨ reason = .nodeOffline)).flatMap
      fun change => change.content.peerPatches

def mapBatchForcedFullPeerIds : List Nat :=
  changes.flatMap fun change => change.content.peersChanged

def mapBatchPeerFilterIds : Option (List Nat) :=
  if changes.any fun change =>
      change.content.sendAllPeers || change.content.requiresRuntimePeerComputation then none
  else
    some (changes.flatMap fun change =>
      change.content.peersChanged ++ change.content.peersRemoved ++ change.content.peerPatches)

/-- What a frame with differences is asked for. -/
structure DeltaRequest where
  options : PeerDeltaOptions
  forceFullPeerIds : List Nat := []
  forceOnlinePeerIds : List Nat := []
  filterPeerIds : Option (List Nat) := none
deriving DecidableEq, Repr

def DeltaRequest.peerInScope (request : DeltaRequest) (id : Nat) : Bool :=
  request.filterPeerIds.all (id ∈ ·)

/-! ## What is visible -/

/-- What a frame is made from. -/
structure Scene where
  /-- The registry has the node of the stream. -/
  selfPresent : Bool := true
  /-- Its node, unless its name cannot be mapped. -/
  selfNode : Option MapStateNode
  selfNodeId : Nat
  /-- The other nodes with the routes that the viewer may use, by id. -/
  peers : List MapStateNode
  mapNameIsValid : Nat → Bool := fun _ => true
  aclRuleCount : Option Nat := none
  /-- The peers that the policy allows; without a policy it allows all. -/
  allowedPeerIds : Option (List Nat) := none
  /-- The primaries of subnet routes that the viewer serves too. -/
  coRouterPrimaryPeerIds : List Nat := []

namespace Scene

variable (scene : Scene)

/-- Under a policy without rules, the peers sent so far stay and those that were not there when the
stream began are added. -/
def incrementalAllowedPeerIds (initialPeerIds : List Nat) (last : PeerState) : Option (List Nat) :=
  if scene.aclRuleCount = some 0 then
    let currentPeerIds := scene.peers.map MapStateNode.id
    some (last.keys.filter (· ∈ currentPeerIds) ++
      currentPeerIds.filter (· ∉ initialPeerIds))
  else scene.allowedPeerIds

def visiblePeers (allowed : Option (List Nat)) : List MapStateNode :=
  let allowed := allowed.map (· ++ scene.coRouterPrimaryPeerIds)
  scene.peers.filter fun peer => allowed.all (peer.id ∈ ·) && scene.mapNameIsValid peer.id

end Scene

/-! ## Frames -/

/-- The peers of a response, each as it is encoded. -/
structure MapResponse where
  keepAlive : Bool := false
  node : Option MapStateNode := none
  peers : List MapStateNode := []
  peersChanged : List MapStateNode := []
  peersRemoved : List Nat := []
  peersChangedPatch : List PeerChange := []
  dnsConfig : Bool := false
deriving DecidableEq, Repr

def keepalive : MapResponse := { keepAlive := true }

/-- The responses that are sent, and what is remembered once they are. -/
structure PeerDeltaChunk where
  frames : List MapResponse
  nextPeerState : PeerState
  nextSelfNode : Option MapStateNode

/-- A self node is only sent when it is not the one sent last. -/
def selfNodeDelta (response : MapResponse) (current last : Option MapStateNode) :
    MapResponse × Option MapStateNode :=
  match response.node, current with
  | some _, some current =>
    if last.any fun last => selfNodesEqual last current then ({ response with node := none }, last)
    else (response, some current)
  | _, _ => (response, last)

def buildPeerRemovalChunk (removed : List Nat) : List MapResponse :=
  if removed = [] then [] else [{ peersRemoved := removed }]

/-- What a frame says of a visible peer. -/
inductive PeerDelta where
  | outOfScope
  | unchanged
  /-- A lifecycle change is sent even if it shows already. -/
  | again (patch : PeerChange)
  | patch (patch : PeerChange)
  | whole
deriving DecidableEq, Repr

def peerDelta (request : DeltaRequest) (last : PeerState) (peer : MapStateNode) : PeerDelta :=
  if !request.peerInScope peer.id then .outOfScope
  else if request.options.resendVisiblePeers || decide (peer.id ∈ request.forceFullPeerIds) then .whole
  else
    match last[peer.id]? with
    | none => .whole
    | some previous =>
      let sameRaw := decide (previous.slices = peer.slices) &&
        rawPeerHostinfoEqual previous.hostinfo peer.hostinfo
      if sameRaw && mapNodesEqualIgnoringLastSeen previous.node peer.node then
        if peer.id ∈ request.forceOnlinePeerIds then
          .again { nodeId := peer.id, online := peer.node.online }
        else .unchanged
      else if sameRaw then
        match peerPatchIfOnlyPatchableFieldsChanged previous.node peer.node with
        | some patch =>
          .patch (if peer.id ∈ request.forceOnlinePeerIds then
            { patch with online := peer.node.online } else patch)
        | none => .whole
      else .whole

structure DeltaParts where
  nextPeerState : PeerState
  peerPatches : List PeerChange := []
  fullPeersChanged : List MapStateNode := []

def deltaStep (request : DeltaRequest) (last : PeerState) (parts : DeltaParts) (peer : MapStateNode) :
    DeltaParts :=
  match peerDelta request last peer with
  | .outOfScope | .unchanged => parts
  | .again patch => { parts with peerPatches := parts.peerPatches ++ [patch] }
  | .patch patch =>
    { parts with
      nextPeerState := insertPeer parts.nextPeerState peer
      peerPatches := parts.peerPatches ++ [patch] }
  | .whole =>
    { parts with
      nextPeerState := insertPeer parts.nextPeerState peer
      fullPeersChanged := parts.fullPeersChanged ++ [peer] }

def dnsInputsChanged (current previous : MapStateNode) : Bool :=
  current.node.capMap ≠ previous.node.capMap ||
    current.node.hostinfo.hostname ≠ previous.node.hostinfo.hostname ||
    current.node.hostinfo.os ≠ previous.node.hostinfo.os ||
    current.node.addresses ≠ previous.node.addresses || current.node.name ≠ previous.node.name

/-- Whether the self node differs from the one sent last, in the sense given. -/
def selfDiffers (differ : MapStateNode → MapStateNode → Bool) :
    Option MapStateNode → Option MapStateNode → Bool
  | some current, some previous => differ current previous
  | none, none => false
  | _, _ => true

section Rebuild

variable (scene : Scene) (lastSelf : Option MapStateNode) (last : PeerState)

def peersRemoved (current : List MapStateNode) : List Nat :=
  last.keys.filter (· ∉ current.map MapStateNode.id)

def deltaVisible (initialPeerIds : List Nat) (request : DeltaRequest) : List MapStateNode :=
  scene.visiblePeers
    (if request.options.useIncrementalEmptyAclSemantics then
      scene.incrementalAllowedPeerIds initialPeerIds last
    else scene.allowedPeerIds)

def deltaParts (request : DeltaRequest) (current : List MapStateNode) : DeltaParts :=
  let remembered := if request.filterPeerIds.isSome then last else peerStateFromNodes current
  current.foldl (deltaStep request last)
    { nextPeerState := (peersRemoved last current).foldl ExtTreeMap.erase remembered }

def rebuildPeerDeltaChunk (initialPeerIds : List Nat) (request : DeltaRequest) :
    Option PeerDeltaChunk :=
  if !scene.selfPresent then
    some { frames := [keepalive], nextPeerState := last, nextSelfNode := lastSelf }
  else
    let current := deltaVisible scene last initialPeerIds request
    let removed := peersRemoved last current
    let parts := deltaParts last request current
    let policy : Bool := request.options.responseType = .policy
    let includeDnsConfig := request.options.includeDnsConfig ||
      selfDiffers dnsInputsChanged scene.selfNode lastSelf
    let includeSelfNode := request.options.includeSelfNode ||
      selfDiffers (fun current previous => !selfNodesEqual previous current) scene.selfNode lastSelf
    let quiet : Bool := parts.fullPeersChanged = [] ∧ removed = [] ∧ parts.peerPatches = []
    if !policy && !includeDnsConfig && !includeSelfNode && quiet then none
    else
      -- a changed self or DNS configuration goes before the frame of a policy change
      let dnsChange := policy && includeDnsConfig
      let first := selfNodeDelta { node := scene.selfNode, dnsConfig := true } scene.selfNode lastSelf
      let response : MapResponse :=
        { node := if includeSelfNode then scene.selfNode else none
          peersChanged := parts.fullPeersChanged
          peersRemoved := if request.options.splitPeerRemovals then [] else removed
          peersChangedPatch := parts.peerPatches
          dnsConfig := includeDnsConfig && !dnsChange }
      let second := selfNodeDelta response scene.selfNode (if dnsChange then first.2 else lastSelf)
      some
        { frames := (if dnsChange then [first.1] else []) ++
            buildPeerRemovalChunk (if request.options.splitPeerRemovals then removed else []) ++
            [second.1]
          nextPeerState := parts.nextPeerState
          nextSelfNode := second.2 }

def fullVisible : List MapStateNode := scene.visiblePeers scene.allowedPeerIds

/-- A node that cannot be mapped gets no map. -/
def rebuildMapChunk : PeerDeltaChunk :=
  match scene.selfPresent, scene.selfNode with
  | true, some self =>
    let current := fullVisible scene
    let response := selfNodeDelta { node := some self, peers := current, dnsConfig := true }
      scene.selfNode lastSelf
    { frames := buildPeerRemovalChunk (peersRemoved last current) ++ [response.1]
      nextPeerState := peerStateFromNodes current
      nextSelfNode := response.2 }
  | _, _ => { frames := [keepalive], nextPeerState := last, nextSelfNode := lastSelf }

end Rebuild

/-! ## Batches of changes -/

/-- The two kinds of frames. -/
inductive FrameCall where
  | full
  | delta (request : DeltaRequest)
deriving DecidableEq, Repr

namespace FrameCall

def rebuild (scene : Scene) (lastSelf : Option MapStateNode) (last : PeerState)
    (initialPeerIds : List Nat) : FrameCall → Option PeerDeltaChunk
  | full => some (rebuildMapChunk scene lastSelf last)
  | delta request => rebuildPeerDeltaChunk scene lastSelf last initialPeerIds request

/-- The peers that are visible when the frame is made. -/
def visible (scene : Scene) (last : PeerState) (initialPeerIds : List Nat) :
    FrameCall → List MapStateNode
  | full => fullVisible scene
  | delta request => deltaVisible scene last initialPeerIds request

def peerInScope : FrameCall → Nat → Bool
  | full, _ => true
  | delta request, id => request.peerInScope id

/-- No map is made for a node that is not there, and no full one for a node that cannot be mapped. -/
def refused (scene : Scene) : FrameCall → Bool
  | full => !scene.selfPresent || scene.selfNode.isNone
  | delta _ => !scene.selfPresent

end FrameCall

def mapBatchCall (selfNodeId : Nat) : Option FrameCall :=
  if changes = [] then none
  else if changes.all fun change => change.content.pingRequest then none
  else if mapBatchRequiresFullResponse changes then some .full
  else
    some (.delta
      { options := mapBatchPeerDeltaOptions changes selfNodeId
        forceFullPeerIds := mapBatchForcedFullPeerIds changes
        forceOnlinePeerIds := mapBatchForcedOnlinePeerIds changes
        filterPeerIds := mapBatchPeerFilterIds changes })

def rebuildMapBatchChunk (scene : Scene) (lastSelf : Option MapStateNode) (last : PeerState)
    (initialPeerIds : List Nat) (changes : List MapChange) : Option PeerDeltaChunk :=
  (mapBatchCall changes scene.selfNodeId).bind (·.rebuild scene lastSelf last initialPeerIds)

end Headscale.Netmap
