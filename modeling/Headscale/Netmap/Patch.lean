import Mathlib.Data.List.Basic

/-!
# Peers and peer patches

A network map lists peers as whole nodes. When only a few fields of a peer change, the server sends a
patch instead. A patch says nothing about a field that is zero, empty or absent in it, and the client
leaves such a field as it was; so a value that becomes zero, empty or absent needs a whole node. The
home region and an expiry on its own fall back to that. Patches for new keys do not, nor do endpoints.

Timestamps are instants in nanoseconds.
-/

namespace Headscale.Netmap

/-! ## Nodes of a network map -/

structure HostInfoService where
  proto : String := ""
  port : Nat := 0
  description : String := ""
deriving DecidableEq, Repr

structure HostInfoLocation where
  country : String := ""
  countryCode : String := ""
  city : String := ""
  cityCode : String := ""
  latitude : Rat := 0
  longitude : Rat := 0
  priority : Int := 0
deriving DecidableEq, Repr

structure HostInfo where
  hostname : String := ""
  os : String := ""
  services : List HostInfoService := []
  sshHostKeys : List String := []
  location : Option HostInfoLocation := none
  appConnector : Option Bool := none
  routableIps : List String := []
  /-- The results of the client's network checks, as JSON. -/
  netInfo : Option String := none
  /-- The JSON of the other fields, which are only compared. -/
  rest : String := ""
deriving DecidableEq, Repr

/-- The fields that peers get to see. -/
def peerHostinfoEqual (previous current : HostInfo) : Bool :=
  previous.hostname = current.hostname ∧ previous.os = current.os ∧
    previous.services = current.services ∧ previous.sshHostKeys = current.sshHostKeys ∧
    previous.location = current.location ∧ previous.appConnector = current.appConnector ∧
    previous.routableIps = current.routableIps

structure MapNode where
  id : Nat
  stableId : String := ""
  name : String := ""
  user : Nat := 0
  sharer : Nat := 0
  key : String := ""
  keySignature : String := ""
  machine : Option String := none
  addresses : List String := []
  allowedIps : List String := []
  primaryRoutes : List String := []
  hostinfo : HostInfo := {}
  created : Option Int := none
  keyExpiry : Option Int := none
  cap : Nat := 0
  tags : List String := []
  lastSeen : Option Int := none
  online : Option Bool := none
  machineAuthorized : Bool := false
  capabilities : List String := []
  /-- The capabilities in order, each with the JSON of its arguments. -/
  capMap : List (String × List String) := []
  expired : Bool := false
  homeDerp : Int := 0
  discoKey : Option String := none
  endpoints : List String := []
  legacyDerpString : String := ""
  unsignedPeerApiOnly : Bool := false
  computedName : String := ""
  computedNameWithHost : String := ""
  dataPlaneAuditLogId : String := ""
  selfNodeV4MasqAddrForThisPeer : Option String := none
  selfNodeV6MasqAddrForThisPeer : Option String := none
  isWireGuardOnly : Bool := false
  isJailed : Bool := false
  /-- The JSON of each resolver. -/
  exitNodeDnsResolvers : List String := []
deriving DecidableEq, Repr

-- The JSON of a node leaves a field out only if it is absent, empty or zero, so that two nodes have
-- the same JSON exactly if they are equal.
def mapNodesEqualIgnoringLastSeen (previous current : MapNode) : Bool :=
  previous = { current with lastSeen := previous.lastSeen }

def mapNodeHasSubnetRoute (node : MapNode) : Bool :=
  node.allowedIps.any fun route => route ∉ node.addresses ∧ route ≠ "0.0.0.0/0" ∧ route ≠ "::/0"

/-! ## Patches -/

structure PeerChange where
  nodeId : Nat
  derpRegion : Int := 0
  cap : Nat := 0
  capMap : List (String × List String) := []
  endpoints : List String := []
  key : Option String := none
  keySignature : String := ""
  discoKey : Option String := none
  online : Option Bool := none
  lastSeen : Option Int := none
  keyExpiry : Option Int := none
deriving DecidableEq, Repr

def zeroNodeKey : String :=
  "nodekey:0000000000000000000000000000000000000000000000000000000000000000"

def zeroDiscoKey : String :=
  "discokey:0000000000000000000000000000000000000000000000000000000000000000"

/-- The first instant of the year one. -/
def goZeroTime : Int := -62135596800000000000

def keysChanged (previous current : MapNode) : Bool :=
  previous.key ≠ current.key ∨ previous.discoKey ≠ current.discoKey

/-- The current node with the previous values of what a patch can carry, and of what goes with it. -/
def currentNormalized (previous current : MapNode) : MapNode :=
  { current with
    endpoints := previous.endpoints
    homeDerp := previous.homeDerp
    legacyDerpString := previous.legacyDerpString
    hostinfo :=
      if peerHostinfoEqual previous.hostinfo current.hostinfo then previous.hostinfo
      else { current.hostinfo with netInfo := previous.hostinfo.netInfo }
    lastSeen := previous.lastSeen
    online := previous.online
    keyExpiry := previous.keyExpiry
    key := previous.key
    discoKey := previous.discoKey }

def peerPatchIfOnlyPatchableFieldsChanged (previous current : MapNode) : Option PeerChange :=
  let endpointsChanged : Bool := previous.endpoints ≠ current.endpoints
  let derpChanged : Bool := previous.homeDerp ≠ current.homeDerp
  let onlineChanged : Bool := previous.online ≠ current.online
  let keyExpiryChanged : Bool := previous.keyExpiry ≠ current.keyExpiry
  let keysChanged : Bool := keysChanged previous current
  if !endpointsChanged && !derpChanged && !onlineChanged && !keyExpiryChanged && !keysChanged then none
  else if derpChanged && current.homeDerp = 0 then none
  else if keyExpiryChanged && current.keyExpiry.isNone && !keysChanged then none
  else if onlineChanged && (mapNodeHasSubnetRoute previous || mapNodeHasSubnetRoute current) then none
  else if previous ≠ currentNormalized previous current then none
  else
    some
      { nodeId := current.id
        endpoints := if endpointsChanged || keysChanged then current.endpoints else []
        derpRegion := if derpChanged then current.homeDerp else 0
        online := if onlineChanged then current.online else none
        key := if keysChanged then some current.key else none
        discoKey := if keysChanged then some (current.discoKey.getD zeroDiscoKey) else none
        keyExpiry :=
          if keysChanged then some (current.keyExpiry.getD goZeroTime)
          else if keyExpiryChanged then current.keyExpiry
          else none }

/-! ## The wire -/

/-- A patch as it is encoded: a field is there or it is omitted. -/
structure WirePatch where
  nodeId : Nat
  derpRegion : Option Int := none
  cap : Option Nat := none
  capMap : Option (List (String × List String)) := none
  endpoints : Option (List String) := none
  key : Option String := none
  keySignature : Option String := none
  discoKey : Option String := none
  online : Option Bool := none
  lastSeen : Option Int := none
  keyExpiry : Option Int := none
deriving DecidableEq, Repr

/-- A value that is left out when it is the zero value. -/
def unlessZero {α : Type} [DecidableEq α] (zero value : α) : Option α :=
  if value = zero then none else some value

/-- Also keys and times that are there but zero are omitted. -/
def PeerChange.encode (change : PeerChange) : WirePatch :=
  { nodeId := change.nodeId
    derpRegion := unlessZero 0 change.derpRegion
    cap := unlessZero 0 change.cap
    capMap := unlessZero [] change.capMap
    endpoints := unlessZero [] change.endpoints
    key := change.key.bind (unlessZero zeroNodeKey)
    keySignature := unlessZero "" change.keySignature
    discoKey := change.discoKey.bind (unlessZero zeroDiscoKey)
    online := change.online
    lastSeen := change.lastSeen.bind (unlessZero goZeroTime)
    keyExpiry := change.keyExpiry.bind (unlessZero goZeroTime) }

/-- What a client makes of a patch: omitted fields stay as they are. -/
def WirePatch.applyTo (patch : WirePatch) (node : MapNode) : MapNode :=
  { node with
    homeDerp := patch.derpRegion.getD node.homeDerp
    cap := patch.cap.getD node.cap
    capMap := patch.capMap.getD node.capMap
    endpoints := patch.endpoints.getD node.endpoints
    key := patch.key.getD node.key
    keySignature := patch.keySignature.getD node.keySignature
    discoKey := patch.discoKey.or node.discoKey
    online := patch.online.or node.online
    lastSeen := patch.lastSeen.or node.lastSeen
    keyExpiry := patch.keyExpiry.or node.keyExpiry }

/-! ## What a patch delivers -/

lemma unlessZero_getD {α : Type} [DecidableEq α] (zero value other : α) :
    (unlessZero zero value).getD other = if value = zero then other else value := by
  unfold unlessZero
  split <;> rfl

open MapNode

lemma bind_unlessZero_or {α : Type} [DecidableEq α] (zero : α) (value other : Option α) :
    (value.bind (unlessZero zero)).or other =
      if value = none ∨ value = some zero then other else value := by
  cases value with
  | none => rfl
  | some value =>
    unfold unlessZero
    by_cases hzero : value = zero <;> simp [hzero]

section Delivery

variable {previous current : MapNode} {change : PeerChange}

/-- What is known when a patch is made. -/
structure IsPatch (previous current : MapNode) (change : PeerChange) : Prop where
  normalized : previous = currentNormalized previous current
  derp : previous.homeDerp ≠ current.homeDerp → current.homeDerp ≠ 0
  expiry : previous.keyExpiry ≠ current.keyExpiry → current.keyExpiry = none →
    keysChanged previous current = true
  fields : change =
    { nodeId := current.id
      endpoints :=
        if previous.endpoints ≠ current.endpoints ∨ keysChanged previous current then current.endpoints
        else []
      derpRegion := if previous.homeDerp ≠ current.homeDerp then current.homeDerp else 0
      online := if previous.online ≠ current.online then current.online else none
      key := if keysChanged previous current then some current.key else none
      discoKey :=
        if keysChanged previous current then some (current.discoKey.getD zeroDiscoKey) else none
      keyExpiry :=
        if keysChanged previous current then some (current.keyExpiry.getD goZeroTime)
        else if previous.keyExpiry ≠ current.keyExpiry then current.keyExpiry
        else none }

lemma isPatch (h : peerPatchIfOnlyPatchableFieldsChanged previous current = some change) :
    IsPatch previous current change := by
  unfold peerPatchIfOnlyPatchableFieldsChanged at h
  simp only [Option.ite_none_left_eq_some] at h
  obtain ⟨-, hderp, hexpiry, -, hnormalized, hchange⟩ := h
  refine ⟨not_not.mp hnormalized, ?_, ?_, ?_⟩
  · intro hne hzero
    rw [decide_eq_true hne, decide_eq_true hzero] at hderp
    exact hderp rfl
  · intro hne hnone
    rw [decide_eq_true hne, hnone] at hexpiry
    simpa using hexpiry
  · rw [← Option.some.inj hchange]
    simp only [Bool.or_eq_true, decide_eq_true_eq]

lemma eq_of_keysChanged_false (h : ¬ keysChanged previous current = true) :
    previous.key = current.key ∧ previous.discoKey = current.discoKey := by
  simpa [keysChanged] using h

namespace IsPatch

variable (h : IsPatch previous current change)

include h

lemma homeDerp : (change.encode.applyTo previous).homeDerp = current.homeDerp := by
  have hfield : (change.encode.applyTo previous).homeDerp =
      (unlessZero 0 change.derpRegion).getD previous.homeDerp := rfl
  rw [hfield, unlessZero_getD, h.fields]
  by_cases hchanged : previous.homeDerp = current.homeDerp
  · simp [hchanged]
  · simp [hchanged, h.derp hchanged]

lemma endpoints :
    (change.encode.applyTo previous).endpoints =
      if current.endpoints = [] then previous.endpoints else current.endpoints := by
  have hfield : (change.encode.applyTo previous).endpoints =
      (unlessZero [] change.endpoints).getD previous.endpoints := rfl
  rw [hfield, unlessZero_getD, h.fields]
  by_cases hchanged : previous.endpoints = current.endpoints
  · rw [hchanged, ite_self]
    cases keysChanged previous current <;> simp
  · simp [hchanged]

lemma online :
    (change.encode.applyTo previous).online =
      if current.online = none then previous.online else current.online := by
  have hfield : (change.encode.applyTo previous).online = change.online.or previous.online := rfl
  rw [hfield, h.fields]
  by_cases hchanged : previous.online = current.online
  · simp [hchanged]
  · simp only [hchanged, ne_eq]
    cases current.online <;> rfl

lemma key :
    (change.encode.applyTo previous).key =
      if current.key = zeroNodeKey then previous.key else current.key := by
  have hfield : (change.encode.applyTo previous).key =
      (change.key.bind (unlessZero zeroNodeKey)).getD previous.key := rfl
  rw [hfield, h.fields]
  by_cases hchanged : keysChanged previous current = true
  · simp [hchanged, unlessZero_getD]
  · simp [hchanged, (eq_of_keysChanged_false hchanged).1]

lemma discoKey :
    (change.encode.applyTo previous).discoKey =
      if current.discoKey = none ∨ current.discoKey = some zeroDiscoKey then previous.discoKey
      else current.discoKey := by
  have hfield : (change.encode.applyTo previous).discoKey =
      (change.discoKey.bind (unlessZero zeroDiscoKey)).or previous.discoKey := rfl
  rw [hfield, bind_unlessZero_or, h.fields]
  by_cases hchanged : keysChanged previous current = true
  · cases hdisco : current.discoKey <;> simp [hchanged]
  · simp [hchanged, (eq_of_keysChanged_false hchanged).2]

lemma keyExpiry :
    (change.encode.applyTo previous).keyExpiry =
      if current.keyExpiry = none ∨ current.keyExpiry = some goZeroTime then previous.keyExpiry
      else current.keyExpiry := by
  have hfield : (change.encode.applyTo previous).keyExpiry =
      (change.keyExpiry.bind (unlessZero goZeroTime)).or previous.keyExpiry := rfl
  rw [hfield, bind_unlessZero_or, h.fields]
  by_cases hchanged : keysChanged previous current = true
  · cases hexpiry : current.keyExpiry <;> simp [hchanged]
  · by_cases hexpiry : previous.keyExpiry = current.keyExpiry
    · simp [hchanged, hexpiry]
    · simp [hchanged, hexpiry]

lemma hostinfo : peerHostinfoEqual previous.hostinfo current.hostinfo = true := by
  by_contra hne
  have hhostinfo := congrArg MapNode.hostinfo h.normalized
  simp only [currentNormalized, hne] at hhostinfo
  rw [hhostinfo] at hne
  simp [peerHostinfoEqual] at hne

end IsPatch

/-- The fields that a patch and the values beside it concern, over another node. -/
def MapNode.overlay (base fields : MapNode) : MapNode :=
  { base with
    homeDerp := fields.homeDerp
    endpoints := fields.endpoints
    key := fields.key
    discoKey := fields.discoKey
    online := fields.online
    keyExpiry := fields.keyExpiry
    lastSeen := fields.lastSeen
    legacyDerpString := fields.legacyDerpString
    hostinfo := fields.hostinfo }

lemma IsPatch.applyTo_eq (h : IsPatch previous current change) :
    change.encode.applyTo previous = current.overlay (change.encode.applyTo previous) := by
  have hrest : change.encode.applyTo previous =
      previous.overlay (change.encode.applyTo previous) := by
    rw [h.fields]
    rfl
  calc change.encode.applyTo previous
      = previous.overlay (change.encode.applyTo previous) := hrest
    _ = (currentNormalized previous current).overlay (change.encode.applyTo previous) :=
        congrArg (fun base => overlay base (change.encode.applyTo previous)) h.normalized
    _ = current.overlay (change.encode.applyTo previous) := rfl

/-- A client that applies a patch gets the current node, but keeps its own value of each patched field
that has become zero, empty or absent, its deprecated region text, and what it was told of when the
peer was last seen and of its host. What it was told of the host agrees with the current hostinfo in
the fields that peers see. An expiry only becomes absent in a patch together with new keys. -/
theorem peerPatch_delivers
    (h : peerPatchIfOnlyPatchableFieldsChanged previous current = some change) :
    change.encode.applyTo previous =
        { current with
          endpoints := if current.endpoints = [] then previous.endpoints else current.endpoints
          key := if current.key = zeroNodeKey then previous.key else current.key
          discoKey :=
            if current.discoKey = none ∨ current.discoKey = some zeroDiscoKey then previous.discoKey
            else current.discoKey
          keyExpiry :=
            if current.keyExpiry = none ∨ current.keyExpiry = some goZeroTime then previous.keyExpiry
            else current.keyExpiry
          online := if current.online = none then previous.online else current.online
          lastSeen := previous.lastSeen
          legacyDerpString := previous.legacyDerpString
          hostinfo := previous.hostinfo } ∧
      peerHostinfoEqual previous.hostinfo current.hostinfo = true ∧
      (current.keyExpiry = none → previous.keyExpiry ≠ none →
        previous.key ≠ current.key ∨ previous.discoKey ≠ current.discoKey) := by
  have hpatch := isPatch h
  refine ⟨?_, hpatch.hostinfo, fun hnone hsome => ?_⟩
  · have hlastSeen : (change.encode.applyTo previous).lastSeen = previous.lastSeen := by
      rw [hpatch.fields]
      rfl
    rw [hpatch.applyTo_eq]
    unfold overlay
    rw [hpatch.homeDerp, hpatch.endpoints, hpatch.key, hpatch.discoKey, hpatch.keyExpiry, hpatch.online,
      hlastSeen]
    rfl
  · exact of_decide_eq_true (hpatch.expiry (fun heq => hsome (heq.trans hnone)) hnone)

end Delivery

section Losses

/-- A peer with all that a patch may fail to take away. -/
def patchedPeer : MapNode :=
  { id := 7
    key := "nodekey:01"
    discoKey := some "discokey:01"
    endpoints := ["10.0.0.1:41641"]
    homeDerp := 1
    legacyDerpString := "127.3.3.40:1"
    online := some true
    keyExpiry := some 1000 }

/-- The client's view of the peer after the patch, if there is one. -/
def patchedAs (current : MapNode) : Option MapNode :=
  (peerPatchIfOnlyPatchableFieldsChanged patchedPeer current).map fun change =>
    change.encode.applyTo patchedPeer

/-- Endpoints that are withdrawn, alone or with new keys; an online state that is not known any more;
with new keys, an expiry or a disco key that is withdrawn; the zero node key; an expiry at the zero
time; and the region text, when the region changes. In each case there is a patch, and the client is
left with the old value. -/
theorem patchedPeer_keeps_old_values :
    (patchedAs { patchedPeer with endpoints := [] }).map endpoints = some ["10.0.0.1:41641"] ∧
    (patchedAs { patchedPeer with key := "nodekey:02", endpoints := [] }).map endpoints =
      some ["10.0.0.1:41641"] ∧
    (patchedAs { patchedPeer with online := none }).map online = some (some true) ∧
    (patchedAs { patchedPeer with key := "nodekey:02", keyExpiry := none }).map keyExpiry =
      some (some 1000) ∧
    (patchedAs { patchedPeer with discoKey := none }).map discoKey =
      some (some "discokey:01") ∧
    (patchedAs { patchedPeer with key := zeroNodeKey }).map key = some "nodekey:01" ∧
    (patchedAs { patchedPeer with keyExpiry := some goZeroTime }).map keyExpiry =
      some (some 1000) ∧
    (patchedAs { patchedPeer with homeDerp := 2, legacyDerpString := "127.3.3.40:2" }).map
      legacyDerpString = some "127.3.3.40:1" := by
  decide +kernel

/-- New endpoints and a new expiry reach the client, and the region with them. -/
theorem patchedPeer_delivers_new_values :
    let current : MapNode :=
      { patchedPeer with endpoints := ["10.0.0.2:41641"], keyExpiry := some 2000, homeDerp := 3 }
    patchedAs current = some current := by
  intro current
  obtain ⟨change, hchange⟩ := Option.isSome_iff_exists.mp
    (by decide +kernel : (peerPatchIfOnlyPatchableFieldsChanged patchedPeer current).isSome = true)
  rw [patchedAs, hchange, Option.map_some, (peerPatch_delivers hchange).1]
  decide +kernel

end Losses

end Headscale.Netmap
