import Headscale.Node.Registration

/-!
# The record and row of a re-registered node

A registration of an existing node proposes a new record from the stored parameters, step by step;
later steps override earlier ones. On the auth-key path a captured key decides owner and tags: the
node keeps what it had, or takes the key's tags and loses its owner. The record never ends up with an
owner and tags at once, and neither do the columns that are saved from it.
-/

namespace Headscale.Node

open Db NativeNodePersistence

/-- The stored hostinfo JSON. -/
def paramsHostInfo (params : CreateParams) : String := params.columns.hostInfo.getD "null"

/-- The owner's id, which must not be negative. -/
def paramsUserId (params : CreateParams) : Except MachineAdminError (Option Nat) :=
  match params.columns.userId with
  | none => .ok none
  | some id => (toUnsigned id).elim (.error (.badRequest "invalid user identity")) (.ok ∘ some)

/-! ## The steps -/

section Steps

variable (codec : HostCodec) (before : MachineRecord) (params : CreateParams)
variable (wire : Option MachineRecord) (authKey : Bool)

/-- The client's keys and hostinfo, the tags and the owner's id. Without an auth key the client also
brings its disco key and endpoints. -/
def proposeFields : Except MachineAdminError MachineRecord := do
  let hostInfo ← hostInfoFromValue codec (paramsHostInfo params)
  let proposed := { before with nodeKeyHex := keyWithoutPrefix "nodekey:" params.columns.nodeKey }
  let proposed := { proposed.replaceHostInfo hostInfo with rawHostname := params.columns.hostname }
  let endpoints := params.columns.endpoints.getD []
  let proposed :=
    if authKey then proposed
    else
      { proposed with
        discoKey := some params.columns.discoKey
        endpoints := if endpoints.isEmpty then proposed.endpoints else endpoints }
  let userId ← paramsUserId params
  return { proposed with forcedTags := params.tags, userId := userId }

/-- A tagged node has no user; otherwise the identity is taken from the request. -/
def proposeIdentity (proposed : MachineRecord) : MachineRecord :=
  if proposed.isTagged then proposed.clearUserIdentity
  else
    match wire, authKey with
    | some wire, false =>
      (proposed.setUserIdentity proposed.userId wire.user wire.userDisplayName
        wire.userProfilePicUrl).setUserAccountMetadata wire.userProvider
        (wire.userCreatedAt.or (if wire.userId = before.userId then before.userCreatedAt else none))
    | _, _ => proposed

def proposeAuthKeyId (proposed : MachineRecord) : Except MachineAdminError MachineRecord :=
  if authKey then
    if params.authKeyId.any (· < 0) then .error (.badRequest "invalid auth key identity")
    else .ok { proposed with authKeyId := params.authKeyId }
  else if before.isTagged && !proposed.isTagged then .ok { proposed with authKeyId := none }
  else .ok { proposed with authKeyId := before.authKeyId }

/-- The user association of the node before, or the one that was loaded. -/
def keptUserAssociation (priorNative : Option NativeNodePersistence)
    (associations : NativeNodeAssociations) : Option (Option UserRecord) :=
  (priorNative.bind (·.userAssociationFor before)).or associations.user

/-- Whether the node is ephemeral, and its user association. -/
def proposeAssociations (priorNative : Option NativeNodePersistence)
    (associations : NativeNodeAssociations) (proposed : MachineRecord) :
    MachineRecord × NativeNodeAssociations :=
  if authKey then
    let ephemeral :=
      match associations.authKey with
      | some key => key.any NativeAuthKey.ephemeral
      | none => (wire.map MachineRecord.ephemeral).getD proposed.ephemeral
    let user :=
      if proposed.isTagged then some none
      else if before.isTagged then associations.user
      else keptUserAssociation before priorNative associations
    ({ proposed with ephemeral := ephemeral }, { associations with user := user })
  else
    let proposed :=
      if before.isTagged && !proposed.isTagged then { proposed with ephemeral := false } else proposed
    (if proposed.isTagged then proposed else applyLoadedUserIdentity proposed associations.user,
      associations)

/-- How the node registered and when it expires; a node that becomes tagged does not expire. -/
def proposeExpiry (proposed : MachineRecord) : MachineRecord :=
  { proposed with
    registerMethod := registerMethodFromDb params.columns.registerMethod
    expiry := if !before.isTagged && proposed.isTagged then none else params.expiry }

/-- Owner and tags under a captured key: those of the node before, or the key's tags, which are taken
unless the node has tags from the same key. -/
def capturedOwner (key : NativeAuthKey) (keyId : Int) (proposed : MachineRecord) : MachineRecord :=
  let proposed :=
    { proposed with
      forcedTags := before.forcedTags
      userId := before.userId
      user := before.user
      userDisplayName := before.userDisplayName
      userProfilePicUrl := before.userProfilePicUrl
      userProvider := before.userProvider
      userCreatedAt := before.userCreatedAt
      authKeyId := some keyId }
  if !key.tags.isEmpty && (!before.isTagged || before.authKeyId != some keyId) then
    { proposed with forcedTags := key.tags }.clearUserIdentity
  else proposed

/-- A captured key overrides owner, tags and expiry. -/
def proposeCaptured (key : NativeAuthKey) (checkedAt : Int)
    (priorNative : Option NativeNodePersistence) (associations : NativeNodeAssociations)
    (proposed : MachineRecord) :
    Except MachineAdminError (MachineRecord × NativeNodeAssociations) := do
  let keyId ← (toSigned key.id).elim (.error (.badRequest "invalid auth key identity")) .ok
  let proposed := capturedOwner before key keyId proposed
  if proposed.isTagged then
    let expiry := if !before.isTagged || before.isExpiredAt checkedAt then none else before.expiry
    return ({ proposed with expiry := expiry }, { associations with user := some none })
  else
    return (proposed, { associations with user := keptUserAssociation before priorNative associations })

def proposeKey (checkedAt : Int) (priorNative : Option NativeNodePersistence)
    (associations : NativeNodeAssociations) (proposed : MachineRecord) :
    Except MachineAdminError (MachineRecord × NativeNodeAssociations) :=
  match authKey, associations.authKey with
  | true, some (some key) => proposeCaptured before key checkedAt priorNative associations proposed
  | _, _ => .ok (proposed, associations)

end Steps

structure PreparedNativeRegistration where
  record : MachineRecord
  native : NativeNodePersistence
  registration : CachedNodeRegistration
deriving DecidableEq, Repr

/-- The columns saved from the proposed record. -/
def savedNode (before proposed : MachineRecord) (params : CreateParams)
    (node : CachedNodeSnapshot) : CachedNodeSnapshot :=
  { node with
    columns := { node.columns with
      hostInfo := some (paramsHostInfo params)
      lastSeen := some proposed.lastSeen
      userId := if proposed.isTagged then none else node.columns.userId
      tags := if before.isTagged && !proposed.isTagged then none else node.columns.tags } }

/-- The proposed record, its stored shape and the save. The clock is read when the expiry of the
node before is tested, and again for the time it was last seen. -/
def prepareCachedAuthRegistration (codec : HostCodec) (checkedAt seenAt : Int) (id : Nat)
    (before : MachineRecord) (priorNative : Option NativeNodePersistence) (params : CreateParams)
    (wire : Option MachineRecord) (authKey : Bool) (associations : NativeNodeAssociations) :
    Except MachineAdminError PreparedNativeRegistration := do
  let proposed ← proposeFields codec before params authKey
  let proposed := proposeIdentity before wire authKey proposed
  let proposed ← proposeAuthKeyId before params authKey proposed
  let (proposed, associations) :=
    proposeAssociations before wire authKey priorNative associations proposed
  let proposed := proposeExpiry before params proposed
  let (proposed, associations) ←
    proposeKey before authKey checkedAt priorNative associations proposed
  let proposed := { proposed with lastSeen := seenAt, approvedRoutes := before.approvedRoutes }
  let node ← snapshot codec id proposed priorNative
  let node := savedNode before proposed params node
  let native := (fromSnapshot proposed node priorNative).setAssociations associations
  return {
    record := proposed
    native := native
    registration :=
      { id := node.id
        columns := node.columns
        expiry := proposed.expiry
        authKey :=
          if authKey then .set proposed.authKeyId
          else if proposed.authKeyId.isNone then .set none
          else .preserve } }

/-! ## What a step keeps -/

/-- Machine key, addresses, given name and creation time are the same. -/
structure SameMachine (before after : MachineRecord) : Prop where
  machineKey : after.machineKeyHex = before.machineKeyHex
  ipv4 : after.ipv4 = before.ipv4
  ipv6 : after.ipv6 = before.ipv6
  givenName : after.hostname = before.hostname
  createdAt : after.createdAt = before.createdAt

/-- Tagged or owned by a user, but not both. -/
def MachineRecord.OwnedOnce (record : MachineRecord) : Prop :=
  record.isTagged = true → record.userId = none

section Kept

variable {codec : HostCodec} {before proposed proposed' : MachineRecord} {params : CreateParams}
variable {wire : Option MachineRecord} {authKey : Bool} {checkedAt seenAt : Int}
variable {priorNative : Option NativeNodePersistence} {associations associations' : NativeNodeAssociations}

lemma SameMachine.trans (h : SameMachine before proposed) (h' : SameMachine proposed proposed') :
    SameMachine before proposed' :=
  ⟨h'.machineKey.trans h.machineKey, h'.ipv4.trans h.ipv4, h'.ipv6.trans h.ipv6,
    h'.givenName.trans h.givenName, h'.createdAt.trans h.createdAt⟩

lemma proposeFields_same (h : proposeFields codec before params authKey = .ok proposed) :
    SameMachine before proposed := by
  obtain ⟨hostInfo, -, h⟩ := Result.bind_eq_ok.mp h
  obtain ⟨userId, -, h⟩ := Result.bind_eq_ok.mp h
  cases h
  cases authKey <;> exact ⟨rfl, rfl, rfl, rfl, rfl⟩

/-- The identity step changes nothing but the identity, and leaves no owner beside tags. -/
theorem proposeIdentity_spec (before : MachineRecord) (wire : Option MachineRecord) (authKey : Bool)
    (proposed : MachineRecord) :
    SameMachine proposed (proposeIdentity before wire authKey proposed) ∧
      (proposeIdentity before wire authKey proposed).OwnedOnce := by
  unfold proposeIdentity
  split
  · exact ⟨⟨rfl, rfl, rfl, rfl, rfl⟩, fun _ => rfl⟩
  · rename_i huntagged
    split
    · exact ⟨⟨rfl, rfl, rfl, rfl, rfl⟩, fun htagged => absurd htagged huntagged⟩
    · exact ⟨⟨rfl, rfl, rfl, rfl, rfl⟩, fun htagged => absurd htagged huntagged⟩

lemma proposeAuthKeyId_eq (h : proposeAuthKeyId before params authKey proposed = .ok proposed') :
    ∃ authKeyId, proposed' = { proposed with authKeyId := authKeyId } := by
  unfold proposeAuthKeyId at h
  split at h
  · split at h
    · cases h
    · exact ⟨_, (Except.ok.inj h).symm⟩
  · split at h <;> exact ⟨_, (Except.ok.inj h).symm⟩

lemma proposeAssociations_spec (before : MachineRecord) (wire : Option MachineRecord)
    (authKey : Bool) (priorNative : Option NativeNodePersistence)
    (associations : NativeNodeAssociations) (proposed : MachineRecord) :
    let result := proposeAssociations before wire authKey priorNative associations proposed
    SameMachine proposed result.1 ∧ result.1.forcedTags = proposed.forcedTags ∧
      result.1.userId = proposed.userId ∧ result.2.authKey = associations.authKey := by
  unfold proposeAssociations applyLoadedUserIdentity
  cases authKey with
  | true => exact ⟨⟨rfl, rfl, rfl, rfl, rfl⟩, rfl, rfl, rfl⟩
  | false =>
    simp only [Bool.false_eq_true, if_false]
    cases associations.user <;> split <;> split <;> exact ⟨⟨rfl, rfl, rfl, rfl, rfl⟩, rfl, rfl, trivial⟩

/-- The owner and tags are those of the node before, or the key's tags and no owner. -/
def KeyOwner (before : MachineRecord) (key : NativeAuthKey) (record : MachineRecord) : Prop :=
  (record.forcedTags = before.forcedTags ∧ record.userId = before.userId ∧
      record.user = before.user) ∨
    (key.tags ≠ [] ∧ record.forcedTags = key.tags ∧ record.userId = none ∧ record.user = "")

lemma capturedOwner_spec (before proposed : MachineRecord) (key : NativeAuthKey) (keyId : Int) :
    SameMachine proposed (capturedOwner before key keyId proposed) ∧
      KeyOwner before key (capturedOwner before key keyId proposed) := by
  unfold capturedOwner
  split
  · rename_i hretags
    simp only [Bool.and_eq_true, Bool.not_eq_true', List.isEmpty_eq_false_iff] at hretags
    exact ⟨⟨rfl, rfl, rfl, rfl, rfl⟩, .inr ⟨hretags.1, rfl, rfl, rfl⟩⟩
  · exact ⟨⟨rfl, rfl, rfl, rfl, rfl⟩, .inl ⟨rfl, rfl, rfl⟩⟩

lemma proposeCaptured_spec {key : NativeAuthKey}
    (h : proposeCaptured before key checkedAt priorNative associations proposed =
      .ok (proposed', associations')) :
    SameMachine proposed proposed' ∧ KeyOwner before key proposed' := by
  obtain ⟨keyId, -, h⟩ := Result.bind_eq_ok.mp h
  obtain ⟨hsame, howner⟩ := capturedOwner_spec before proposed key keyId
  simp only at h
  split at h <;> obtain ⟨rfl, -⟩ := Prod.mk.inj (Except.ok.inj h)
  · exact ⟨{ hsame with }, howner⟩
  · exact ⟨hsame, howner⟩

lemma proposeKey_cases
    (h : proposeKey before authKey checkedAt priorNative associations proposed =
      .ok (proposed', associations')) :
    (∃ key, authKey = true ∧ associations.authKey = some (some key) ∧
        proposeCaptured before key checkedAt priorNative associations proposed =
          .ok (proposed', associations')) ∨
      ((∀ key, authKey = true → associations.authKey ≠ some (some key)) ∧ proposed' = proposed) := by
  unfold proposeKey at h
  split at h
  · rename_i key hkey
    exact .inl ⟨key, rfl, hkey, h⟩
  · rename_i hnone
    refine .inr ⟨fun key hauth hkey => hnone key hauth hkey, ?_⟩
    exact (Prod.mk.inj (Except.ok.inj h)).1.symm

/-- A saved list of tags is the record's, or absent. -/
theorem snapshot_tags {id : Nat} {record : MachineRecord} {node : CachedNodeSnapshot}
    (h : snapshot codec id record priorNative = .ok node) :
    node.columns.tags = none ∨ node.columns.tags = some record.forcedTags := by
  obtain ⟨signed, -, h⟩ := Result.bind_eq_ok.mp h
  obtain ⟨hostInfo, -, h⟩ := Result.bind_eq_ok.mp h
  obtain ⟨userId, -, h⟩ := Result.bind_eq_ok.mp h
  cases h
  simp only
  split
  · exact .inl rfl
  · exact .inr rfl

end Kept

/-- Saved with tags or with a user, but not with both. -/
def ColumnsOwnedOnce (columns : NodeColumns) : Prop :=
  columns.tags.getD [] ≠ [] → columns.userId = none

open MachineRecord

section Prepared

variable {codec : HostCodec} {checkedAt seenAt : Int} {id : Nat} {before : MachineRecord}
variable {priorNative : Option NativeNodePersistence} {params : CreateParams}
variable {wire : Option MachineRecord} {authKey : Bool} {associations : NativeNodeAssociations}
variable {prepared : PreparedNativeRegistration}

/-- The steps of a registration that succeeds. -/
theorem prepareCachedAuthRegistration_steps
    (h : prepareCachedAuthRegistration codec checkedAt seenAt id before priorNative params wire authKey
      associations = .ok prepared) :
    ∃ fields keyed final associations',
      proposeFields codec before params authKey = .ok fields ∧
      proposeAuthKeyId before params authKey (proposeIdentity before wire authKey fields) =
        .ok keyed ∧
      proposeKey before authKey checkedAt priorNative
          (proposeAssociations before wire authKey priorNative associations keyed).2
          (proposeExpiry before params
            (proposeAssociations before wire authKey priorNative associations keyed).1) =
        .ok (final, associations') ∧
      prepared.record = { final with lastSeen := seenAt, approvedRoutes := before.approvedRoutes } := by
  obtain ⟨fields, hfields, h⟩ := Result.bind_eq_ok.mp h
  obtain ⟨keyed, hkeyed, h⟩ := Result.bind_eq_ok.mp h
  obtain ⟨⟨final, associations'⟩, hfinal, h⟩ := Result.bind_eq_ok.mp h
  obtain ⟨node, hnode, h⟩ := Result.bind_eq_ok.mp h
  cases h
  exact ⟨fields, keyed, final, associations', hfields, hkeyed, hfinal, rfl⟩

/-- The stored shape and the save are those of the proposed record. -/
theorem prepareCachedAuthRegistration_saved
    (h : prepareCachedAuthRegistration codec checkedAt seenAt id before priorNative params wire authKey
      associations = .ok prepared) :
    ∃ node associations',
      snapshot codec id prepared.record priorNative = .ok node ∧
      prepared.native = (fromSnapshot prepared.record
        (savedNode before prepared.record params node) priorNative).setAssociations associations' ∧
      prepared.registration.id = node.id ∧
      prepared.registration.columns = (savedNode before prepared.record params node).columns ∧
      prepared.registration.expiry = prepared.record.expiry := by
  obtain ⟨fields, -, h⟩ := Result.bind_eq_ok.mp h
  obtain ⟨keyed, -, h⟩ := Result.bind_eq_ok.mp h
  obtain ⟨⟨final, associations'⟩, -, h⟩ := Result.bind_eq_ok.mp h
  obtain ⟨node, hnode, h⟩ := Result.bind_eq_ok.mp h
  cases h
  exact ⟨node, associations', hnode, rfl, rfl, rfl, rfl⟩

/-- Owner and tags under a captured key exclude each other if they did before. -/
theorem KeyOwner.ownedOnce {record : MachineRecord} {key : NativeAuthKey}
    (h : KeyOwner before key record) (hbefore : before.OwnedOnce) : record.OwnedOnce := by
  intro htagged
  obtain ⟨htags, huser, -⟩ | ⟨-, -, huser, -⟩ := h
  · rw [huser]
    exact hbefore (by simpa only [isTagged, htags] using htagged)
  · exact huser

/-- The columns saved from a record that is owned once are, whatever shape was stored before. -/
theorem savedNode_ownedOnce {record : MachineRecord} {node : CachedNodeSnapshot}
    (h : snapshot codec id record priorNative = .ok node) :
    ColumnsOwnedOnce (savedNode before record params node).columns := by
  intro htags
  by_cases htagged : record.isTagged = true
  · exact if_pos htagged
  -- an untagged record has no tags to save
  have hnil : record.forcedTags = [] := by simpa [isTagged] using htagged
  refine absurd ?_ htags
  simp only [savedNode]
  split
  · rfl
  obtain hnone | hsome := snapshot_tags h
  · rw [hnone]
    rfl
  · rw [hsome, hnil]
    rfl

/-- The record as it is proposed before a captured key is looked at. -/
theorem proposed_beforeKey (priorNative : Option NativeNodePersistence)
    (associations : NativeNodeAssociations) {fields keyed : MachineRecord}
    (hfields : proposeFields codec before params authKey = .ok fields)
    (hkeyed : proposeAuthKeyId before params authKey (proposeIdentity before wire authKey fields) =
      .ok keyed) :
    let proposed := proposeExpiry before params
      (proposeAssociations before wire authKey priorNative associations keyed).1
    SameMachine before proposed ∧ proposed.OwnedOnce := by
  obtain ⟨hidentity, howned⟩ := proposeIdentity_spec before wire authKey fields
  obtain ⟨authKeyId, rfl⟩ := proposeAuthKeyId_eq hkeyed
  obtain ⟨hsame, htags, huser, -⟩ := proposeAssociations_spec before wire authKey priorNative
    associations { proposeIdentity before wire authKey fields with authKeyId := authKeyId }
  have hfields := (proposeFields_same hfields).trans hidentity
  refine ⟨{ hfields.trans { hsame with } with }, fun htagged => huser.trans (howned ?_)⟩
  simpa only [isTagged, proposeExpiry, htags] using htagged

/-- The record keeps machine key, addresses, creation time and approved routes, is owned once, and
under a captured key has the owner and tags that the key gives it. -/
theorem prepareCachedAuthRegistration_record (hbefore : before.OwnedOnce)
    (h : prepareCachedAuthRegistration codec checkedAt seenAt id before priorNative params wire authKey
      associations = .ok prepared) :
    SameMachine before prepared.record ∧ prepared.record.approvedRoutes = before.approvedRoutes ∧
      prepared.record.OwnedOnce ∧
      ∀ key, authKey = true → associations.authKey = some (some key) →
        KeyOwner before key prepared.record := by
  obtain ⟨fields, keyed, final, associations', hfields, hkeyed, hfinal, hrecord⟩ :=
    prepareCachedAuthRegistration_steps h
  obtain ⟨hsame, howned⟩ := proposed_beforeKey priorNative associations hfields hkeyed
  have hassociations := (proposeAssociations_spec before wire authKey priorNative associations keyed).2.2.2
  rw [hrecord]
  obtain ⟨key, hauth, hkey, hcaptured⟩ | ⟨hnone, rfl⟩ := proposeKey_cases hfinal
  · obtain ⟨hsame', howner⟩ := proposeCaptured_spec hcaptured
    refine ⟨{ hsame.trans hsame' with }, rfl, howner.ownedOnce hbefore, fun other _ hother => ?_⟩
    rw [hassociations, hother] at hkey
    cases hkey
    exact howner
  · refine ⟨{ hsame with }, rfl, howned, fun key hauth hkey => ?_⟩
    exact absurd (hassociations.trans hkey) (hnone key hauth)

lemma prepareCachedAuthRegistration_columns
    (h : prepareCachedAuthRegistration codec checkedAt seenAt id before priorNative params wire authKey
      associations = .ok prepared) : ColumnsOwnedOnce prepared.registration.columns := by
  obtain ⟨node, -, hnode, -, -, hcolumns, -⟩ := prepareCachedAuthRegistration_saved h
  rw [hcolumns]
  exact savedNode_ownedOnce hnode

end Prepared

/-- Which node a registration takes over does not depend on the order of the machine's nodes, and it is
tagged, of the given owner, or on the auth-key path the only one of a user. A registration keeps what
identifies the machine, and leaves neither the record nor the row with an owner beside tags; a captured
key leaves the owner and tags as they were or replaces them by its own tags. -/
theorem authPath_takes_over (tryTagList : NodeRow → Except MachineAdminError (List String))
    (codec : HostCodec) :
    (∀ userId allowUnscopedOwner authKeyPath taggedRegistration (rows rows' : List NodeRow),
      rows.Perm rows' →
      (selectAuthPathNode tryTagList userId allowUnscopedOwner authKeyPath taggedRegistration
        rows).toOption =
      (selectAuthPathNode tryTagList userId allowUnscopedOwner authKeyPath taggedRegistration
        rows').toOption) ∧
    (∀ userId allowUnscopedOwner authKeyPath taggedRegistration rows node,
      selectAuthPathNode tryTagList userId allowUnscopedOwner authKeyPath taggedRegistration rows =
        .ok (some node) →
      node ∈ rows ∧
        (tagsOf tryTagList node ≠ [] ∨ node.columns.userId = userId ∨
          (authKeyPath = true ∧ taggedRegistration = true ∧ userId = none ∧
            ownedRows tryTagList rows = [node]))) ∧
    ∀ checkedAt seenAt id before priorNative params wire authKey associations prepared,
      before.OwnedOnce →
      prepareCachedAuthRegistration codec checkedAt seenAt id before priorNative params wire authKey
        associations = .ok prepared →
      prepared.record.OwnedOnce ∧ ColumnsOwnedOnce prepared.registration.columns ∧
        SameMachine before prepared.record ∧
        prepared.record.approvedRoutes = before.approvedRoutes ∧
        ∀ key, authKey = true → associations.authKey = some (some key) →
          KeyOwner before key prepared.record := by
  refine ⟨fun _ _ _ _ _ _ => selectAuthPathNode_perm, fun _ _ _ _ _ _ => selectAuthPathNode_some, ?_⟩
  intro checkedAt seenAt id before priorNative params wire authKey associations prepared hbefore h
  obtain ⟨hsame, hroutes, howned, hkey⟩ := prepareCachedAuthRegistration_record hbefore h
  exact ⟨howned, prepareCachedAuthRegistration_columns h, hsame, hroutes, hkey⟩

section TakenOver

/-- Reads the stored tags as they are. -/
def plainTags (row : NodeRow) : Except MachineAdminError (List String) :=
  .ok (row.columns.tags.getD [])

/-- A codec that knows one hostinfo. -/
def plainCodec : HostCodec where
  decode _ := some {}
  encode _ := .ok "host"
  merge _ _ after := after

def ownedRow : NodeRow := { id := 1, columns := { userId := some 7 } }

def taggedRow : NodeRow := { id := 2, columns := { tags := some ["tag:a"] } }

def ownedRecord : MachineRecord :=
  { nodeId := some 1, nodeKeyHex := "n1", machineKeyHex := "m1", user := "alice", userId := some 7,
    approvedRoutes := ["10.0.0.0/8"] }

/-- A key with a tag takes the node from its user. -/
def retagged : Except MachineAdminError PreparedNativeRegistration :=
  prepareCachedAuthRegistration plainCodec 10 11 1 ownedRecord none
    { columns := { nodeKey := "nodekey:n2", hostname := "laptop", userId := some 7 }
      authKeyId := some 3 }
    none true { authKey := some (some { id := 3, tags := ["tag:a"] }) }

/-- In either order the user's own node is taken over, and the tagged key leaves it tagged and without
owner, with its machine key and routes. -/
theorem retagged_takes_over :
    (selectAuthPathNode plainTags (some 7) false true false [ownedRow, taggedRow]).toOption =
      some (some ownedRow) ∧
    (selectAuthPathNode plainTags (some 7) false true false [taggedRow, ownedRow]).toOption =
      some (some ownedRow) ∧
    ∃ prepared, retagged = .ok prepared ∧ prepared.record.forcedTags = ["tag:a"] ∧
      prepared.record.userId = none ∧ prepared.record.machineKeyHex = "m1" ∧
      prepared.record.approvedRoutes = ["10.0.0.0/8"] ∧
      ColumnsOwnedOnce prepared.registration.columns := by
  obtain ⟨hperm, -, hprepared⟩ := authPath_takes_over plainTags plainCodec
  have hselected : (selectAuthPathNode plainTags (some 7) false true false
      [ownedRow, taggedRow]).toOption = some (some ownedRow) := by decide
  have hok : retagged.isOk = true := by decide +kernel
  have htags : retagged.toOption.map (·.record.forcedTags) = some ["tag:a"] := by decide +kernel
  refine ⟨hselected, (hperm _ _ _ _ _ _ (List.Perm.swap ownedRow taggedRow [])).symm ▸ hselected, ?_⟩
  cases hretagged : retagged with
  | error error =>
    rw [hretagged] at hok
    cases hok
  | ok prepared =>
    rw [hretagged] at htags
    have htags : prepared.record.forcedTags = ["tag:a"] := Option.some.inj htags
    obtain ⟨howned, hcolumns, hsame, hroutes, -⟩ := hprepared 10 11 1 ownedRecord none _ none true _
      prepared (fun htagged => nomatch htagged) hretagged
    refine ⟨prepared, rfl, htags, howned ?_, hsame.machineKey, hroutes, hcolumns⟩
    simp [isTagged, htags]

end TakenOver

end Headscale.Node
