import Headscale.Db.Rows
import Headscale.Lib.Collection

/-!
# Committing an auth-key registration

A registration captures the key row by an earlier read, checks the captured copy, and then saves the
node and claims a one-shot key in one transaction. The database may refuse any statement of the
transaction, or its commit, and then nothing is written. The captured used mark is set as soon as the
claim's statement succeeds and stays set when the commit fails.
-/

namespace Headscale.Db

open Collection

/-! ## Errors -/

inductive UseError where
  | notFound
  | expired
  | alreadyUsed
deriving DecidableEq, Repr

inductive RegistrationError where
  | credential (error : UseError)
  | conflict
  | savingNode
  | updatingUsed
  | database
deriving DecidableEq, Repr

/-- The statements that the database refuses for reasons of its own. -/
structure Refusals where
  beginning : Bool := false
  saving : Bool := false
  claiming : Bool := false
  committing : Bool := false
deriving DecidableEq, Repr

/-! ## The captured key -/

/-- The key as the authenticated read found it, with the registration's own used mark. -/
structure CapturedAuthKey where
  id : Int
  reusable : Bool
  used : Bool
deriving DecidableEq, Repr

def captureVerifiedKey (row : PreauthKeyRow) : CapturedAuthKey :=
  { id := row.id, reusable := row.reusable, used := row.used }

/-- The claim has nothing to do. -/
def CapturedAuthKey.skipsClaim (key : CapturedAuthKey) (fresh : Bool) : Bool :=
  key.reusable || (!fresh && key.used)

def claimCapturedSqlite (refused : Bool) (db : Database) (key : CapturedAuthKey) (fresh : Bool) :
    Except RegistrationError (Database × CapturedAuthKey) :=
  if key.skipsClaim fresh then .ok (db, key)
  else if refused then .error .updatingUsed
  else
    let changed := db.markUsed key.id
    if changed.2 = 0 then .error (.credential .alreadyUsed)
    else .ok (changed.1, { key with used := true })

/-- What a transaction leaves: the new database or an error, and the captured key. -/
abbrev Outcome := Except RegistrationError Database × CapturedAuthKey

/-- A registration's transaction: the node is saved, the key claimed, and both committed. -/
def transact (refusals : Refusals) (saved : Except RegistrationError Database)
    (key : CapturedAuthKey) (fresh : Bool) : Outcome :=
  if refusals.beginning then (.error .savingNode, key)
  else
    match saved with
    | .error error => (.error error, key)
    | .ok db =>
      if refusals.saving then (.error .savingNode, key)
      else
        match claimCapturedSqlite refusals.claiming db key fresh with
        | .error error => (.error error, key)
        | .ok (db, key) => if refusals.committing then (.error .database, key) else (.ok db, key)

variable {saved : Except RegistrationError Database} {fresh : Bool} {db' : Database}

/-- A transaction that commits has saved, and has claimed the key unless the claim was skipped. -/
theorem transact_ok {refusals : Refusals} {key key' : CapturedAuthKey}
    (h : transact refusals saved key fresh = (.ok db', key')) :
    ∃ db, saved = .ok db ∧
      ((key.skipsClaim fresh = true ∧ db' = db) ∨
        (key.skipsClaim fresh = false ∧ (db.markUsed key.id).2 ≠ 0 ∧
          db' = (db.markUsed key.id).1)) := by
  unfold transact at h
  split at h
  · cases h
  cases hsaved : saved with
  | error error =>
    simp only [hsaved] at h
    cases h
  | ok db =>
    simp only [hsaved] at h
    refine ⟨db, rfl, ?_⟩
    split at h
    · cases h
    unfold claimCapturedSqlite at h
    by_cases hskips : key.skipsClaim fresh = true
    · rw [if_pos hskips] at h
      simp only at h
      split at h
      · cases h
      · exact .inl ⟨hskips, (Except.ok.inj (Prod.mk.inj h).1).symm⟩
    · rw [if_neg hskips] at h
      by_cases hrefused : refusals.claiming = true
      · rw [if_pos hrefused] at h
        cases h
      rw [if_neg hrefused] at h
      by_cases hnone : (db.markUsed key.id).2 = 0
      · rw [if_pos hnone] at h
        cases h
      rw [if_neg hnone] at h
      simp only at h
      split at h
      · cases h
      · exact .inr ⟨Bool.eq_false_iff.mpr hskips, hnone,
          (Except.ok.inj (Prod.mk.inj h).1).symm⟩

/-- A transaction that commits leaves the nodes that were saved. -/
theorem transact_nodes {refusals : Refusals} {key : CapturedAuthKey}
    (h : (transact refusals saved key fresh).1 = .ok db') :
    ∃ db, saved = .ok db ∧ db'.nodes = db.nodes := by
  obtain ⟨db, hsaved, ⟨-, rfl⟩ | ⟨-, -, rfl⟩⟩ := transact_ok (Prod.ext h rfl)
  · exact ⟨_, hsaved, rfl⟩
  · exact ⟨db, hsaved, rfl⟩

/-- A save that a constraint refuses. -/
def savingNode (saved : Option Database) : Except RegistrationError Database :=
  match saved with
  | some db => .ok db
  | none => .error .savingNode

/-! ## Saves -/

/-- Saves the captured key before the node that refers to it; the row of a deleted key is inserted
again, with the captured used mark. -/
def saveSqliteKey (db : Database) (material : PreauthKeyRow) (key : CapturedAuthKey) :
    Database × PreauthKeyRow :=
  db.insertKey { material with
    reusable := key.reusable
    used := key.used
    key := some (material.key.getD "")
    keyPrefix := some (material.keyPrefix.getD "") }

def createNewRegistrationWithAssociations (db : Database) (node : NewNodeRegistration)
    (material : PreauthKeyRow) (key : CapturedAuthKey) (givenName : String) :
    Option (Database × NodeRow) :=
  let saved := saveSqliteKey db material key
  saved.1.insertNode { node with authKeyId := some saved.2.id } givenName

/-- The node columns a parameter-based save writes. -/
structure CreateParams where
  columns : NodeColumns
  tags : List String := []
  authKeyId : Option Int := none
  expiry : Option Int := none
deriving DecidableEq, Repr

/-- Sorted tags without repetitions. A tagged node has no user. -/
def CreateParams.stored (params : CreateParams) (givenName : String) : NodeColumns :=
  let tags := sortDedup params.tags
  { params.columns with
    givenName := givenName
    tags := some tags
    userId := if tags = [] then params.columns.userId else none }

def updateFromAuthPath (db : Database) (id : Int) (params : CreateParams) (givenName : String) :
    Option Database :=
  if db.nodes.any fun row => row.id = id then
    db.updateNode id fun row =>
      { row with
        columns := params.stored givenName
        authKeyId := params.authKeyId
        expiry := params.expiry }
  else none

/-! ## Checks -/

/-- The node's authorization is what it was when the caller read it. -/
def unchangedAuthorization (before current : NodeRow) : Bool :=
  before.columns.machineKey = current.columns.machineKey ∧
    before.columns.nodeKey = current.columns.nodeKey ∧
    before.columns.userId = current.columns.userId ∧
    before.columns.tags.getD [] = current.columns.tags.getD [] ∧
    before.authKeyId = current.authKeyId ∧ before.expiry = current.expiry

def validateKeyBinding (key : PreauthKeyRow) (params : CreateParams) :
    Except RegistrationError Unit :=
  if params.authKeyId ≠ some key.id then .error (.credential .notFound)
  else if params.tags = [] ∧ (params.columns.userId = none ∨ params.columns.userId ≠ key.userId) then
    .error (.credential .notFound)
  else .ok ()

/-- A new node, a node that changes its keys, an expired one and one that changes its tags by the key
need a key that is still valid. -/
def needsFreshKey (current : Option NodeRow) (key : PreauthKeyRow) (params : CreateParams)
    (requireFresh : Bool) (now : Int) : Bool :=
  requireFresh ||
    match current with
    | none => true
    | some node =>
      let tagged := node.columns.tags.getD [] ≠ []
      node.columns.nodeKey ≠ params.columns.nodeKey ∨
        node.columns.machineKey ≠ params.columns.machineKey ∨
        (¬ tagged ∧ nodeTimestampIsExpired node.expiry now) ∨
        (key.tags ≠ [] ∧ (¬ tagged ∨ node.authKeyId ≠ some key.id))

/-- The proposed tags are those of the key, or the node's own where the key does not retag it. -/
def validateProposedTags (current : Option NodeRow) (key : PreauthKeyRow) (params : CreateParams) :
    Except RegistrationError Unit :=
  let expected :=
    match current with
    | some node =>
      let tags := node.columns.tags.getD []
      if key.tags = [] ∨ (tags ≠ [] ∧ node.authKeyId = some key.id) then tags else key.tags
    | none => key.tags
  if sortDedup expected ≠ sortDedup params.tags ∨ (params.tags ≠ [] ∧ params.columns.userId ≠ none) then
    .error .conflict
  else .ok ()

def validateLiveKey (key : PreauthKeyRow) (now : Int) : Except RegistrationError Unit :=
  if key.isExpiredAt now then .error (.credential .expired)
  else if key.isUsed then .error (.credential .alreadyUsed)
  else .ok ()

/-- The checks of a commit on the captured row; the result says whether a fresh key was needed. -/
def validateCapturedRegistrationKey (prior : Option NodeRow) (key : PreauthKeyRow)
    (params : CreateParams) (requireFresh : Bool) (now : Int) : Except RegistrationError Bool := do
  validateKeyBinding key params
  validateProposedTags prior key params
  let fresh := needsFreshKey prior key params requireFresh now
  if fresh then validateLiveKey key now
  return fresh

/-! ## Commits -/

/-- The node columns, tags, key and expiry as parameters. -/
def CachedNodeRegistration.params (registration : CachedNodeRegistration) : CreateParams :=
  { columns := registration.columns
    tags := registration.columns.tags.getD []
    authKeyId :=
      match registration.authKey with
      | .preserve => none
      | .set id => id }

@[inherit_doc CachedNodeRegistration.params]
def NewNodeRegistration.params (node : NewNodeRegistration) : CreateParams :=
  { columns := node.columns
    tags := node.columns.tags.getD []
    authKeyId := node.authKeyId }

section Commits

variable (refusals : Refusals) (db : Database) (key : CapturedAuthKey)

def commitCachedSqliteWithKey (prior : NodeRow) (registration : CachedNodeRegistration) : Outcome :=
  if registration.id ≠ prior.id ∨ registration.authKey ≠ .set (some key.id) then
    (.error .conflict, key)
  else transact refusals (savingNode (saveCachedRegistration db registration)) key false

def commitNewSqliteWithKey (node : NewNodeRegistration) (givenName : String) : Outcome :=
  if node.authKeyId ≠ some key.id then (.error .conflict, key)
  else transact refusals (savingNode ((db.insertNode node givenName).map Prod.fst)) key true

/-- The claim is on the key the saved node refers to. -/
def commitNewSqliteWithAssociations (node : NewNodeRegistration) (material : PreauthKeyRow)
    (givenName : String) : Outcome :=
  if node.authKeyId ≠ some key.id ∨ material.id ≠ key.id then (.error .conflict, key)
  else
    transact refusals
      (savingNode ((createNewRegistrationWithAssociations db node material key givenName).map Prod.fst))
      { key with id := (saveSqliteKey db material key).2.id } true

/-- An existing node must not have changed its authorization since the caller read it. Whether the key
has to be fresh is decided again, on the captured copy. -/
def commitSqliteWithCapturedAssociations (expected : Option NodeRow) (params : CreateParams)
    (material : PreauthKeyRow) (requireFresh : Bool) (now : Int) (givenName : String) : Outcome :=
  if params.authKeyId ≠ some key.id ∨ material.id ≠ key.id then (.error .conflict, key)
  else
    let captured := { material with reusable := key.reusable, used := key.used }
    let fresh := needsFreshKey expected captured params requireFresh now
    match expected with
    | some expected =>
      let saved :=
        match db.nodes.find? fun row => row.id = expected.id with
        | none => .error .conflict
        | some current =>
          if unchangedAuthorization expected current then
            savingNode (updateFromAuthPath db current.id params givenName)
          else .error .conflict
      transact refusals saved key fresh
    | none =>
      let node : NewNodeRegistration :=
        { columns := params.stored givenName, authKeyId := params.authKeyId, expiry := params.expiry }
      transact refusals
        (savingNode
          ((createNewRegistrationWithAssociations db node material key givenName).map Prod.fst))
        { key with id := (saveSqliteKey db material key).2.id } fresh

/-- The claim is as fresh as the checks found necessary. -/
def commitCachedSqlite (prior : NodeRow) (registration : CachedNodeRegistration) (fresh : Bool) :
    Outcome :=
  if registration.id ≠ prior.id then (.error .conflict, key)
  else transact refusals (savingNode (saveCachedRegistration db registration)) key fresh

end Commits

end Headscale.Db
