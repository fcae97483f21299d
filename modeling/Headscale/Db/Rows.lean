import Mathlib.Data.String.Basic

/-!
# Rows and statements

The rows of pre-auth keys and nodes, and the SQL statements that the registration code runs on them.
A statement either succeeds on the whole table or is refused by a constraint. Timestamps are instants
in nanoseconds; the creation and update times of rows, which nothing here reads, are left out.
-/

namespace Headscale.Db

/-! ## Rows -/

/-- A row of `pre_auth_keys`. -/
structure PreauthKeyRow where
  id : Int
  key : Option String := none
  keyPrefix : Option String := none
  hash : Option String := none
  userId : Option Int := none
  reusable : Bool := false
  ephemeral : Bool := false
  used : Bool := false
  tags : List String := []
  expiration : Option Int := none
deriving DecidableEq, Repr

namespace PreauthKeyRow

def isExpiredAt (row : PreauthKeyRow) (now : Int) : Bool := row.expiration.any (· < now)

/-- A one-shot key that was redeemed. -/
def isUsed (row : PreauthKeyRow) : Bool := !row.reusable && row.used

end PreauthKeyRow

/-- The columns that every save of a cached node writes. A list that Go holds as nil is absent. -/
structure NodeColumns where
  machineKey : String := ""
  nodeKey : String := ""
  discoKey : String := ""
  endpoints : Option (List String) := none
  hostInfo : Option String := none
  ipv4 : Option String := none
  ipv6 : Option String := none
  hostname : String := ""
  givenName : String := ""
  userId : Option Int := none
  registerMethod : String := ""
  tags : Option (List String) := none
  lastSeen : Option Int := none
  approvedRoutes : Option (List String) := none
deriving DecidableEq, Repr

/-- A row of `nodes`. -/
structure NodeRow where
  id : Int
  columns : NodeColumns := {}
  authKeyId : Option Int := none
  expiry : Option Int := none
deriving DecidableEq, Repr

/-- The instant Go prints for a zero time. -/
def goZeroTime : Int := -62135596800 * 1000000000

/-- A node's expiry has passed; Go's zero time means none. -/
def nodeTimestampIsExpired (expiry : Option Int) (now : Int) : Bool :=
  expiry.any fun time => time ≠ goZeroTime ∧ time < now

inductive RegistrationAuthKey where
  | preserve
  | set (id : Option Int)
deriving DecidableEq, Repr

/-- A save of an existing node from the live store. -/
structure CachedNodeRegistration where
  id : Int
  columns : NodeColumns
  expiry : Option Int := none
  authKey : RegistrationAuthKey := .preserve
deriving DecidableEq, Repr

/-- A node to be inserted. -/
structure NewNodeRegistration where
  columns : NodeColumns
  authKeyId : Option Int := none
  expiry : Option Int := none
deriving DecidableEq, Repr

/-- Both tables, with the last ids that were assigned. -/
structure Database where
  keys : List PreauthKeyRow := []
  nodes : List NodeRow := []
  lastKey : Int := 0
  lastNode : Int := 0
deriving DecidableEq, Repr

/-! ## Statements -/

namespace Database

def hasKey (db : Database) (id : Int) : Bool := db.keys.any fun row => row.id = id

/-- A node may only refer to a key that exists. -/
def keyRefers (db : Database) (id : Option Int) : Bool := id.all db.hasKey

/-- `UPDATE pre_auth_keys SET used = true WHERE id = ? AND used = false`, with the number of rows
it changed. -/
def markUsed (db : Database) (id : Int) : Database × Nat :=
  ({ db with
    keys := db.keys.map fun row =>
      if row.id = id ∧ row.used = false then { row with used := true } else row },
    (db.keys.filter fun row => row.id = id ∧ row.used = false).length)

/-- A row with the same id, or with the same prefix unless that is empty. -/
def keyConflicts (db : Database) (row : PreauthKeyRow) : Bool :=
  db.keys.any fun other => (row.id ≠ 0 ∧ other.id = row.id) ∨
    (row.keyPrefix.any (· ≠ "") ∧ other.keyPrefix = row.keyPrefix)

/-- `INSERT INTO pre_auth_keys … ON CONFLICT DO NOTHING`; a key without an id is given one. -/
def insertKey (db : Database) (row : PreauthKeyRow) : Database × PreauthKeyRow :=
  if db.keyConflicts row then (db, row)
  else
    let row := if row.id = 0 then { row with id := db.lastKey + 1 } else row
    ({ db with keys := db.keys ++ [row], lastKey := max db.lastKey row.id }, row)

/-- `INSERT INTO nodes …`; the given name is the one the statement before settled on. -/
def insertNode (db : Database) (node : NewNodeRegistration) (givenName : String) :
    Option (Database × NodeRow) :=
  if db.keyRefers node.authKeyId then
    let row : NodeRow :=
      { id := db.lastNode + 1
        columns := { node.columns with givenName := givenName }
        authKeyId := node.authKeyId
        expiry := node.expiry }
    some ({ db with nodes := db.nodes ++ [row], lastNode := db.lastNode + 1 }, row)
  else none

/-- `UPDATE nodes SET … WHERE id = ?`. A missing row is not an error. -/
def updateNode (db : Database) (id : Int) (f : NodeRow → NodeRow) : Option Database :=
  if db.nodes.all fun row => row.id ≠ id ∨ (f row).authKeyId = row.authKeyId ∨
      db.keyRefers (f row).authKeyId then
    some { db with nodes := db.nodes.map fun row => if row.id = id then f row else row }
  else none

/-- Clears the references of nodes to the key and deletes its row. -/
def destroyKey (db : Database) (id : Int) : Database :=
  { db with
    nodes := db.nodes.map fun row =>
      if row.authKeyId = some id then { row with authKeyId := none } else row
    keys := db.keys.filter fun row => row.id ≠ id }

lemma hasKey_iff {db : Database} {id : Int} :
    db.hasKey id = true ↔ ∃ row ∈ db.keys, row.id = id := by
  simp [hasKey]

variable {db db' : Database}

lemma updateNode_keys {id : Int} {f : NodeRow → NodeRow} (h : db.updateNode id f = some db') :
    db'.keys = db.keys := by
  unfold updateNode at h
  split at h <;> cases h
  rfl

def node (db : Database) (id : Int) : Option NodeRow := db.nodes.find? fun row => row.id = id

lemma updateNode_node {id : Int} {f : NodeRow → NodeRow} (hf : ∀ row, (f row).id = row.id)
    (h : db.updateNode id f = some db') : db'.node id = (db.node id).map f := by
  unfold updateNode at h
  split at h <;> cases h
  simp only [node, List.find?_map]
  have hpred : ((fun row : NodeRow => decide (row.id = id)) ∘
      fun row => if row.id = id then f row else row) = fun row => decide (row.id = id) := by
    funext row
    by_cases hid : row.id = id
    · simp [hid, hf]
    · simp [hid]
  rw [hpred]
  cases hfind : db.nodes.find? fun row => decide (row.id = id) with
  | none => rfl
  | some row =>
    have hid := List.find?_some hfind
    simp only [decide_eq_true_eq] at hid
    simp [hid]

lemma insertNode_eq {node : NewNodeRegistration} {givenName : String} {row : NodeRow}
    (h : db.insertNode node givenName = some (db', row)) :
    db.keyRefers node.authKeyId = true ∧ db'.keys = db.keys ∧ db'.nodes = db.nodes ++ [row] ∧
      row.authKeyId = node.authKeyId := by
  simp only [insertNode] at h
  split at h <;> cases h
  rename_i hrefers
  exact ⟨hrefers, rfl, rfl, rfl⟩

end Database

/-- Writes the columns of a registration; the key of the node is written if it is set. -/
def saveCachedRegistration (db : Database) (registration : CachedNodeRegistration) :
    Option Database :=
  db.updateNode registration.id fun row =>
    { row with
      columns := registration.columns
      expiry := registration.expiry
      authKeyId :=
        match registration.authKey with
        | .preserve => row.authKeyId
        | .set id => id }

/-- Writes the columns of a cached node, and neither its expiry nor its key. -/
def saveCachedNodeSnapshot (db : Database) (id : Int) (columns : NodeColumns) : Option Database :=
  db.updateNode id fun row => { row with columns := columns }

/-- Writes the expiry alone. -/
def saveCachedNodeExpiry (db : Database) (id : Int) (expiry : Option Int) : Option Database :=
  db.updateNode id fun row => { row with expiry := expiry }

variable {db db' : Database}

lemma saveCachedRegistration_node {registration : CachedNodeRegistration}
    (h : saveCachedRegistration db registration = some db') :
    ∃ authKeyId : Option Int → Option Int, db'.node registration.id =
      (db.node registration.id).map fun row =>
        { row with
          columns := registration.columns
          expiry := registration.expiry
          authKeyId := authKeyId row.authKeyId } := by
  refine ⟨fun current => match registration.authKey with
    | .preserve => current
    | .set id => id, Database.updateNode_node ?_ h⟩
  exact fun _ => rfl

lemma saveCachedNodeSnapshot_node {id : Int} {columns : NodeColumns}
    (h : saveCachedNodeSnapshot db id columns = some db') :
    db'.node id = (db.node id).map fun row => { row with columns := columns } := by
  refine Database.updateNode_node ?_ h
  exact fun _ => rfl

lemma saveCachedNodeExpiry_node {id : Int} {expiry : Option Int}
    (h : saveCachedNodeExpiry db id expiry = some db') :
    db'.node id = (db.node id).map fun row => { row with expiry := expiry } := by
  refine Database.updateNode_node ?_ h
  exact fun _ => rfl

end Headscale.Db
