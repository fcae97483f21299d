import Headscale.Names.Registry

/-!
# Reloading nodes from their rows

A new node is saved as a row and then put into the registry. The name is settled twice, against the
names of the other rows and against the live names. After addresses were filled in, the nodes are
reloaded from their rows, with the names that the rows have. As long as nodes are only created, a live
name is that of its row, and so nothing is lost.

Saving a row and putting its node are steps of their own; several registrations may be between the
two. A row whose node was refused stays.
-/

namespace Headscale.Names

open Std Machine Node NodeStore Db List

/-! ## Rows -/

/-- `new_native_registration`. -/
def newNativeRegistration (params : CreateParams) : NewNodeRegistration :=
  { columns :=
      { params.columns with
        endpoints := params.columns.endpoints.filter (· ≠ [])
        givenName := sanitizeHostnameForGivenName params.columns.hostname
        userId := if params.tags = [] then params.columns.userId else none
        tags := if params.tags = [] then none else some params.tags
        approvedRoutes := none }
    authKeyId := params.authKeyId
    expiry := if params.tags = [] then params.expiry else none }

/-- `create_new_registration_on_connection`. -/
def createNewRegistration (db : Database) (node : NewNodeRegistration) :
    Option (Database × NodeRow) :=
  db.insertNode node (resolveNewNodeGivenName (db.nodes.map fun row => row.columns.givenName)
    node.columns.givenName node.columns.hostname)

/-- The node key of a row, as the registry has it. -/
def rowKey (row : NodeRow) : String := keyWithoutPrefix "nodekey:" row.columns.nodeKey

/-- The identity and the names of a row, on a record that has its other fields already. -/
def withRow (record : MachineRecord) (row : NodeRow) : MachineRecord :=
  { record with
    nodeId := toUnsigned row.id
    authKeyId := row.authKeyId
    nodeKeyHex := rowKey row
    machineKeyHex := keyWithoutPrefix "mkey:" row.columns.machineKey
    hostname := row.columns.givenName
    rawHostname := row.columns.hostname }

/-! ## Reloading -/

/-- The live hostinfo is kept, with the network information of the row where it has any. -/
def mergeHostInfo (records : NodeMap) (record : MachineRecord) : MachineRecord :=
  match records.findById (stableNodeIdForKey record.nodeKeyHex record) with
  | none => record
  | some (_, existing) =>
    { record.replaceHostInfo
        { existing.hostInfoForNode with
          netInfo := record.hostInfoForNode.netInfo.or existing.hostInfoForNode.netInfo } with
      rawHostname := record.rawHostname }

def refreshNodesAfterIpBackfill (records : NodeMap) (loaded : List MachineRecord) : NodeMap :=
  let merged := loaded.map (mergeHostInfo records)
  let refreshedIds := merged.map fun record => stableNodeIdForKey record.nodeKeyHex record
  merged.foldl (fun records record => records.insert record.nodeKeyHex record)
    (records.filter fun key node => stableNodeIdForKey key node ∉ refreshedIds)

/-! ## Registrations -/

structure Registered where
  db : Database
  records : NodeMap

inductive RegistrationStep where
  | save (params : CreateParams)
  | put (row : NodeRow) (record : MachineRecord)

/-- Nodes are created and nothing else. -/
def registrations : System Registered RegistrationStep where
  init s := s.db.nodes = [] ∧ 0 ≤ s.db.lastNode ∧ s.records = ∅
  step s step s' :=
    match step with
    | .save params => ∃ row, createNewRegistration s.db (newNativeRegistration params) =
        some (s'.db, row) ∧ s'.records = s.records
    | .put row record => row ∈ s.db.nodes ∧ s'.db = s.db ∧
        s'.records = (putNewNativeRegistration s.records (withRow record row)).2

/-- Every row has a name of its own, and every node the name of its row. -/
structure Registered.Saved (s : Registered) : Prop where
  lastNode : 0 ≤ s.db.lastNode
  bounds : ∀ row ∈ s.db.nodes, 0 < row.id ∧ row.id ≤ s.db.lastNode
  ids : (s.db.nodes.map fun row => row.id).Nodup
  names : (s.db.nodes.map fun row => row.columns.givenName).Nodup
  named : ∀ row ∈ s.db.nodes, ∃ suffix,
    row.columns.givenName = numbered (autoGivenNameBase row.columns.hostname) suffix
  live : ∀ (key : String) (record : MachineRecord), s.records[key]? = some record →
    ∃ row ∈ s.db.nodes, record.nodeId = toUnsigned row.id ∧ key = rowKey row ∧
      record.hostname = row.columns.givenName

variable {s s' : Registered}

lemma toUnsigned_of_pos {id : Int} (h : 0 < id) : toUnsigned id = some id.toNat := by
  rw [toUnsigned, if_pos (by omega)]

lemma Registered.Saved.init (h : registrations.init s) : s.Saved := by
  obtain ⟨hnodes, hlast, hrecords⟩ := h
  refine ⟨hlast, ?_, ?_, ?_, ?_, ?_⟩
  · simp [hnodes]
  · simp [hnodes]
  · simp [hnodes]
  · simp [hnodes]
  · intro key record hrecord
    rw [hrecords] at hrecord
    simp at hrecord

variable {row : NodeRow}

/-- A new row: its id is new, and so is its name. -/
theorem createNewRegistration_spec {db db' : Database} {params : CreateParams}
    (h : createNewRegistration db (newNativeRegistration params) = some (db', row)) :
    db'.nodes = db.nodes ++ [row] ∧ row.id = db.lastNode + 1 ∧ db'.lastNode = db.lastNode + 1 ∧
      row.columns.hostname = params.columns.hostname ∧
      row.columns.givenName = savedGivenName (db.nodes.map fun row => row.columns.givenName)
        params.columns.hostname := by
  unfold createNewRegistration Database.insertNode at h
  split at h <;> cases h
  exact ⟨rfl, rfl, rfl, rfl, rfl⟩

lemma Registered.Saved.save (hsaved : s.Saved) {params : CreateParams}
    (hstep : registrations.step s (.save params) s') : s'.Saved := by
  obtain ⟨row, hcreate, hrecords⟩ := hstep
  obtain ⟨hnodes, hid, hlast, hhost, hname⟩ := createNewRegistration_spec hcreate
  obtain ⟨hfree, suffix, hsuffix⟩ := savedGivenName_spec
    (s.db.nodes.map fun row => row.columns.givenName) params.columns.hostname
  rw [← hname] at hfree hsuffix
  have hne : row.columns.givenName ≠ "" := by
    rw [hsuffix]
    exact numbered_ne_empty (autoGivenNameBase_ne_empty _) suffix
  have hnonneg := hsaved.lastNode
  refine ⟨by omega, ?_, ?_, ?_, ?_, ?_⟩
  · intro other hother
    rw [hnodes, mem_append, mem_singleton] at hother
    obtain hother | rfl := hother
    · have := hsaved.bounds other hother
      omega
    · omega
  · rw [hnodes, map_append, map_singleton, ← concat_eq_append]
    refine hsaved.ids.concat fun hmem => ?_
    obtain ⟨other, hother, heq⟩ := mem_map.mp hmem
    have := hsaved.bounds other hother
    omega
  · rw [hnodes, map_append, map_singleton, ← concat_eq_append]
    exact hsaved.names.concat fun hmem => hfree (mem_filter.mpr ⟨hmem, by simpa using hne⟩)
  · intro other hother
    rw [hnodes, mem_append, mem_singleton] at hother
    obtain hother | rfl := hother
    · exact hsaved.named other hother
    · exact ⟨suffix, hhost ▸ hsuffix⟩
  · intro key record hrecord
    rw [hrecords] at hrecord
    obtain ⟨other, hother, hlive⟩ := hsaved.live key record hrecord
    exact ⟨other, by simp [hnodes, hother], hlive⟩

lemma Registered.Saved.name_ne_empty (hsaved : s.Saved) (hrow : row ∈ s.db.nodes) :
    row.columns.givenName ≠ "" := by
  obtain ⟨suffix, hsuffix⟩ := hsaved.named row hrow
  rw [hsuffix]
  exact numbered_ne_empty (autoGivenNameBase_ne_empty _) suffix

/-- Rows of one id, or of one name, are one row. -/
theorem Registered.Saved.row_of_id (hsaved : s.Saved) {row row' : NodeRow} (hrow : row ∈ s.db.nodes)
    (hrow' : row' ∈ s.db.nodes) (h : toUnsigned row.id = toUnsigned row'.id) : row = row' := by
  have hpos := (hsaved.bounds row hrow).1
  have hpos' := (hsaved.bounds row' hrow').1
  rw [toUnsigned_of_pos hpos, toUnsigned_of_pos hpos', Option.some.injEq] at h
  exact inj_on_of_nodup_map hsaved.ids hrow hrow' (by omega)

lemma Registered.Saved.row_of_name (hsaved : s.Saved) {row row' : NodeRow} (hrow : row ∈ s.db.nodes)
    (hrow' : row' ∈ s.db.nodes) (h : row.columns.givenName = row'.columns.givenName) : row = row' :=
  inj_on_of_nodup_map hsaved.names hrow hrow' h

lemma stableNodeIdForKey_of_row {key : String} {record : MachineRecord} (hpos : 0 < row.id)
    (h : record.nodeId = toUnsigned row.id) : stableNodeIdForKey key record = row.id.toNat := by
  rw [stableNodeIdForKey, h, toUnsigned_of_pos hpos]
  rfl

lemma Registered.Saved.put (hsaved : s.Saved) {record : MachineRecord}
    (hstep : registrations.step s (.put row record) s') : s'.Saved := by
  obtain ⟨hrow, hdb, hrecords⟩ := hstep
  refine ⟨hdb ▸ hsaved.lastNode, hdb ▸ hsaved.bounds, hdb ▸ hsaved.ids, hdb ▸ hsaved.names,
    hdb ▸ hsaved.named, ?_⟩
  rw [hrecords, hdb]
  obtain ⟨error, h⟩ | ⟨id, name, hid, hname, h⟩ :=
    putNewNativeRegistration_cases s.records (withRow record row)
  · rw [h]
    exact hsaved.live
  rw [h]
  have hpos := (hsaved.bounds row hrow).1
  have hid : row.id.toNat = id := Option.some.inj ((toUnsigned_of_pos hpos).symm.trans hid)
  -- the other live nodes have other rows, and so other names
  have hfree : row.columns.givenName ∉
      takenNames s.records fun key node => stableNodeIdForKey key node ≠ id := by
    intro hmem
    obtain ⟨key, node, hnode, hother, hsame⟩ := mem_takenNames.mp hmem
    obtain ⟨row', hrow', hnodeId, -, hnodeName⟩ := hsaved.live key node hnode
    obtain rfl := hsaved.row_of_name hrow' hrow (hnodeName.symm.trans hsame)
    rw [stableNodeIdForKey_of_row hpos hnodeId] at hother
    simp [hid] at hother
  have hname : name = row.columns.givenName := by
    rw [hname]
    change resolveGivenName (if row.columns.givenName = "" then "node" else row.columns.givenName) _ = _
    rw [if_neg (hsaved.name_ne_empty hrow), resolveGivenName_of_free hfree]
  intro key node hnode
  obtain ⟨rfl, rfl⟩ | ⟨-, hnode⟩ := TreeMap.getElem?_of_insert hnode
  · exact ⟨row, hrow, rfl, rfl, hname⟩
  · rw [ExtTreeMap.getElem?_filter', Option.filter_eq_some_iff] at hnode
    exact hsaved.live key node hnode.1

lemma Registered.Saved.step (hsaved : s.Saved) {step : RegistrationStep}
    (hstep : registrations.step s step s') : s'.Saved := by
  cases step with
  | save params => exact hsaved.save hstep
  | put row record => exact hsaved.put hstep

/-! ## What is reloaded -/

lemma mergeHostInfo_fields (records : NodeMap) (record : MachineRecord) :
    (mergeHostInfo records record).nodeId = record.nodeId ∧
      (mergeHostInfo records record).nodeKeyHex = record.nodeKeyHex ∧
      (mergeHostInfo records record).hostname = record.hostname := by
  unfold mergeHostInfo
  split
  · exact ⟨rfl, rfl, rfl⟩
  · exact ⟨rfl, rfl, rfl⟩

/-- The last of the records with a key, and what was there before if there is none. -/
theorem getElem?_foldl_insert (loaded : List MachineRecord) (records : NodeMap) (key : String) :
    (loaded.foldl (fun records record => records.insert record.nodeKeyHex record) records)[key]? =
      (loaded.reverse.find? fun record => record.nodeKeyHex = key).or records[key]? := by
  induction loaded generalizing records with
  | nil => rfl
  | cons record loaded ih =>
    rw [foldl_cons, ih, reverse_cons, find?_append, Option.or_assoc,
      ExtTreeMap.getElem?_insert]
    by_cases hkey : record.nodeKeyHex = key
    · simp [hkey]
    · simp [hkey]

/-- The rows of the live nodes. -/
def Registered.liveRows (s : Registered) : List NodeRow :=
  s.db.nodes.filter fun row => s.records.hasNode row.id.toNat

/-- The row after its addresses were filled in. -/
def fillRow (addresses : NodeRow → Option String × Option String) (row : NodeRow) : NodeRow :=
  { row with
    columns := { row.columns with ipv4 := (addresses row).1, ipv6 := (addresses row).2 } }

/-- The registry after its nodes were reloaded. The other fields of a record may be anything. -/
def Registered.reloaded (s : Registered) (addresses : NodeRow → Option String × Option String)
    (rest : NodeRow → MachineRecord) : NodeMap :=
  refreshNodesAfterIpBackfill s.records
    (s.liveRows.map fun row => withRow (rest row) (fillRow addresses row))

/-- The record is that of the row. -/
structure OfRow (row : NodeRow) (key : String) (record : MachineRecord) : Prop where
  nodeId : record.nodeId = toUnsigned row.id
  key : key = rowKey row
  name : record.hostname = row.columns.givenName

section Reloaded

variable (hsaved : s.Saved) {addresses : NodeRow → Option String × Option String}
  {rest : NodeRow → MachineRecord}

include hsaved

lemma Registered.Saved.liveRow {key : String} {record : MachineRecord}
    (h : s.records[key]? = some record) : ∃ row ∈ s.liveRows, OfRow row key record := by
  obtain ⟨row, hrow, hid, hkey, hname⟩ := hsaved.live key record h
  refine ⟨row, mem_filter.mpr ⟨hrow, NodeMap.hasNode_iff.mpr ⟨key, record, h, ?_⟩⟩, hid, hkey, hname⟩
  exact stableNodeIdForKey_of_row (hsaved.bounds row hrow).1 hid

/-- A row of a live node is known by its key. -/
theorem Registered.Saved.liveRow_of_key {row row' : NodeRow} (hrow : row ∈ s.liveRows)
    (hrow' : row' ∈ s.liveRows) (hkey : rowKey row = rowKey row') : row = row' := by
  have hnode : ∀ {row}, row ∈ s.liveRows →
      ∃ record, s.records[rowKey row]? = some record ∧ record.nodeId = toUnsigned row.id := by
    intro row hrow
    obtain ⟨hmem, hlive⟩ := mem_filter.mp hrow
    obtain ⟨key, record, hrecord, hid⟩ := NodeMap.hasNode_iff.mp hlive
    obtain ⟨found, hfound, hnodeId, hkey, -⟩ := hsaved.live key record hrecord
    have hpos := (hsaved.bounds row hmem).1
    rw [stableNodeIdForKey_of_row (hsaved.bounds found hfound).1 hnodeId] at hid
    have hsame : toUnsigned found.id = toUnsigned row.id := by
      rw [toUnsigned_of_pos (hsaved.bounds found hfound).1, toUnsigned_of_pos hpos, hid]
    obtain rfl := hsaved.row_of_id hfound hmem hsame
    exact ⟨record, hkey ▸ hrecord, hnodeId⟩
  obtain ⟨record, hrecord, hid⟩ := hnode hrow
  obtain ⟨record', hrecord', hid'⟩ := hnode hrow'
  rw [← hkey, hrecord] at hrecord'
  cases hrecord'
  exact hsaved.row_of_id (mem_filter.mp hrow).1 (mem_filter.mp hrow').1
    (hid.symm.trans hid')

/-- What is found in the registry is the record of a live row. -/
theorem Registered.Saved.ofRow_of_reloaded {key : String} {record : MachineRecord}
    (h : (s.reloaded addresses rest)[key]? = some record) :
    ∃ row ∈ s.liveRows, OfRow row key record := by
  unfold Registered.reloaded refreshNodesAfterIpBackfill at h
  rw [getElem?_foldl_insert, Option.or_eq_some_iff] at h
  obtain hfound | ⟨-, hkept⟩ := h
  · have hmem := mem_of_find?_eq_some hfound
    have hkey := find?_some hfound
    simp only [mem_reverse, List.map_map, mem_map] at hmem
    obtain ⟨row, hrow, rfl⟩ := hmem
    obtain ⟨hid, hnodeKey, hname⟩ := mergeHostInfo_fields s.records
      (withRow (rest row) (fillRow addresses row))
    refine ⟨row, hrow, hid, ?_, hname⟩
    simp only [decide_eq_true_eq] at hkey
    exact hkey.symm.trans hnodeKey
  · -- every live node is reloaded, and so none is kept as it was
    rw [ExtTreeMap.getElem?_filter', Option.filter_eq_some_iff] at hkept
    obtain ⟨hrecord, hnot⟩ := hkept
    obtain ⟨row, hrow, hofRow⟩ := hsaved.liveRow hrecord
    have hpos := (hsaved.bounds row (mem_filter.mp hrow).1).1
    refine absurd ?_ (of_decide_eq_true hnot)
    simp only [List.map_map, mem_map]
    refine ⟨row, hrow, ?_⟩
    rw [stableNodeIdForKey_of_row hpos hofRow.nodeId]
    exact stableNodeIdForKey_of_row hpos (mergeHostInfo_fields s.records
      (withRow (rest row) (fillRow addresses row))).1

lemma Registered.Saved.exists_reloaded {row : NodeRow} (hrow : row ∈ s.liveRows) :
    ∃ record, (s.reloaded addresses rest)[rowKey row]? = some record ∧
      OfRow row (rowKey row) record := by
  have hfound : ((s.reloaded addresses rest)[rowKey row]?).isSome = true := by
    unfold Registered.reloaded refreshNodesAfterIpBackfill
    rw [getElem?_foldl_insert, Option.isSome_or, Bool.or_eq_true, find?_isSome]
    refine .inl ⟨mergeHostInfo s.records (withRow (rest row) (fillRow addresses row)), ?_, ?_⟩
    · simp only [mem_reverse, List.map_map, mem_map]
      exact ⟨row, hrow, rfl⟩
    · exact decide_eq_true (mergeHostInfo_fields s.records _).2.1
  obtain ⟨record, hrecord⟩ := Option.isSome_iff_exists.mp hfound
  obtain ⟨row', hrow', hofRow⟩ := hsaved.ofRow_of_reloaded hrecord
  obtain rfl := hsaved.liveRow_of_key hrow hrow' hofRow.key
  exact ⟨record, hrecord, hofRow⟩

end Reloaded

/-! ## Results -/

/-- A registration of the host name `a`. -/
def paramsA (nodeKey : String) : CreateParams :=
  { columns := { nodeKey := nodeKey, hostname := "a" } }

def rowA (id : Int) (nodeKey givenName : String) : NodeRow :=
  { id := id
    columns := { (newNativeRegistration (paramsA nodeKey)).columns with givenName := givenName } }

/-- Two nodes of one host name. -/
def bothA : Registered :=
  { db := { nodes := [rowA 1 "nodekey:01" "a", rowA 2 "nodekey:02" "a-1"], lastNode := 2 }
    records := ((∅ : NodeMap).insert "01" (withRow {} (rowA 1 "nodekey:01" "a"))).insert "02"
      (withRow {} (rowA 2 "nodekey:02" "a-1")) }

lemma reachable_bothA : registrations.Reachable bothA := by
  have hinit : registrations.init ⟨{}, ∅⟩ := ⟨rfl, by decide, rfl⟩
  have hfirst : registrations.step ⟨{}, ∅⟩ (.save (paramsA "nodekey:01"))
      ⟨{ nodes := [rowA 1 "nodekey:01" "a"], lastNode := 1 }, ∅⟩ :=
    ⟨rowA 1 "nodekey:01" "a", by decide +kernel, rfl⟩
  have hsecond : registrations.step ⟨{ nodes := [rowA 1 "nodekey:01" "a"], lastNode := 1 }, ∅⟩
      (.save (paramsA "nodekey:02")) ⟨bothA.db, ∅⟩ :=
    ⟨rowA 2 "nodekey:02" "a-1", by decide +kernel, rfl⟩
  have hput : registrations.step ⟨bothA.db, ∅⟩ (.put (rowA 1 "nodekey:01" "a") {})
      ⟨bothA.db, (∅ : NodeMap).insert "01" (withRow {} (rowA 1 "nodekey:01" "a"))⟩ :=
    ⟨by decide, rfl, by decide +kernel⟩
  have hput' : registrations.step
      ⟨bothA.db, (∅ : NodeMap).insert "01" (withRow {} (rowA 1 "nodekey:01" "a"))⟩
      (.put (rowA 2 "nodekey:02" "a-1") {}) bothA :=
    ⟨by decide, rfl, by decide +kernel⟩
  exact .step (.step (.step (.step (.init hinit) hfirst trivial) hsecond trivial) hput trivial) hput'
    trivial

end Headscale.Names
