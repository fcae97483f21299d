import Headscale.Names.Label
import Headscale.Lib.Machine
import Headscale.Node.Persistence
import Headscale.NodeStore.Sessions

/-!
# Names in the registry

Six writers of the node store give names to nodes: new registrations with and without a database,
repeated registrations, admin creation, renames, and map requests that report another host name. Each
runs on the whole map at once, and each leaves out other nodes when it looks for a free name: the node
of the same id, of the same key, or of the key that is replaced. Whatever they leave out is gone
afterwards, and so the names stay distinct.

The maps beside the records (hostinfo snapshots, stored shapes, pending publications) do not bear on
names and are left out.
-/

namespace Headscale.Names

open Std Machine Node NodeStore Option ExtTreeMap

/-! ## Writers -/

inductive GivenNameError where
  | label (error : LabelError)
  | noName
  | tooLong
deriving DecidableEq, Repr

/-- The message of `validate_given_name` in the registry, with Go's quoting. -/
def GivenNameError.text (quote : String → String) (quoteRune : Char → String)
    (givenName baseDomain : String) : GivenNameError → String
  | .label error =>
    "renaming node: " ++ quote givenName ++ " is not a valid DNS label: " ++
      error.text quote quoteRune givenName
  | .noName => "renaming node: creating valid FQDN: node has no given name"
  | .tooLong =>
    "renaming node: creating valid FQDN (" ++
      (if baseDomain = "" then givenName else givenName ++ "." ++ baseDomain ++ ".") ++
      "): hostname too long, cannot accept more than 255 ASCII chars"

def validateFqdn (givenName baseDomain : String) : Except GivenNameError Unit :=
  if givenName = "" then .error .noName
  else
    let suffix := if baseDomain = "" then 0 else (Text.utf8 baseDomain.toList).length + 2
    if 255 < (Text.utf8 givenName.toList).length + suffix then .error .tooLong else .ok ()

def validateGivenName (givenName baseDomain : String) : Except GivenNameError Unit :=
  match validLabel givenName with
  | .error error => .error (.label error)
  | .ok () => validateFqdn givenName baseDomain

/-- The names of the nodes that are not left out. -/
def takenNames (records : NodeMap) (keep : String → MachineRecord → Bool) : List String :=
  (records.toList.filter fun entry => keep entry.1 entry.2).map fun entry => entry.2.hostname

/-- `put_new_native_registration`. The record has the name of its row. -/
def putNewNativeRegistration (records : NodeMap) (record : MachineRecord) :
    Except String MachineRecord × NodeMap :=
  match record.nodeId.filter (0 < ·) with
  | none => (.error "invalid new node identity", records)
  | some id =>
    if (records[record.nodeKeyHex]?).any fun existing =>
        stableNodeIdForKey existing.nodeKeyHex existing ≠ id then
      (.error "node key already exists", records)
    else
      let base := if record.hostname = "" then "node" else record.hostname
      let taken := takenNames records fun key node => stableNodeIdForKey key node ≠ id
      let named := { record with hostname := resolveGivenName base taken }
      (.ok named,
        (records.filter fun key node => stableNodeIdForKey key node ≠ id).insert named.nodeKeyHex named)

/-- `begin_native_registration`: what the request asks for is prepared from the record as it is. -/
def beginNativeRegistration (records : NodeMap) (id : Nat)
    (prepare : MachineRecord → Except MachineAdminError MachineRecord) :
    Except MachineAdminError MachineRecord × NodeMap :=
  match records.toList.filter fun entry => stableNodeIdForKey entry.1 entry.2 = id with
  | [] => (.error (.badRequest "node no longer exists in NodeStore"), records)
  | [(oldKey, before)] =>
    match prepare before with
    | .error error => (.error error, records)
    | .ok proposed =>
      if proposed.machineKeyHex ≠ before.machineKeyHex then
        (.error (.badRequest "ambiguous node identity"), records)
      else if (records[proposed.nodeKeyHex]?).any fun other =>
          stableNodeIdForKey proposed.nodeKeyHex other ≠ id then
        (.error (.badRequest "node key already exists"), records)
      else
        let after := { proposed with nodeId := some id, hostname := before.hostname }
        (.ok after, (records.erase oldKey).insert after.nodeKeyHex after)
  | _ => (.error (.badRequest "ambiguous node identity"), records)

/-- The name of a client's host name that no node has, but for those of the two keys. -/
def resolveAutoGivenName (records : NodeMap) (nodeKeyHex : String) (alsoExclude : Option String)
    (rawHostname : String) : String :=
  resolveGivenName (autoGivenNameBase rawHostname)
    (takenNames records fun key _ => key ≠ nodeKeyHex ∧ some key ≠ alsoExclude)

/-- The registration may replace the node that is under its key now. -/
def mayReplace (target record : MachineRecord) (oldId : Option Nat) : Bool :=
  oldId.isSome && target.machineKeyHex = record.machineKeyHex &&
    some (stableNodeIdForKey record.nodeKeyHex target) = oldId

/-- A node that registers again keeps its name. -/
def committedName (records : NodeMap) (previous : Option String) (existing : Option MachineRecord)
    (record : MachineRecord) : String :=
  match existing with
  | some old => old.hostname
  | none => resolveAutoGivenName records record.nodeKeyHex previous record.rawHostname

def withoutPrevious (records : NodeMap) (previous : Option String) (nodeKeyHex : String) : NodeMap :=
  match previous with
  | some key => if key ≠ nodeKeyHex then records.erase key else records
  | none => records

/-- The commit for the node under the previous key, if there is one. -/
def commitRegistration (records : NodeMap) (previous : Option String)
    (existing : Option MachineRecord) (record : MachineRecord) : Option MachineRecord × NodeMap :=
  let oldId := existing.bind fun old => previous.map fun key => stableNodeIdForKey key old
  let record := { record with nodeId := if existing.isSome then oldId else record.nodeId }
  if (records[record.nodeKeyHex]?).any fun target => !mayReplace target record oldId then
    (none, records)
  else
    let named :=
      { record with
        nodeId := some (stableNodeIdForKey record.nodeKeyHex record)
        hostname := committedName records previous existing record }
    (some named,
      (withoutPrevious records previous record.nodeKeyHex).insert record.nodeKeyHex named)

/-- `volatile_auth_registration_commit`. -/
def volatileAuthRegistrationCommit (records : NodeMap) (previous : Option String)
    (record : MachineRecord) : Option MachineRecord × NodeMap :=
  match previous with
  | none => commitRegistration records none none record
  | some key =>
    match records[key]? with
    | none => (none, records)
    | some old =>
      if old.machineKeyHex ≠ record.machineKeyHex ∨ old.createdAt ≠ record.createdAt ∨
          record.nodeId.any fun id => id ≠ stableNodeIdForKey key old then
        (none, records)
      else commitRegistration records (some key) (some old) record

/-- Why an admin may not create a node beside another one. -/
def adminConflict (record : MachineRecord) (nodeId : Nat) (entry : String × MachineRecord) :
    Option String :=
  if stableNodeIdForKey entry.1 entry.2 = nodeId then some "node ID already exists"
  else if record.ipv4.isSome ∧ entry.2.ipv4 = record.ipv4 then
    record.ipv4.map fun ip => "IPv4 address " ++ ip.toString ++ " already in use"
  else if record.ipv6.isSome ∧ entry.2.ipv6 = record.ipv6 then
    record.ipv6.map fun ip => "IPv6 address " ++ ip.toString ++ " already in use"
  else if entry.2.hostname = record.hostname then some "name already exists"
  else none

def insertVolatileAdminRecord (records : NodeMap) (record : MachineRecord) :
    Except String MachineRecord × NodeMap :=
  let nodeId := stableNodeIdForKey record.nodeKeyHex record
  let record := { record with nodeId := some nodeId }
  let conflict :=
    if record.nodeKeyHex ∈ records then some "node already exists"
    else records.toList.findSome? (adminConflict record nodeId)
  match conflict with
  | some error => (.error error, records)
  | none => (.ok record, records.insert record.nodeKeyHex record)

/-- Another key has a node of the name. -/
def nameInUse (records : NodeMap) (key name : String) : Bool :=
  records.toList.any fun entry => entry.1 ≠ key ∧ entry.2.hostname = name

def tryRename (records : NodeMap) (baseDomain nodeKeyHex newHostname : String) : Bool × NodeMap :=
  match validateGivenName newHostname baseDomain, validLabel newHostname with
  | .ok (), .ok () =>
    if nameInUse records nodeKeyHex newHostname then (false, records)
    else
      match records[nodeKeyHex]? with
      | some record => (true, records.insert nodeKeyHex { record with hostname := newHostname })
      | none => (false, records)
  | _, _ => (false, records)

inductive MutateError where
  | name (error : GivenNameError)
  | ambiguous
  | inUse
deriving DecidableEq, Repr

/-- `mutate_native_node_with_view`; whether a node was changed. -/
def mutateNativeNodeWithView (records : NodeMap) (baseDomain : String) (id : Nat)
    (newName : Option String) (update : MachineRecord → MachineRecord) :
    Except MutateError Bool × NodeMap :=
  match newName.mapM fun name => validateGivenName name baseDomain with
  | .error error => (.error (.name error), records)
  | .ok _ =>
    match records.toList.filter fun entry => stableNodeIdForKey entry.1 entry.2 = id with
    | [] => (.ok false, records)
    | [(key, record)] =>
      if newName.any (nameInUse records key) then (.error .inUse, records)
      else (.ok true, records.insert key (update record))
    | _ => (.error .ambiguous, records)

def policyIdentityWithoutRoutesChanged (before after : MachineRecord) : Bool :=
  before.userId ≠ after.userId ||
    (before.userId.isNone && after.userId.isNone && before.user ≠ after.user) ||
    before.ipv4 ≠ after.ipv4 || before.ipv6 ≠ after.ipv6 || before.forcedTags ≠ after.forcedTags

/-- The name that the client's update leads to. -/
def runtimeName (records : NodeMap) (current before proposed : MachineRecord) (rawHostname : String) :
    String :=
  if current.hostname = before.hostname ∧ current.rawHostname = before.rawHostname then
    if rawHostname ≠ current.rawHostname ∧ rawHostname ≠ "" ∧
        isAutoDerivedGivenName current.hostname current.rawHostname then
      resolveAutoGivenName records before.nodeKeyHex none rawHostname
    else proposed.hostname
  else current.hostname

/-- The record after a client's update: what the client owns is taken over, unless somebody has
changed it since it was read. -/
def runtimeRecord (records : NodeMap) (current before proposed : MachineRecord) : MachineRecord :=
  let rawHostname :=
    if current.rawHostname = before.rawHostname then proposed.rawHostname else current.rawHostname
  { current.replaceHostInfo proposed.hostInfoForNode with
    discoKey := proposed.discoKey
    endpoints := proposed.endpoints
    rawHostname := rawHostname
    os := proposed.os
    osVersion := proposed.osVersion
    homeDerp := proposed.homeDerp
    availableRoutes := proposed.availableRoutes
    sshHostKeys := proposed.sshHostKeys
    hostname := runtimeName records current before proposed rawHostname
    approvedRoutes :=
      if !policyIdentityWithoutRoutesChanged current before &&
          current.approvedRoutes = before.approvedRoutes then
        proposed.approvedRoutes
      else current.approvedRoutes
    nodeId := current.nodeId.or proposed.nodeId
    lastSeen := max current.lastSeen proposed.lastSeen }

/-- `map_runtime_update`; whether the update was made. -/
def mapRuntimeUpdate (records : NodeMap) (before proposed : MachineRecord) : Bool × NodeMap :=
  if proposed.nodeKeyHex ≠ before.nodeKeyHex then (false, records)
  else
    match records[before.nodeKeyHex]? with
    | none => (false, records)
    | some current =>
      if current.machineKeyHex ≠ before.machineKeyHex ∨
          (current.nodeId.isSome ∧ before.nodeId.isSome ∧ current.nodeId ≠ before.nodeId) then
        (false, records)
      else (true, records.insert before.nodeKeyHex (runtimeRecord records current before proposed))

/-! ## Distinct names -/

/-- No two nodes have one given name. -/
def DistinctNames (records : NodeMap) : Prop :=
  ∀ (key key' : String) (record record' : MachineRecord), records[key]? = some record →
    records[key']? = some record' → record.hostname = record'.hostname → key = key'

variable {records records' : NodeMap} {key name : String}

lemma mem_takenNames {keep : String → MachineRecord → Bool} :
    name ∈ takenNames records keep ↔ ∃ (key : String) (record : MachineRecord),
      records[key]? = some record ∧ keep key record = true ∧ record.hostname = name := by
  simp [takenNames, and_assoc]

variable {other : String} {record named : MachineRecord}

/-- A node under some key, among nodes that were there before and do not have its name. -/
theorem DistinctNames.insert (hdistinct : DistinctNames records) {rest : NodeMap}
    (hrest : ∀ (other : String) (record : MachineRecord), other ≠ key → rest[other]? = some record →
      records[other]? = some record ∧ record.hostname ≠ named.hostname) :
    DistinctNames (rest.insert key named) := by
  intro first second record record' hfirst hsecond heq
  obtain ⟨rfl, rfl⟩ | ⟨hne, hfirst⟩ := TreeMap.getElem?_of_insert hfirst <;>
    obtain ⟨rfl, rfl⟩ | ⟨hne', hsecond⟩ := TreeMap.getElem?_of_insert hsecond
  · rfl
  · exact absurd heq.symm (hrest second record' hne' hsecond).2
  · exact absurd heq (hrest first record hne hfirst).2
  · exact hdistinct first second record record' (hrest first record hne hfirst).1
      (hrest second record' hne' hsecond).1 heq

/-- The only entry of an id. -/
theorem of_filter_eq_singleton {id : Nat}
    (h : (records.toList.filter fun entry => stableNodeIdForKey entry.1 entry.2 = id) =
      [(key, record)]) :
    records[key]? = some record ∧ ∀ (other : String) (record' : MachineRecord),
      records[other]? = some record' → stableNodeIdForKey other record' = id → other = key := by
  have hmem (other record') : (other, record') = (key, record) ↔
      records[other]? = some record' ∧ stableNodeIdForKey other record' = id := by
    rw [← List.mem_singleton, ← h]
    simp
  exact ⟨((hmem _ _).mp rfl).1,
    fun other record' hother hid => congrArg Prod.fst ((hmem _ _).mpr ⟨hother, hid⟩)⟩

/-! ### One writer after the other -/

lemma putNewNativeRegistration_cases (records : NodeMap) (record : MachineRecord) :
    (∃ error, putNewNativeRegistration records record = (.error error, records)) ∨
    ∃ id name, record.nodeId = some id ∧
      name = resolveGivenName (if record.hostname = "" then "node" else record.hostname)
        (takenNames records fun key node => stableNodeIdForKey key node ≠ id) ∧
      putNewNativeRegistration records record = (.ok { record with hostname := name },
        (records.filter fun key node => stableNodeIdForKey key node ≠ id).insert record.nodeKeyHex
          { record with hostname := name }) := by
  unfold putNewNativeRegistration
  cases hid : record.nodeId.filter (0 < ·) with
  | none => exact .inl ⟨_, rfl⟩
  | some id =>
    have hnodeId : record.nodeId = some id := (filter_eq_some_iff.mp hid).1
    simp only
    split
    · exact .inl ⟨_, rfl⟩
    · exact .inr ⟨id, _, hnodeId, rfl, rfl⟩

/-- The name that a new registration is given. -/
theorem putNewNativeRegistration_name {record : MachineRecord}
    (h : putNewNativeRegistration records record = (.ok named, records')) :
    ∃ suffix, named.hostname =
      numbered (if record.hostname = "" then "node" else record.hostname) suffix := by
  obtain ⟨error, herror⟩ | ⟨id, name, -, hname, hok⟩ := putNewNativeRegistration_cases records record
  · rw [herror] at h
    cases h
  · rw [hok] at h
    obtain rfl := Except.ok.inj (Prod.mk.inj h).1
    rw [hname]
    exact (resolveGivenName_spec _ _).2

lemma DistinctNames.putNewNativeRegistration (hdistinct : DistinctNames records)
    (record : MachineRecord) : DistinctNames (putNewNativeRegistration records record).2 := by
  obtain ⟨error, h⟩ | ⟨id, name, -, hname, h⟩ := putNewNativeRegistration_cases records record
  · rw [h]
    exact hdistinct
  rw [h]
  refine hdistinct.insert fun other node _ hother => ?_
  rw [getElem?_filter', filter_eq_some_iff] at hother
  refine ⟨hother.1, fun hsame => ?_⟩
  have hfree := (resolveGivenName_spec (if record.hostname = "" then "node" else record.hostname)
    (takenNames records fun key node => stableNodeIdForKey key node ≠ id)).1
  rw [← hname] at hfree
  exact hfree (mem_takenNames.mpr ⟨other, node, hother.1, hother.2, hsame⟩)

lemma DistinctNames.beginNativeRegistration (hdistinct : DistinctNames records) (id : Nat)
    (prepare : MachineRecord → Except MachineAdminError MachineRecord) :
    DistinctNames (beginNativeRegistration records id prepare).2 := by
  unfold Names.beginNativeRegistration
  split
  · exact hdistinct
  · rename_i oldKey before hmatches
    obtain ⟨hbefore, honly⟩ := of_filter_eq_singleton hmatches
    split
    · exact hdistinct
    split
    · exact hdistinct
    split
    · exact hdistinct
    -- the node moves to its new key with the name it has
    refine hdistinct.insert fun other node _ hother => ?_
    obtain ⟨hne, hother⟩ := TreeMap.getElem?_of_erase hother
    exact ⟨hother, fun hsame => hne (hdistinct other oldKey node before hother hbefore hsame)⟩
  · exact hdistinct

/-- The name that a lookup gives is free among the nodes of other keys. -/
theorem resolveAutoGivenName_free {nodeKeyHex rawHostname : String} {alsoExclude : Option String}
    (hother : records[other]? = some record) (hne : other ≠ nodeKeyHex)
    (hexclude : some other ≠ alsoExclude) :
    record.hostname ≠ resolveAutoGivenName records nodeKeyHex alsoExclude rawHostname := by
  intro hsame
  exact (resolveGivenName_spec _ _).1 (mem_takenNames.mpr ⟨other, record, hother, by simp [hne, hexclude],
    hsame⟩)

/-- The commit is refused, or stores a node of the name that was settled on. -/
theorem commitRegistration_cases (records : NodeMap) (previous : Option String)
    (existing : Option MachineRecord) (record : MachineRecord) :
    commitRegistration records previous existing record = (none, records) ∨
    ∃ named, named.hostname = committedName records previous existing record ∧
      commitRegistration records previous existing record = (some named,
        (withoutPrevious records previous record.nodeKeyHex).insert record.nodeKeyHex named) :=
  (em _).imp (fun hheld => if_pos hheld) fun hfree => ⟨_, rfl, if_neg hfree⟩

lemma getElem?_of_withoutPrevious {previous : Option String} {nodeKeyHex : String}
    (hne : other ≠ nodeKeyHex)
    (h : (withoutPrevious records previous nodeKeyHex)[other]? = some record) :
    records[other]? = some record ∧ some other ≠ previous := by
  unfold withoutPrevious at h
  split at h
  · split at h
    · obtain ⟨hkey, h⟩ := TreeMap.getElem?_of_erase h
      exact ⟨h, by simpa using hkey⟩
    · rename_i hkey
      refine ⟨h, fun heq => hne ?_⟩
      rw [Option.some.inj heq]
      simpa using hkey
  · exact ⟨h, nofun⟩

lemma DistinctNames.commitRegistration (hdistinct : DistinctNames records) {previous : Option String}
    {existing : Option MachineRecord} (hfree : ∀ (other : String) (node : MachineRecord),
      other ≠ record.nodeKeyHex → records[other]? = some node → some other ≠ previous →
      node.hostname ≠ committedName records previous existing record) :
    DistinctNames (commitRegistration records previous existing record).2 := by
  obtain h | ⟨named, hname, h⟩ := commitRegistration_cases records previous existing record
  · rw [h]
    exact hdistinct
  rw [h]
  refine hdistinct.insert fun other node hne hother => ?_
  obtain ⟨hother, hprevious⟩ := getElem?_of_withoutPrevious hne hother
  rw [hname]
  exact ⟨hother, hfree other node hne hother hprevious⟩

lemma DistinctNames.volatileAuthRegistrationCommit (hdistinct : DistinctNames records)
    (previous : Option String) (record : MachineRecord) :
    DistinctNames (volatileAuthRegistrationCommit records previous record).2 := by
  unfold Names.volatileAuthRegistrationCommit
  split
  · exact hdistinct.commitRegistration fun _ _ hne hother hprevious =>
      resolveAutoGivenName_free hother hne hprevious
  rename_i key
  split
  · exact hdistinct
  rename_i old hold
  split
  · exact hdistinct
  exact hdistinct.commitRegistration fun other node _ hother hprevious hsame => hprevious
    (congrArg some (hdistinct other key node old hother hold hsame))

lemma adminConflict_of_name {nodeId : Nat} {entry : String × MachineRecord}
    (h : entry.2.hostname = record.hostname) : adminConflict record nodeId entry ≠ none := by
  rw [adminConflict, if_pos h]
  split
  · nofun
  split
  · rename_i hipv4
    simpa using isSome_iff_ne_none.mp hipv4.1
  split
  · rename_i hipv6
    simpa using isSome_iff_ne_none.mp hipv6.1
  · nofun

lemma DistinctNames.insertVolatileAdminRecord (hdistinct : DistinctNames records)
    (record : MachineRecord) : DistinctNames (insertVolatileAdminRecord records record).2 := by
  unfold Names.insertVolatileAdminRecord
  simp only
  split
  · exact hdistinct
  rename_i hnone
  refine hdistinct.insert fun other node hne hother => ⟨hother, fun hsame => ?_⟩
  split at hnone
  · cases hnone
  · exact adminConflict_of_name hsame (List.findSome?_eq_none_iff.mp hnone (other, node)
      (mem_toList_iff_getElem?_eq_some.mpr hother))

lemma nameInUse_eq_false (h : nameInUse records key name = false)
    (hother : records[other]? = some record) (hne : other ≠ key) : record.hostname ≠ name := by
  intro hsame
  have hany := List.any_eq_false.mp h (other, record)
    (mem_toList_iff_getElem?_eq_some.mpr hother)
  exact hany (by simp [hne, hsame])

lemma DistinctNames.tryRename (hdistinct : DistinctNames records)
    (baseDomain nodeKeyHex newHostname : String) :
    DistinctNames (tryRename records baseDomain nodeKeyHex newHostname).2 := by
  unfold Names.tryRename
  split
  · split
    · exact hdistinct
    rename_i hfree
    split
    · refine hdistinct.insert fun other node hne hother => ⟨hother, ?_⟩
      exact nameInUse_eq_false (by simpa using hfree) hother hne
    · exact hdistinct
  · exact hdistinct

/-- The edit of a record sets the new name or none. -/
def SetsNoOtherName (newName : Option String) (update : MachineRecord → MachineRecord) : Prop :=
  ∀ record, (update record).hostname = record.hostname ∨ some (update record).hostname = newName

lemma DistinctNames.mutateNativeNodeWithView (hdistinct : DistinctNames records) (baseDomain : String)
    (id : Nat) {newName : Option String} {update : MachineRecord → MachineRecord}
    (hupdate : SetsNoOtherName newName update) :
    DistinctNames (mutateNativeNodeWithView records baseDomain id newName update).2 := by
  unfold Names.mutateNativeNodeWithView
  split
  · exact hdistinct
  split
  · exact hdistinct
  · rename_i key record hmatches
    split
    · exact hdistinct
    rename_i hfree
    refine hdistinct.insert fun other node hne hother => ⟨hother, fun hsame => ?_⟩
    obtain hkept | hnew := hupdate record
    · rw [hkept] at hsame
      exact hne (hdistinct other key node record hother (of_filter_eq_singleton hmatches).1 hsame)
    · rw [← hnew] at hfree
      exact nameInUse_eq_false (by simpa using hfree) hother hne hsame
  · exact hdistinct

/-- A client's update keeps the name, or settles on one that is free. -/
theorem runtimeName_cases (records : NodeMap) (current : MachineRecord)
    {before proposed : MachineRecord} (hproposed : proposed.hostname = before.hostname)
    (rawHostname : String) :
    runtimeName records current before proposed rawHostname = current.hostname ∨
    rawHostname ≠ current.rawHostname ∧ runtimeName records current before proposed rawHostname =
      resolveAutoGivenName records before.nodeKeyHex none rawHostname := by
  unfold runtimeName
  split
  · rename_i hsame
    split
    · rename_i hchanged
      exact .inr ⟨hchanged.1, rfl⟩
    · exact .inl (hproposed.trans hsame.1.symm)
  · exact .inl rfl

lemma mapRuntimeUpdate_cases (records : NodeMap) (before proposed : MachineRecord) :
    mapRuntimeUpdate records before proposed = (false, records) ∨
    ∃ current, records[before.nodeKeyHex]? = some current ∧
      mapRuntimeUpdate records before proposed = (true,
        records.insert before.nodeKeyHex (runtimeRecord records current before proposed)) := by
  unfold mapRuntimeUpdate
  split
  · exact .inl rfl
  split
  · exact .inl rfl
  · rename_i current hcurrent
    split
    · exact .inl rfl
    · exact .inr ⟨current, hcurrent, rfl⟩

lemma DistinctNames.mapRuntimeUpdate (hdistinct : DistinctNames records)
    {before proposed : MachineRecord} (hproposed : proposed.hostname = before.hostname) :
    DistinctNames (mapRuntimeUpdate records before proposed).2 := by
  obtain h | ⟨current, hcurrent, h⟩ := mapRuntimeUpdate_cases records before proposed
  · rw [h]
    exact hdistinct
  rw [h]
  refine hdistinct.insert fun other node hne hother => ⟨hother, fun hsame => ?_⟩
  simp only [runtimeRecord] at hsame
  obtain hkept | ⟨-, hfree⟩ := runtimeName_cases records current hproposed _
  · rw [hkept] at hsame
    exact hne (hdistinct other _ node current hother hcurrent hsame)
  · rw [hfree] at hsame
    have hexclude : some other ≠ none := nofun
    exact resolveAutoGivenName_free hother hne hexclude hsame

/-! ## Runs -/

inductive WriterCall where
  | putNew (record : MachineRecord)
  | begin (id : Nat) (prepare : MachineRecord → Except MachineAdminError MachineRecord)
  | commit (previous : Option String) (record : MachineRecord)
  | adminInsert (record : MachineRecord)
  | rename (baseDomain nodeKeyHex newHostname : String)
  | mutate (baseDomain : String) (id : Nat) (newName : Option String)
      (update : MachineRecord → MachineRecord)
  | mapUpdate (before proposed : MachineRecord)

def WriterCall.run (records : NodeMap) : WriterCall → NodeMap
  | .putNew record => (putNewNativeRegistration records record).2
  | .begin id prepare => (beginNativeRegistration records id prepare).2
  | .commit previous record => (volatileAuthRegistrationCommit records previous record).2
  | .adminInsert record => (insertVolatileAdminRecord records record).2
  | .rename baseDomain nodeKeyHex newHostname =>
    (tryRename records baseDomain nodeKeyHex newHostname).2
  | .mutate baseDomain id newName update =>
    (mutateNativeNodeWithView records baseDomain id newName update).2
  | .mapUpdate before proposed => (mapRuntimeUpdate records before proposed).2

/-- The edit of a mutation sets no other name than the new one, and a map request proposes the name
that it has read. -/
def WriterCall.KeepsNames : WriterCall → Prop
  | .mutate _ _ newName update => SetsNoOtherName newName update
  | .mapUpdate before proposed => proposed.hostname = before.hostname
  | _ => True

/-- Registries whose names are distinct at first, under calls of the writers. -/
def registries : System NodeMap WriterCall where
  init := DistinctNames
  step records call records' := records' = call.run records

lemma DistinctNames.run (hdistinct : DistinctNames records) {call : WriterCall}
    (hcall : call.KeepsNames) : DistinctNames (call.run records) := by
  cases call with
  | putNew record => exact hdistinct.putNewNativeRegistration record
  | begin id prepare => exact hdistinct.beginNativeRegistration id prepare
  | commit previous record => exact hdistinct.volatileAuthRegistrationCommit previous record
  | adminInsert record => exact hdistinct.insertVolatileAdminRecord record
  | rename baseDomain nodeKeyHex newHostname =>
    exact hdistinct.tryRename baseDomain nodeKeyHex newHostname
  | mutate baseDomain id newName update =>
    exact hdistinct.mutateNativeNodeWithView baseDomain id hcall
  | mapUpdate before proposed => exact hdistinct.mapRuntimeUpdate hcall

/-! ## Names of rows

Before the node is put into the registry, its row is saved, and the name of the row is settled against
the other rows in the same way. -/

/-- `resolve_new_node_given_name`, for the names that the rows have. -/
def resolveNewNodeGivenName (rowNames : List String) (preferred hostname : String) : String :=
  resolveGivenName (if preferred = "" then autoGivenNameBase hostname else preferred)
    (rowNames.filter (· ≠ ""))

/-- The name of the row of a new registration: `new_native_registration` prefers the sanitized host
name. -/
def savedGivenName (rowNames : List String) (hostname : String) : String :=
  resolveNewNodeGivenName rowNames (sanitizeHostnameForGivenName hostname) hostname

lemma savedGivenName_spec (rowNames : List String) (hostname : String) :
    savedGivenName rowNames hostname ∉ rowNames.filter (· ≠ "") ∧
      ∃ suffix, savedGivenName rowNames hostname = numbered (autoGivenNameBase hostname) suffix := by
  have hbase : (if sanitizeHostnameForGivenName hostname = "" then autoGivenNameBase hostname
      else sanitizeHostnameForGivenName hostname) = autoGivenNameBase hostname := by
    unfold autoGivenNameBase
    split
    · rename_i hempty
      simp
    · rename_i hempty
      simp [hempty]
  unfold savedGivenName resolveNewNodeGivenName
  rw [hbase]
  exact resolveGivenName_spec _ _

lemma numbered_ne_empty {base : String} (h : base ≠ "") (suffix : Nat) : numbered base suffix ≠ "" := by
  cases suffix with
  | zero => exact h
  | succ suffix =>
    intro hempty
    have hlist := congrArg String.toList hempty
    simp [numbered] at hlist

lemma autoGivenNameBase_ne_empty (hostname : String) : autoGivenNameBase hostname ≠ "" := by
  intro hempty
  obtain ⟨byte, hbyte, -⟩ := (autoGivenNameBase_shape hostname).1.first
  rw [hempty] at hbyte
  cases hbyte

/-! ## Results -/

/-- In runs of the writers the names stay distinct. A name that is generated is the sanitized host name
or `node`, maybe with a number after it; that of a new registration is made in this way from the name
of the node's row, which is made so from the host name. -/
theorem names_stay_distinct :
    (∀ records, registries.ReachableBy (fun _ call _ => call.KeepsNames) records →
      DistinctNames records) ∧
    (∀ rowNames records record named records',
      record.hostname = savedGivenName rowNames record.rawHostname →
      putNewNativeRegistration records record = (.ok named, records') →
      ∃ saved suffix, record.hostname = numbered (autoGivenNameBase record.rawHostname) saved ∧
        named.hostname = numbered record.hostname suffix) ∧
    (∀ records record named records',
      volatileAuthRegistrationCommit records none record = (some named, records') →
      ∃ suffix, named.hostname = numbered (autoGivenNameBase record.rawHostname) suffix) ∧
    ∀ (records records' : NodeMap) before proposed current next,
      proposed.hostname = before.hostname →
      mapRuntimeUpdate records before proposed = (true, records') →
      records[before.nodeKeyHex]? = some current → records'[before.nodeKeyHex]? = some next →
      next.hostname = current.hostname ∨
        ∃ suffix, next.hostname = numbered (autoGivenNameBase next.rawHostname) suffix := by
  refine ⟨fun records hreach => ?_, ?_, ?_, ?_⟩
  · refine hreach.invariant (fun _ h => h) fun records call records' hdistinct hstep hcall => ?_
    obtain rfl : records' = call.run records := hstep
    exact hdistinct.run hcall
  · intro rowNames records record named records' hrow hput
    obtain ⟨-, saved, hsaved⟩ := savedGivenName_spec rowNames record.rawHostname
    rw [← hrow] at hsaved
    have hne : record.hostname ≠ "" := by
      rw [hsaved]
      exact numbered_ne_empty (autoGivenNameBase_ne_empty _) saved
    obtain ⟨suffix, hsuffix⟩ := putNewNativeRegistration_name hput
    rw [if_neg hne] at hsuffix
    exact ⟨saved, suffix, hsaved, hsuffix⟩
  · intro records record named records' hcommit
    obtain h | ⟨committed, hname, h⟩ := commitRegistration_cases records none none record
    · rw [show volatileAuthRegistrationCommit records none record = _ from h] at hcommit
      cases hcommit
    · rw [show volatileAuthRegistrationCommit records none record = _ from h] at hcommit
      obtain ⟨rfl, -⟩ := Prod.mk.inj hcommit |>.imp_left Option.some.inj
      rw [hname]
      exact (resolveGivenName_spec _ _).2
  · intro records records' before proposed current next hproposed hupdate hcurrent hnext
    obtain h | ⟨found, hfound, h⟩ := mapRuntimeUpdate_cases records before proposed
    · rw [h] at hupdate
      cases hupdate
    rw [h] at hupdate
    obtain rfl := (Prod.mk.inj hupdate).2
    obtain rfl := Option.some.inj (hfound.symm.trans hcurrent)
    obtain rfl : runtimeRecord records found before proposed = next := by simpa using hnext
    refine (runtimeName_cases records found hproposed _).imp_right fun hname => ?_
    rw [runtimeRecord, hname.2]
    exact (resolveGivenName_spec _ _).2

/-- Two nodes of different names. -/
def twoNodes : NodeMap :=
  (∅ : NodeMap).insert "k1" { nodeId := some 1, nodeKeyHex := "k1", hostname := "a", rawHostname := "a" }
    |>.insert "k2" { nodeId := some 2, nodeKeyHex := "k2", hostname := "b", rawHostname := "b" }

lemma distinctNames_empty : DistinctNames ∅ := by
  intro key key' record record' hrecord
  simp at hrecord

lemma distinctNames_twoNodes : DistinctNames twoNodes := by
  refine (distinctNames_empty.insert fun other node _ hother => ?_).insert
    fun other node hne hother => ⟨hother, ?_⟩
  · simp at hother
  · obtain ⟨-, rfl⟩ | ⟨-, hother⟩ := TreeMap.getElem?_of_insert hother
    · decide
    · simp at hother

/-- The second node now reports the host name of the first. -/
def secondReports : WriterCall :=
  .mapUpdate { nodeId := some 2, nodeKeyHex := "k2", hostname := "b", rawHostname := "b" }
    { nodeId := some 2, nodeKeyHex := "k2", hostname := "b", rawHostname := "a" }

def threeReports : MachineRecord :=
  { nodeId := some 3, nodeKeyHex := "k3", rawHostname := "a", hostname := savedGivenName ["a", "b"] "a" }

theorem two_nodes_stay_distinct : DistinctNames (secondReports.run twoNodes) :=
  names_stay_distinct.1 _ (.step (.init distinctNames_twoNodes) rfl rfl)

lemma ne_numbered_of_hyphen (base : String) {rest : String} (h : '-' ∈ rest.toList) (suffix : Nat) :
    base ++ "-" ++ rest ≠ numbered base suffix := by
  intro heq
  have hlist := congrArg String.toList heq
  cases suffix with
  | zero => simp [numbered] at hlist
  | succ suffix =>
    simp only [numbered, String.toList_append, String.toList_ofList, List.append_cancel_left_eq]
      at hlist
    rw [hlist] at h
    exact Text.not_mem_decimal (by decide) _ h

/-- The second node is called `a-1` since it has reported the host name of the first, and its row has
not been saved since. A new node with the same host name gets the row `a-1` and the name `a-1-1`. -/
theorem number_after_number :
    ∃ records, registries.ReachableBy (fun _ call _ => call.KeepsNames) records ∧
      (putNewNativeRegistration records threeReports).1 =
        .ok { threeReports with hostname := "a-1-1" } ∧
      ∀ suffix, "a-1-1" ≠ numbered (autoGivenNameBase threeReports.rawHostname) suffix := by
  refine ⟨secondReports.run twoNodes, .step (.init distinctNames_twoNodes) rfl rfl,
    by decide +kernel, fun suffix => ?_⟩
  have hhyphen : '-' ∈ "1-1".toList := by decide
  exact ne_numbered_of_hyphen "a" hhyphen suffix

/-- The sanitizer gives a valid label or nothing, and changes no name that it has given. A generated
name is a valid label exactly if it has at most 63 bytes; only a number after the sanitized name can
make it longer. -/
theorem generated_names_are_labels :
    (∀ hostname, sanitizeHostnameForGivenName hostname = "" ∨
      validLabel (sanitizeHostnameForGivenName hostname) = .ok ()) ∧
    (∀ hostname, sanitizeHostnameForGivenName (sanitizeHostnameForGivenName hostname) =
      sanitizeHostnameForGivenName hostname) ∧
    (∀ records record hostname named records',
      record.hostname = sanitizeHostnameForGivenName hostname →
      putNewNativeRegistration records record = (.ok named, records') →
      (∃ suffix, named.hostname = numbered (autoGivenNameBase hostname) suffix) ∧
      (validLabel named.hostname = .ok () ↔ (Text.utf8 named.hostname.toList).length ≤ 63)) ∧
    ∀ records nodeKeyHex alsoExclude hostname,
      validLabel (resolveAutoGivenName records nodeKeyHex alsoExclude hostname) = .ok () ↔
        (Text.utf8 (resolveAutoGivenName records nodeKeyHex alsoExclude hostname).toList).length ≤ 63 := by
  refine ⟨fun hostname => (sanitize_shape hostname).imp_right validLabel_ok_iff.mpr,
    fun hostname => ?_, ?_, ?_⟩
  · obtain hempty | ⟨hshape, hlen⟩ := sanitize_shape hostname
    · rw [hempty]
      decide
    · exact sanitize_of_label (fun c => sanitize_safe) hshape hlen
  · intro records record hostname named records' hrecord hput
    obtain ⟨suffix, hsuffix⟩ := putNewNativeRegistration_name hput
    rw [hrecord] at hsuffix
    have hbase : named.hostname = numbered (autoGivenNameBase hostname) suffix := hsuffix
    refine ⟨⟨suffix, hbase⟩, ?_⟩
    rw [hbase]
    exact validLabel_numbered_iff (autoGivenNameBase_shape hostname).1 suffix
  · intro records nodeKeyHex alsoExclude hostname
    obtain ⟨-, suffix, hsuffix⟩ := resolveGivenName_spec (autoGivenNameBase hostname)
      (takenNames records fun key _ => key ≠ nodeKeyHex ∧ some key ≠ alsoExclude)
    rw [resolveAutoGivenName, hsuffix]
    exact validLabel_numbered_iff (autoGivenNameBase_shape hostname).1 suffix

/-- Fifteen times `node`, and once more without its last letter. -/
def longName : String := "nodenodenodenodenodenodenodenodenodenodenodenodenodenodenodenod"

def oneLongNode : NodeMap :=
  (∅ : NodeMap).insert "k1" { nodeId := some 1, nodeKeyHex := "k1", hostname := longName }

/-- A new node that reports the long name. -/
def longRecord : MachineRecord :=
  { nodeId := some 2, nodeKeyHex := "k2", hostname := sanitizeHostnameForGivenName longName }

lemma put_longRecord : (putNewNativeRegistration oneLongNode longRecord).1 =
    .ok { longRecord with hostname := longName ++ "-1" } := by
  decide +kernel

theorem second_long_name_has_shape :
    (putNewNativeRegistration oneLongNode longRecord).1 =
        .ok { longRecord with hostname := longName ++ "-1" } ∧
      (validLabel (longName ++ "-1") = .ok () ↔
        (Text.utf8 (longName ++ "-1").toList).length ≤ 63) :=
  ⟨put_longRecord, (generated_names_are_labels.2.2.1 oneLongNode longRecord longName
    { longRecord with hostname := longName ++ "-1" } (putNewNativeRegistration oneLongNode longRecord).2
    rfl (Prod.ext put_longRecord rfl)).2⟩

/-- Two nodes report the same name of 63 bytes. The second one is given a name of 65 bytes. -/
theorem second_long_name_is_no_label :
    resolveAutoGivenName oneLongNode "k2" none longName = longName ++ "-1" ∧
      validLabel (resolveAutoGivenName oneLongNode "k2" none longName) = .error .tooLong := by
  decide +kernel

end Headscale.Names
