import Headscale.Node.CachedRegistration
import Headscale.Lib.Machine

/-!
# Live edits and their saves

Admin mutations, policy route approvals, re-registrations and disconnects edit the live record of a
node first and save it later. The first three hold the machine's guard from the edit to the save; a
disconnect holds none. Every save holds the persistence lock. A re-registration saves the copy that it
prepared with its edit, an expiry mutation the expiry it has set, and all others a fresh read of the
live record.

The system below is that of one node. Tasks of other nodes contend for the locks and touch nothing
else of it. Each update of the live record, each acquisition of a lock, each read and each SQL
transaction is a step of its own.
-/

namespace Headscale.Node

open Db Machine NativeNodePersistence

/-! ## Calls -/

inductive NativeNodeMutation where
  | expiry (expiry : Option Int)
  | rename (name : String)
  | tags (tags : List String)
  | approvedRoutes (routes : List String)
  | availableRoutes (routes : List String)
deriving DecidableEq, Repr

/-- The edit of the live record. Names and routes have been validated and normalized before. -/
def NativeNodeMutation.edit (mutation : NativeNodeMutation) (record : MachineRecord) : MachineRecord :=
  match mutation with
  | .expiry time => { record with expiry := time }
  | .rename name => { record with hostname := name }
  | .tags requested => { record with forcedTags := Collection.sortDedup requested }.clearUserIdentity
  | .approvedRoutes routes => { record with approvedRoutes := routes }
  | .availableRoutes routes => { record with availableRoutes := routes }

/-- The stored shape after an admin edit: tags take the user away, an empty list of routes is
absent. -/
def NativeNodeMutation.editNative (mutation : NativeNodeMutation) (codec : HostCodec) (id : Nat)
    (record : MachineRecord) (prior : Option NativeNodePersistence) :
    Except MachineAdminError NativeNodePersistence := do
  let fields ← snapshot codec id record prior
  let columns :=
    match mutation with
    | .tags _ => { fields.columns with userId := none }
    | .approvedRoutes [] => { fields.columns with approvedRoutes := none }
    | _ => fields.columns
  return .fromSnapshot record { fields with columns := columns } prior

/-- How a re-registration commits: with a captured key, with a key looked up by the request's token,
or without one. -/
inductive Commit where
  | withKey (prior : NodeRow) (key : CapturedAuthKey)
  | withCandidate (prior : NodeRow) (key : CapturedAuthKey) (fresh : Bool)
  | plain
deriving DecidableEq, Repr

def Commit.run (commit : Commit) (refusals : Refusals) (db : Database)
    (registration : CachedNodeRegistration) : Except RegistrationError Database :=
  match commit with
  | .withKey prior key => (commitCachedSqliteWithKey refusals db key prior registration).1
  | .withCandidate prior key fresh => (commitCachedSqlite refusals db key prior registration fresh).1
  | .plain =>
    if refusals.beginning || refusals.saving || refusals.committing then .error .database
    else savingNode (saveCachedRegistration db registration)

structure RegisterCall where
  params : CreateParams
  wire : Option MachineRecord := none
  authKey : Bool
  associations : NativeNodeAssociations := {}
  /-- The clock when the node's expiry is tested, and for the time it was last seen. -/
  checkedAt : Int
  seenAt : Int
  commit : Commit
deriving DecidableEq, Repr

/-- The calls that hold the machine's guard. -/
inductive Call where
  | mutate (mutation : NativeNodeMutation)
  | approve (routes : List String)
  | register (call : RegisterCall)
deriving DecidableEq, Repr

/-- A re-registration whose live edit is made. -/
structure LiveRegistrationSave where
  before : MachineRecord
  nativeBefore : Option NativeNodePersistence
  after : MachineRecord
  registration : CachedNodeRegistration
  authKey : Bool
  commit : Commit
deriving DecidableEq, Repr

/-- The stored shape with its hostinfo brought up to the live one. -/
def refreshHostInfo (codec : HostCodec) (record : MachineRecord) (native : NativeNodePersistence) :
    Except MachineAdminError NativeNodePersistence := do
  let value ← snapshotHostInfo codec record.hostInfoForNode (some native)
  return native.replaceHostinfoSnapshot record.hostInfoForNode (value.getD "null")

def refreshNative (codec : HostCodec) (record : MachineRecord) :
    Option NativeNodePersistence → Except MachineAdminError (Option NativeNodePersistence)
  | none => .ok none
  | some native => (refreshHostInfo codec record native).map some

/-- `begin_native_registration`: the edit, and what is needed to save it or take it back. -/
def beginNativeRegistration (codec : HostCodec) (id : Nat) (call : RegisterCall)
    (before : MachineRecord) (native : Option NativeNodePersistence) :
    Except MachineAdminError (LiveRegistrationSave × NativeNodePersistence) := do
  let nativeBefore ← refreshNative codec before native
  let prepared ← prepareCachedAuthRegistration codec call.checkedAt call.seenAt id before nativeBefore
    call.params call.wire call.authKey call.associations
  if prepared.record.machineKeyHex ≠ before.machineKeyHex then
    .error (.badRequest "ambiguous node identity")
  else
    .ok ({
      before := before
      nativeBefore := nativeBefore
      after := { prepared.record with nodeId := some id, hostname := before.hostname }
      registration := prepared.registration
      authKey := call.authKey
      commit := call.commit }, prepared.native)

/-- What a registration's edit is made of. -/
theorem beginNativeRegistration_ok {codec : HostCodec} {id : Nat} {call : RegisterCall}
    {before : MachineRecord} {native : Option NativeNodePersistence} {live : LiveRegistrationSave}
    {native' : NativeNodePersistence}
    (h : beginNativeRegistration codec id call before native = .ok (live, native')) :
    ∃ nativeBefore prepared, refreshNative codec before native = .ok nativeBefore ∧
      prepareCachedAuthRegistration codec call.checkedAt call.seenAt id before nativeBefore call.params
        call.wire call.authKey call.associations = .ok prepared ∧
      native' = prepared.native ∧
      live = {
        before := before
        nativeBefore := nativeBefore
        after := { prepared.record with nodeId := some id, hostname := before.hostname }
        registration := prepared.registration
        authKey := call.authKey
        commit := call.commit } := by
  obtain ⟨nativeBefore, hnative, h⟩ := Result.bind_eq_ok.mp h
  obtain ⟨prepared, hprepared, h⟩ := Result.bind_eq_ok.mp h
  split at h <;> cases h
  exact ⟨nativeBefore, prepared, hnative, hprepared, rfl, rfl⟩

/-! ## The system -/

/-- Who saves a fresh read. -/
inductive Saver where
  | mutation
  | approval
  | disconnect
deriving DecidableEq, Repr

/-- A fresh read: the columns to be written, and the record and shape they were read from. -/
structure FreshRead where
  node : CachedNodeSnapshot
  record : MachineRecord
  native : Option NativeNodePersistence
deriving DecidableEq, Repr

inductive SaveError where
  | admin (error : MachineAdminError)
  | registration (error : RegistrationError)
  | database
deriving DecidableEq, Repr

inductive SavePhase where
  | idle
  /-- Holds the guard. -/
  | guarded (call : Call)
  /-- The live edit is made, a fresh read will be saved. -/
  | edited (saver : Saver)
  /-- Holds the persistence lock. -/
  | reading (saver : Saver)
  | writing (saver : Saver) (read : FreshRead)
  | expiryEdited (expiry : Option Int)
  | writingExpiry (expiry : Option Int)
  | registered (live : LiveRegistrationSave)
  | committing (live : LiveRegistrationSave)
  /-- The commit has failed, the edit is still there. -/
  | failing (live : LiveRegistrationSave) (error : RegistrationError)
  | done
  | failed (error : SaveError)
deriving DecidableEq, Repr

structure SaveState where
  record : MachineRecord
  native : Option NativeNodePersistence
  db : Database
  /-- The holder of the machine's guard. -/
  machine : Option Nat := none
  /-- The holder of the persistence lock. -/
  persist : Option Nat := none
  phase : Nat → SavePhase := fun _ => .idle

inductive SaveAction where
  | begin (task : Nat) (call : Call)
  | edit (task : Nat)
  | stamp (task : Nat) (now : Int)
  | lock (task : Nat)
  | read (task : Nat)
  | remember (task : Nat)
  | write (task : Nat) (refused : Bool)
  | commit (task : Nat) (refusals : Refusals)
  | rollback (task : Nat)
deriving DecidableEq, Repr

def SaveAction.task : SaveAction → Nat
  | .begin task _ => task
  | .edit task => task
  | .stamp task _ => task
  | .lock task => task
  | .read task => task
  | .remember task => task
  | .write task _ => task
  | .commit task _ => task
  | .rollback task => task

namespace SaveState

def setPhase (s : SaveState) (task : Nat) (phase : SavePhase) : SaveState :=
  { s with phase := Function.update s.phase task phase }

/-- The task ends and gives back the locks it holds. -/
def finish (s : SaveState) (task : Nat) (phase : SavePhase) : SaveState :=
  { s.setPhase task phase with
    machine := if s.machine = some task then none else s.machine
    persist := if s.persist = some task then none else s.persist }

def begin (s : SaveState) (task : Nat) (call : Call) : Option SaveState :=
  if s.phase task = .idle ∧ s.machine = none then
    some { s.setPhase task (.guarded call) with machine := some task }
  else none

/-- An admin edit stays in place when the stored shape cannot be computed. -/
def edit (codec : HostCodec) (id : Nat) (s : SaveState) (task : Nat) : Option SaveState :=
  match s.phase task with
  | .guarded (.mutate (.expiry expiry)) =>
    some { s.setPhase task (.expiryEdited expiry) with
      record := (NativeNodeMutation.expiry expiry).edit s.record }
  | .guarded (.mutate mutation) =>
    let record := mutation.edit s.record
    match mutation.editNative codec id record s.native with
    | .ok native =>
      some { s.setPhase task (.edited .mutation) with record := record, native := some native }
    | .error error => some { s.finish task (.failed (.admin error)) with record := record }
  | .guarded (.approve routes) =>
    some { s.setPhase task (.edited .approval) with
      record := { s.record with approvedRoutes := routes } }
  | .guarded (.register call) =>
    match beginNativeRegistration codec id call s.record s.native with
    | .ok (live, native) =>
      some { s.setPhase task (.registered live) with record := live.after, native := some native }
    | .error error => some (s.finish task (.failed (.admin error)))
  | _ => none

/-- A session's release stamps the time the node was last seen. -/
def stamp (s : SaveState) (task : Nat) (now : Int) : Option SaveState :=
  if s.phase task = .idle then
    some { s.setPhase task (.edited .disconnect) with record := { s.record with lastSeen := now } }
  else none

def lock (s : SaveState) (task : Nat) : Option SaveState :=
  if s.persist = none then
    match s.phase task with
    | .edited saver => some { s.setPhase task (.reading saver) with persist := some task }
    | .expiryEdited expiry => some { s.setPhase task (.writingExpiry expiry) with persist := some task }
    | .registered live => some { s.setPhase task (.committing live) with persist := some task }
    | _ => none
  else none

def read (codec : HostCodec) (id : Nat) (s : SaveState) (task : Nat) : Option SaveState :=
  match s.phase task with
  | .reading saver =>
    match snapshot codec id s.record s.native with
    | .ok node => some (s.setPhase task (.writing saver ⟨node, s.record, s.native⟩))
    | .error error => some (s.finish task (.failed (.admin error)))
  | _ => none

/-- Remembers the shape that is being saved, unless the live node has changed since the read. -/
def remember (s : SaveState) (task : Nat) : Option SaveState :=
  match s.phase task with
  | .writing saver fresh =>
    if saver ≠ .mutation ∧ s.record = fresh.record ∧ s.native = fresh.native then
      some { s with native := some (.fromSnapshot fresh.record fresh.node fresh.native) }
    else none
  | _ => none

def write (id : Nat) (s : SaveState) (task : Nat) (refused : Bool) : Option SaveState :=
  let saved :=
    match s.phase task with
    | .writing _ fresh => some (saveCachedNodeSnapshot s.db fresh.node.id fresh.node.columns)
    | .writingExpiry expiry => some ((toSigned id).bind (saveCachedNodeExpiry s.db · expiry))
    | _ => none
  saved.map fun saved =>
    match saved, refused with
    | some db, false => { s.finish task .done with db := db }
    | _, _ => s.finish task (.failed .database)

def commit (s : SaveState) (task : Nat) (refusals : Refusals) : Option SaveState :=
  match s.phase task with
  | .committing live =>
    match live.commit.run refusals s.db live.registration with
    | .ok db => some { s.finish task .done with db := db }
    | .error error => some (s.setPhase task (.failing live error))
  | _ => none

/-- A failed registration by auth key takes its edit back, in memory. Other ones leave it. -/
def rollback (s : SaveState) (task : Nat) : Option SaveState :=
  match s.phase task with
  | .failing live error =>
    let s' := s.finish task (.failed (.registration error))
    if live.authKey = true ∧ s.record.nodeKeyHex = live.after.nodeKeyHex ∧
        s.record.machineKeyHex = live.after.machineKeyHex then
      some { s' with record := live.before, native := live.nativeBefore }
    else some s'
  | _ => none

def apply (codec : HostCodec) (id : Nat) (s : SaveState) : SaveAction → Option SaveState
  | .begin task call => s.begin task call
  | .edit task => s.edit codec id task
  | .stamp task now => s.stamp task now
  | .lock task => s.lock task
  | .read task => s.read codec id task
  | .remember task => s.remember task
  | .write task refused => s.write id task refused
  | .commit task refusals => s.commit task refusals
  | .rollback task => s.rollback task

end SaveState

/-- The tasks of one node, from a given start. -/
def nodeSaves (codec : HostCodec) (id : Nat) (start : SaveState → Prop) :
    System SaveState SaveAction where
  init := start
  step s action s' := s.apply codec id action = some s'

/-! ## Steps -/

/-- What a step does, by its kind. -/
inductive SaveStep (codec : HostCodec) (id : Nat) (s : SaveState) : SaveAction → SaveState → Prop where
  | begin {task : Nat} {call : Call} (hidle : s.phase task = .idle) (hfree : s.machine = none) :
      SaveStep codec id s (.begin task call)
        { s.setPhase task (.guarded call) with machine := some task }
  | editExpiry {task : Nat} {expiry : Option Int}
      (hphase : s.phase task = .guarded (.mutate (.expiry expiry))) :
      SaveStep codec id s (.edit task) { s.setPhase task (.expiryEdited expiry) with
        record := { s.record with expiry := expiry } }
  | edit {task : Nat} {mutation : NativeNodeMutation} {native : NativeNodePersistence}
      (hphase : s.phase task = .guarded (.mutate mutation))
      (hkind : ∀ expiry, mutation ≠ .expiry expiry)
      (hnative : mutation.editNative codec id (mutation.edit s.record) s.native = .ok native) :
      SaveStep codec id s (.edit task) { s.setPhase task (.edited .mutation) with
        record := mutation.edit s.record, native := some native }
  | editFailed {task : Nat} {mutation : NativeNodeMutation} {error : MachineAdminError}
      (hphase : s.phase task = .guarded (.mutate mutation)) :
      SaveStep codec id s (.edit task) { s.finish task (.failed (.admin error)) with
        record := mutation.edit s.record }
  | approve {task : Nat} {routes : List String} (hphase : s.phase task = .guarded (.approve routes)) :
      SaveStep codec id s (.edit task) { s.setPhase task (.edited .approval) with
        record := { s.record with approvedRoutes := routes } }
  | register {task : Nat} {call : RegisterCall} {live : LiveRegistrationSave}
      {native : NativeNodePersistence} (hphase : s.phase task = .guarded (.register call))
      (hbegin : beginNativeRegistration codec id call s.record s.native = .ok (live, native)) :
      SaveStep codec id s (.edit task) { s.setPhase task (.registered live) with
        record := live.after, native := some native }
  | stamp {task : Nat} {now : Int} (hidle : s.phase task = .idle) :
      SaveStep codec id s (.stamp task now) { s.setPhase task (.edited .disconnect) with
        record := { s.record with lastSeen := now } }
  | lockRead {task : Nat} {saver : Saver} (hfree : s.persist = none)
      (hphase : s.phase task = .edited saver) :
      SaveStep codec id s (.lock task) { s.setPhase task (.reading saver) with persist := some task }
  | lockExpiry {task : Nat} {expiry : Option Int} (hfree : s.persist = none)
      (hphase : s.phase task = .expiryEdited expiry) :
      SaveStep codec id s (.lock task)
        { s.setPhase task (.writingExpiry expiry) with persist := some task }
  | lockCommit {task : Nat} {live : LiveRegistrationSave} (hfree : s.persist = none)
      (hphase : s.phase task = .registered live) :
      SaveStep codec id s (.lock task) { s.setPhase task (.committing live) with persist := some task }
  | read {task : Nat} {saver : Saver} {node : CachedNodeSnapshot}
      (hphase : s.phase task = .reading saver)
      (hnode : snapshot codec id s.record s.native = .ok node) :
      SaveStep codec id s (.read task) (s.setPhase task (.writing saver ⟨node, s.record, s.native⟩))
  | remember {task : Nat} {saver : Saver} {fresh : FreshRead}
      (hphase : s.phase task = .writing saver fresh) (hrecord : s.record = fresh.record)
      (hnative : s.native = fresh.native) :
      SaveStep codec id s (.remember task)
        { s with native := some (.fromSnapshot fresh.record fresh.node fresh.native) }
  | write {task : Nat} {saver : Saver} {fresh : FreshRead} {db : Database}
      (hphase : s.phase task = .writing saver fresh)
      (hsaved : saveCachedNodeSnapshot s.db fresh.node.id fresh.node.columns = some db) :
      SaveStep codec id s (.write task false) { s.finish task .done with db := db }
  | writeExpiry {task : Nat} {expiry : Option Int} {signed : Int} {db : Database}
      (hphase : s.phase task = .writingExpiry expiry) (hid : toSigned id = some signed)
      (hsaved : saveCachedNodeExpiry s.db signed expiry = some db) :
      SaveStep codec id s (.write task false) { s.finish task .done with db := db }
  | commit {task : Nat} {refusals : Refusals} {live : LiveRegistrationSave} {db : Database}
      (hphase : s.phase task = .committing live)
      (hrun : live.commit.run refusals s.db live.registration = .ok db) :
      SaveStep codec id s (.commit task refusals) { s.finish task .done with db := db }
  | commitFailed {task : Nat} {refusals : Refusals} {live : LiveRegistrationSave}
      {error : RegistrationError} (hphase : s.phase task = .committing live) :
      SaveStep codec id s (.commit task refusals) (s.setPhase task (.failing live error))
  | rollback {task : Nat} {live : LiveRegistrationSave} {error : RegistrationError}
      (hphase : s.phase task = .failing live error) :
      SaveStep codec id s (.rollback task) { s.finish task (.failed (.registration error)) with
        record := live.before, native := live.nativeBefore }
  | keepEdit {task : Nat} {live : LiveRegistrationSave} {error : RegistrationError}
      (hphase : s.phase task = .failing live error)
      (hkept : ¬ (live.authKey = true ∧ s.record.nodeKeyHex = live.after.nodeKeyHex ∧
        s.record.machineKeyHex = live.after.machineKeyHex)) :
      SaveStep codec id s (.rollback task) (s.finish task (.failed (.registration error)))
  | fail {action : SaveAction} {task : Nat} {error : SaveError} (htask : action.task = task)
      (hphase : (∃ call, s.phase task = .guarded (.register call)) ∨
        (∃ saver, s.phase task = .reading saver) ∨
        (∃ saver fresh, s.phase task = .writing saver fresh) ∨
        ∃ expiry, s.phase task = .writingExpiry expiry) :
      SaveStep codec id s action (s.finish task (.failed error))

namespace SaveState

variable {codec : HostCodec} {id : Nat} {s s' : SaveState}

lemma edit_step {task : Nat} (h : s.edit codec id task = some s') :
    SaveStep codec id s (.edit task) s' := by
  unfold edit at h
  split at h
  · cases h
    exact .editExpiry ‹_›
  · rename_i mutation hkind hphase
    simp only at h
    split at h <;> cases h
    · exact .edit hphase hkind ‹_›
    · exact .editFailed hphase
  · cases h
    exact .approve ‹_›
  · rename_i hphase
    split at h <;> cases h
    · exact .register hphase ‹_›
    · exact .fail rfl (.inl ⟨_, hphase⟩)
  · cases h

lemma lock_step {task : Nat} (h : s.lock task = some s') : SaveStep codec id s (.lock task) s' := by
  unfold lock at h
  split at h
  · rename_i hfree
    split at h <;> cases h
    · exact .lockRead hfree ‹_›
    · exact .lockExpiry hfree ‹_›
    · exact .lockCommit hfree ‹_›
  · cases h

lemma write_step {task : Nat} {refused : Bool} (h : s.write id task refused = some s') :
    SaveStep codec id s (.write task refused) s' := by
  obtain ⟨saved, hsaved, rfl⟩ := Option.map_eq_some_iff.mp h
  split at hsaved
  · rename_i saver fresh hphase
    cases hsaved
    split
    · exact .write hphase ‹_›
    · exact .fail rfl (.inr (.inr (.inl ⟨_, _, hphase⟩)))
  · rename_i expiry hphase
    cases hsaved
    split
    · rename_i db hdb
      obtain ⟨signed, hid, hdb⟩ := Option.bind_eq_some_iff.mp hdb
      exact .writeExpiry hphase hid hdb
    · exact .fail rfl (.inr (.inr (.inr ⟨_, hphase⟩)))
  · cases hsaved

lemma apply_step {action : SaveAction} (h : s.apply codec id action = some s') :
    SaveStep codec id s action s' := by
  cases action with
  | begin task call =>
    simp only [apply, begin] at h
    split at h <;> cases h
    rename_i hguard
    exact .begin hguard.1 hguard.2
  | edit task => exact edit_step h
  | stamp task now =>
    simp only [apply, stamp] at h
    split at h <;> cases h
    exact .stamp ‹_›
  | lock task => exact lock_step h
  | read task =>
    simp only [apply, read] at h
    split at h
    · rename_i hphase
      split at h <;> cases h
      · exact .read hphase ‹_›
      · exact .fail rfl (.inr (.inl ⟨_, hphase⟩))
    · cases h
  | remember task =>
    simp only [apply, remember] at h
    split at h
    · rename_i hphase
      split at h <;> cases h
      rename_i hguard
      exact .remember hphase hguard.2.1 hguard.2.2
    · cases h
  | write task refused => exact write_step h
  | commit task refusals =>
    simp only [apply, commit] at h
    split at h
    · rename_i hphase
      split at h <;> cases h
      · exact .commit hphase ‹_›
      · exact .commitFailed hphase
    · cases h
  | rollback task =>
    simp only [apply, rollback] at h
    split at h
    · rename_i hphase
      split at h <;> cases h
      · exact .rollback hphase
      · exact .keepEdit hphase ‹_›
    · cases h

end SaveState

/-- A step leaves the phases of all other tasks. -/
theorem SaveStep.other {codec : HostCodec} {id r : Nat} {s s' : SaveState} {action : SaveAction}
    (h : SaveStep codec id s action s') (hne : r ≠ action.task) : s'.phase r = s.phase r := by
  cases h with
  | remember => rfl
  | @fail _ task error htask hphase =>
    subst htask
    exact Function.update_of_ne hne ..
  | begin | editExpiry | edit | editFailed | approve | register | stamp | lockRead | lockExpiry
  | lockCommit | read | write | writeExpiry | commit | commitFailed | rollback | keepEdit =>
    exact Function.update_of_ne hne ..

/-- A run leaves the phases of all tasks that do not act in it. -/
theorem SaveState.run_other {codec : HostCodec} {id r : Nat} {s s' : SaveState}
    {actions : List SaveAction} (hne : ∀ action ∈ actions, r ≠ action.task)
    (h : actions.foldlM (SaveState.apply codec id) s = some s') : s'.phase r = s.phase r := by
  induction actions generalizing s with
  | nil =>
    cases h
    rfl
  | cons action rest ih =>
    obtain ⟨hhead, hrest⟩ := List.forall_mem_cons.mp hne
    obtain ⟨mid, hmid, h⟩ := Option.bind_eq_some_iff.mp h
    exact (ih hrest h).trans ((apply_step hmid).other hhead)

/-! ## Locks -/

/-- The phases of a task that holds the machine's guard. -/
def SavePhase.guards : SavePhase → Bool
  | .guarded _ => true
  | .edited saver => saver ≠ .disconnect
  | .reading saver => saver ≠ .disconnect
  | .writing saver _ => saver ≠ .disconnect
  | .expiryEdited _ => true
  | .writingExpiry _ => true
  | .registered _ => true
  | .committing _ => true
  | .failing _ _ => true
  | _ => false

/-- The phases of a task that holds the persistence lock. -/
def SavePhase.persists : SavePhase → Bool
  | .reading _ => true
  | .writing _ _ => true
  | .writingExpiry _ => true
  | .committing _ => true
  | .failing _ _ => true
  | _ => false

/-- A lock is held by the task whose phase says so. -/
structure Locked (s : SaveState) : Prop where
  machine : ∀ task, (s.phase task).guards = true → s.machine = some task
  persist : ∀ task, (s.phase task).persists = true → s.persist = some task

namespace Locked

variable {codec : HostCodec} {id : Nat} {s s' : SaveState} {task : Nat} {phase : SavePhase}
  (h : Locked s)

include h

lemma guards_unique {other : Nat} (htask : (s.phase task).guards = true)
    (hother : (s.phase other).guards = true) : other = task :=
  Option.some.inj ((h.machine other hother).symm.trans (h.machine task htask))

lemma persists_unique {other : Nat} (htask : (s.phase task).persists = true)
    (hother : (s.phase other).persists = true) : other = task :=
  Option.some.inj ((h.persist other hother).symm.trans (h.persist task htask))

section

variable (hphase : s'.phase = Function.update s.phase task phase)

include hphase

/-- A task changes its phase and at most its own locks. -/
theorem update (hmachine : phase.guards = true → s'.machine = some task)
    (hmachines : ∀ other, other ≠ task → s.machine = some other → s'.machine = some other)
    (hpersist : phase.persists = true → s'.persist = some task)
    (hpersists : ∀ other, other ≠ task → s.persist = some other → s'.persist = some other) :
    Locked s' where
  machine := by
    rw [hphase]
    exact (Function.forall_update_iff _ fun task (phase : SavePhase) => phase.guards = true →
      s'.machine = some task).mpr ⟨hmachine, fun other hne => hmachines other hne ∘ h.machine other⟩
  persist := by
    rw [hphase]
    exact (Function.forall_update_iff _ fun task (phase : SavePhase) => phase.persists = true →
      s'.persist = some task).mpr ⟨hpersist, fun other hne => hpersists other hne ∘ h.persist other⟩

/-- The task keeps the locks it has. -/
theorem keep (hmachine : s'.machine = s.machine) (hpersist : s'.persist = s.persist)
    (hguards : phase.guards = true → (s.phase task).guards = true)
    (hpersists : phase.persists = true → (s.phase task).persists = true) : Locked s' := by
  refine h.update hphase ?_ (fun _ _ => hmachine.trans) ?_ fun _ _ => hpersist.trans
  · rw [hmachine]
    exact h.machine task ∘ hguards
  · rw [hpersist]
    exact h.persist task ∘ hpersists

/-- The task takes the persistence lock, which is free. -/
theorem lock (hmachine : s'.machine = s.machine) (hfree : s.persist = none)
    (hpersist : s'.persist = some task)
    (hguards : phase.guards = true → (s.phase task).guards = true) : Locked s' := by
  refine h.update hphase ?_ (fun _ _ => hmachine.trans) (fun _ => hpersist) (by simp [hfree])
  rw [hmachine]
  exact h.machine task ∘ hguards

/-- The task ends. -/
theorem finish (hmachine : s'.machine = if s.machine = some task then none else s.machine)
    (hpersist : s'.persist = if s.persist = some task then none else s.persist)
    (hguards : phase.guards = false) (hpersists : phase.persists = false) : Locked s' := by
  have hkept : ∀ (lock : Option Nat) (other : Nat), other ≠ task → lock = some other →
      (if lock = some task then none else lock) = some other := by
    rintro _ other hother rfl
    exact if_neg fun heq => hother (Option.some.inj heq)
  refine h.update hphase (by simp [hguards]) ?_ (by simp [hpersists]) ?_
  · rw [hmachine]
    exact hkept _
  · rw [hpersist]
    exact hkept _

end

lemma step {action : SaveAction} (hstep : SaveStep codec id s action s') : Locked s' := by
  cases hstep with
  | begin hidle hfree =>
    refine h.update rfl (fun _ => rfl) (fun other _ hother => ?_) nofun fun _ _ hother => hother
    rw [hfree] at hother
    cases hother
  | editExpiry hphase | edit hphase | approve hphase | register hphase =>
    exact h.keep rfl rfl rfl (fun _ => by rw [hphase]; rfl) nofun
  | stamp => exact h.keep rfl rfl rfl nofun nofun
  | lockRead hfree hphase | lockExpiry hfree hphase | lockCommit hfree hphase =>
    exact h.lock rfl rfl hfree rfl fun hguards => by rw [hphase]; exact hguards
  | read hphase =>
    exact h.keep rfl rfl rfl (fun hguards => by rw [hphase]; exact hguards)
      fun _ => by rw [hphase]; rfl
  | commitFailed hphase =>
    exact h.keep rfl rfl rfl (fun _ => by rw [hphase]; rfl) fun _ => by rw [hphase]; rfl
  | remember => exact ⟨h.machine, h.persist⟩
  | editFailed | write | writeExpiry | commit | rollback | keepEdit | fail =>
    exact h.finish rfl rfl rfl rfl rfl

end Locked

lemma locked_of_reachable {codec : HostCodec} {id : Nat} {start : SaveState → Prop}
    {allowed : SaveState → SaveAction → SaveState → Prop} {s : SaveState}
    (hstart : ∀ s, start s → ∀ task, s.phase task = .idle)
    (h : (nodeSaves codec id start).ReachableBy allowed s) : Locked s := by
  refine h.invariant (fun s hs => ?_) fun s action s' hinv hstep _ =>
    hinv.step (SaveState.apply_step hstep)
  constructor <;> intro task hholds <;> rw [hstart s hs task] at hholds <;> cases hholds

end Headscale.Node
