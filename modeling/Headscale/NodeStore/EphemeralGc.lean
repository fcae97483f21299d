import Headscale.NodeStore.Streams

/-!
# Collection of ephemeral nodes

An ephemeral node is deleted some time after its last session has ended. The end of the session sets a
timer, a new stream cancels it, and the task of the timer deletes the node if it is not cancelled in
time. All three may be under way at once. What keeps the task from deleting a node that has come back
is the registration lock of the machine: a map request holds it from the lookup of its node until the
timer is cancelled, and the task takes it before it claims the timer.

The model has any number of map requests and tasks, each with the step it is at, next to the steps of
the streams. Writers of other kinds either hold the lock of the machine whose nodes they add, change or
remove, or leave alone what binds a node: its key, its id, its machine and whether it is ephemeral. A
timer that is aborted is merely taken away here: its task goes on and finds that it may not.
-/

namespace Headscale.NodeStore

open Std Node List Option ExtTreeMap

/-! ## Timers -/

namespace Sessions

/-- `EphemeralNodeGc::cancel`. -/
def cancelTimer (sessions : Sessions) (key : String) : Sessions :=
  { sessions with
    ephemeralGc :=
      { sessions.ephemeralGc with timers := sessions.ephemeralGc.timers.erase key } }

/-- `EphemeralNodeGc::abort_all`. -/
def abortAll (sessions : Sessions) : Sessions :=
  { sessions with ephemeralGc := { sessions.ephemeralGc with timers := ∅, closed := true } }

/-- Installs a timer in place of the one before. -/
def installTimer (sessions : Sessions) (key : String) (timer : EphemeralGcTimer) : Sessions :=
  { sessions with
    ephemeralGc :=
      { sessions.ephemeralGc with
        timers := sessions.ephemeralGc.timers.insert key timer
        nextGeneration := sessions.ephemeralGc.nextGeneration + 1 } }

/-- The epoch a timer is set for: the one given, or else the current one. -/
def timerEpoch (sessions : Sessions) (id : Nat) : Option Nat → Sessions × Nat
  | some epoch => (sessions, epoch)
  | none => (sessions.openEpoch id, sessions.epochFor id)

/-- The next timer, for the node under a key. -/
def timerFor (sessions : Sessions) (key : String) (record : MachineRecord) (epoch : Nat) :
    EphemeralGcTimer :=
  { generation := sessions.ephemeralGc.nextGeneration
    nodeId := stableNodeIdForKey key record
    machineKeyHex := record.machineKeyHex
    epoch := some epoch }

/-- `EphemeralNodeGc::schedule_owned`, with the timer that is installed. -/
def scheduleOwned (sessions : Sessions) (key : String) (record : MachineRecord) (epoch : Option Nat) :
    Sessions × Option EphemeralGcTimer :=
  let id := stableNodeIdForKey key record
  if sessions.ephemeralGc.closed then (sessions, none)
  else if !record.ephemeral then (sessions.cancelTimer key, none)
  else if !sessions.streamEpochMatches id epoch then (sessions, none)
  else
    let (sessions, epoch) := sessions.timerEpoch id epoch
    if 0 < sessions.stateSessions[id]?.getD 0 then (sessions.cancelTimer key, none)
    else
      let timer := sessions.timerFor key record epoch
      (sessions.installTimer key timer, some timer)

end Sessions

namespace Registry

variable (registry : Registry)

/-- `EphemeralNodeGc::schedule`, which gives the node an epoch first. -/
def schedule (key : String) : Sessions × Option EphemeralGcTimer :=
  match registry.records[key]? with
  | none => (registry.sessions, none)
  | some record =>
    let id := stableNodeIdForKey key record
    (registry.sessions.openEpoch id).scheduleOwned key record (some (registry.sessions.epochFor id))

/-- `dispatch_state_disconnect`, with the key and the timer that is installed under it. -/
def dispatchStateDisconnect (id : Nat) (epoch : Option Nat) :
    Sessions × Option (String × EphemeralGcTimer) :=
  if !registry.sessions.streamEpochMatches id epoch then (registry.sessions, none)
  else
    match registry.records.findById id with
    | none => (registry.sessions, none)
    | some (key, record) =>
      let (sessions, timer) := registry.sessions.scheduleOwned key record epoch
      (sessions, timer.map (key, ·))

/-- The key of `ephemeral_node_key_by_id`. -/
def ephemeralNodeKeyById (id : Nat) : Option String :=
  (registry.records.toList.find? fun entry =>
    entry.2.ephemeral ∧ stableNodeIdForKey entry.1 entry.2 = id).map Prod.fst

end Registry

/-- The deletion of `try_delete_gc_owned`. -/
def gcDelete (key : String) (expected : EphemeralGcTimer) : Update NodeStoreBoolUpdateOutcome where
  run records sessions :=
    if sessions.streamEpochMatches expected.nodeId expected.epoch && expected.boundTo records key then
      { records := records.erase key, sessions := sessions, outcome := .quiet true }
    else { records := records, sessions := sessions, outcome := .unchanged false }
  grows records sessions := by
    split <;> exact .of_eq rfl rfl rfl

/-! ## Bindings -/

/-- What binds a record to its node. -/
structure Binding where
  id : Nat
  machineKeyHex : String
  ephemeral : Bool
deriving DecidableEq, Repr

def bindingOf (key : String) (record : MachineRecord) : Binding :=
  { id := stableNodeIdForKey key record
    machineKeyHex := record.machineKeyHex
    ephemeral := record.ephemeral }

namespace NodeMap

def bindingAt (records : NodeMap) (key : String) : Option Binding :=
  records[key]?.map (bindingOf key)

/-- No two keys have one id. -/
def UniqueIds (records : NodeMap) : Prop :=
  ∀ key key' b b', records.bindingAt key = some b → records.bindingAt key' = some b' →
    b.id = b'.id → key = key'

/-- An edit that moves no record, and leaves alone what binds it. -/
def SameBindings (records next : NodeMap) : Prop :=
  ∀ key, next.bindingAt key = records.bindingAt key

/-- A change of one machine's records. -/
def OnlyMachine (machine : String) (records next : NodeMap) : Prop :=
  ∀ key, next.bindingAt key = records.bindingAt key ∨
    (∀ b ∈ records.bindingAt key, b.machineKeyHex = machine) ∧
      ∀ b ∈ next.bindingAt key, b.machineKeyHex = machine

end NodeMap

/-! ## Processes -/

/-- Who may hold a registration lock. -/
inductive LockHolder where
  | request (index : Nat)
  | fire (index : Nat)
  /-- A registration or an admin mutation. -/
  | mutation (index : Nat)
deriving DecidableEq, Repr

inductive RequestPhase where
  | waiting
  | locked
  /-- The node is one of the machine. -/
  | validated
  /-- The node has been looked up for its stream. -/
  | ready (id : Nat)
  /-- The stream is acquired, the timer not yet cancelled. -/
  | acquired (id : Nat)
  | attached
  | finished
deriving DecidableEq, Repr

/-- A streaming request in `map_inner`. -/
structure MapRequest where
  nodeKeyHex : String
  machineKeyHex : String
  phase : RequestPhase := .waiting
deriving DecidableEq, Repr

inductive FirePhase where
  | sleeping
  | waiting (expected : EphemeralGcTimer)
  | locked (expected : EphemeralGcTimer)
  | claimed (expected : EphemeralGcTimer) (record : MachineRecord)
  | checked (expected : EphemeralGcTimer)
  | done
deriving DecidableEq

/-- The task of a timer. Its place in the list of tasks is the timer's generation. -/
structure FireTask where
  key : String
  /-- The timer it was set up for. -/
  timer : EphemeralGcTimer
  phase : FirePhase := .sleeping
deriving DecidableEq

structure GcState where
  streams : StreamState
  locks : ExtTreeMap String LockHolder := ∅
  requests : List MapRequest := []
  fires : List FireTask := []

inductive RequestAction where
  | lock
  | validate
  /-- A write of the request to its own node. -/
  | mutate (next : NodeMap)
  | lookup
  | acquire (closing : Bool) (now : Int)
  | finish
  /-- The end of the step under the lock, also by an error. -/
  | unlock

inductive FireAction where
  | wake
  | lock
  | claim
  | check
  /-- The store has failed to delete the node. -/
  | fail
  | delete

open Registry

inductive GcAction where
  | stream (a : StreamAction)
  | edit (next : NodeMap)
  | schedule (key : String)
  | dispatch (id : Nat) (epoch : Option Nat)
  | cancel (key : String)
  | abortAll
  | arrive (nodeKeyHex machineKeyHex : String)
  | request (index : Nat) (a : RequestAction)
  | lockMutation (index : Nat) (machineKeyHex : String)
  | mutate (index : Nat) (machineKeyHex : String) (next : NodeMap)
  | unlockMutation (index : Nat) (machineKeyHex : String)
  | fire (index : Nat) (a : FireAction)

namespace GcState

variable (s : GcState)

def registry : Registry := s.streams.registry

def records : NodeMap := s.streams.registry.records

def sessions : Sessions := s.streams.registry.sessions

def withSessions (sessions : Sessions) : GcState :=
  { s with streams := { s.streams with registry := { s.streams.registry with sessions := sessions } } }

/-- A write that publishes a map. -/
def write (next : NodeMap) : GcState :=
  { s with streams := { s.streams with registry := publish next s.sessions } }

def setRequest (index : Nat) (request : MapRequest) (phase : RequestPhase) : GcState :=
  { s with requests := s.requests.set index { request with phase := phase } }

def setFire (index : Nat) (task : FireTask) (phase : FirePhase) : GcState :=
  { s with fires := s.fires.set index { task with phase := phase } }

/-- A free lock is taken. -/
def lock (machine : String) (holder : LockHolder) : Option GcState :=
  if s.locks[machine]? = none then some { s with locks := s.locks.insert machine holder } else none

def unlock (machine : String) : GcState := { s with locks := s.locks.erase machine }

/-- The task of an installed timer. -/
def spawn (key : String) (timer : EphemeralGcTimer) : GcState :=
  { s with fires := s.fires ++ [{ key := key, timer := timer }] }

/-- The steps of the request are those of `map_inner` while it holds the lock. -/
def applyRequest (index : Nat) (request : MapRequest) : RequestAction → Option GcState
  | .lock =>
    if request.phase = .waiting then
      (s.lock request.machineKeyHex (.request index)).map (·.setRequest index request .locked)
    else none
  | .validate =>
    if request.phase = .locked then
      if s.records[request.nodeKeyHex]?.any (·.machineKeyHex = request.machineKeyHex) then
        some (s.setRequest index request .validated)
      else some ((s.unlock request.machineKeyHex).setRequest index request .finished)
    else none
  | .mutate next => if request.phase = .validated then some (s.write next) else none
  | .lookup =>
    if request.phase = .validated then
      match s.records[request.nodeKeyHex]? with
      | none => some ((s.unlock request.machineKeyHex).setRequest index request .finished)
      | some record =>
        some (s.setRequest index request (.ready (stableNodeIdForKey request.nodeKeyHex record)))
    else none
  | .acquire closing now =>
    match request.phase with
    | .ready id =>
      -- without a stream there is nothing to cancel
      some (({ s with streams := s.streams.acquire closing id now } : GcState).setRequest index request
        (if !closing && s.records.hasNode id then .acquired id else .attached))
    | _ => none
  | .finish =>
    match request.phase with
    | .acquired id =>
      let sessions := (s.registry.ephemeralNodeKeyById id).elim s.sessions s.sessions.cancelTimer
      some ((s.withSessions sessions).setRequest index request .attached)
    | _ => none
  | .unlock =>
    match request.phase with
    | .locked | .validated | .attached =>
      some ((s.unlock request.machineKeyHex).setRequest index request .finished)
    | _ => none

/-- The steps of `EphemeralNodeGc::fire`, without a store or with one that supports the deletion
under the lock. -/
def applyFire (index : Nat) (task : FireTask) : FireAction → Option GcState
  | .wake =>
    if task.phase = .sleeping then
      -- the timer may be cancelled, or another one be there in its place
      match s.sessions.ephemeralGc.timers[task.key]?.filter (·.generation = index) with
      | some timer =>
        some (s.setFire index task (if s.sessions.ephemeralGc.closed then .done else .waiting timer))
      | none => some (s.setFire index task .done)
    else none
  | .lock =>
    match task.phase with
    | .waiting expected =>
      (s.lock expected.machineKeyHex (.fire index)).map (·.setFire index task (.locked expected))
    | _ => none
  | .claim =>
    match task.phase with
    | .locked expected =>
      if s.sessions.ephemeralGc.timers[task.key]?.any (·.generation = index) then
        let claimed := s.withSessions (s.sessions.cancelTimer task.key)
        let kept := s.records[task.key]?.filter fun record =>
          !s.sessions.ephemeralGc.closed &&
            s.sessions.streamEpochMatches expected.nodeId expected.epoch &&
            record.machineKeyHex = expected.machineKeyHex &&
            stableNodeIdForKey task.key record = expected.nodeId
        match kept with
        | some record => some (claimed.setFire index task (.claimed expected record))
        | none => some ((claimed.unlock expected.machineKeyHex).setFire index task .done)
      else some ((s.unlock expected.machineKeyHex).setFire index task .done)
    | _ => none
  | .check =>
    match task.phase with
    | .claimed expected record =>
      let id := stableNodeIdForKey task.key record
      if 0 < s.sessions.activeConnections[id]?.getD 0 ∨ !record.ephemeral then
        some ((s.unlock expected.machineKeyHex).setFire index task .done)
      else some (s.setFire index task (.checked expected))
    | _ => none
  | .fail =>
    match task.phase with
    | .checked expected => some ((s.unlock expected.machineKeyHex).setFire index task .done)
    | _ => none
  | .delete =>
    match task.phase with
    | .checked expected =>
      let registry := (s.registry.applyNodestoreBoolUpdateDirect (gcDelete task.key expected)).1
      some ((({ s with streams := { s.streams with registry := registry } } : GcState).unlock
        expected.machineKeyHex).setFire index task .done)
    | _ => none

def apply : GcAction → Option GcState
  | .stream a => (s.streams.apply a).map fun streams => { s with streams := streams }
  | .edit next => some (s.write next)
  | .schedule key =>
    let (sessions, timer) := s.registry.schedule key
    some (timer.elim (s.withSessions sessions) ((s.withSessions sessions).spawn key))
  | .dispatch id epoch =>
    let (sessions, timer) := s.registry.dispatchStateDisconnect id epoch
    some (timer.elim (s.withSessions sessions) fun (key, timer) =>
      (s.withSessions sessions).spawn key timer)
  | .cancel key => some (s.withSessions (s.sessions.cancelTimer key))
  | .abortAll => some (s.withSessions s.sessions.abortAll)
  | .arrive nodeKey machine =>
    some { s with requests := s.requests ++ [{ nodeKeyHex := nodeKey, machineKeyHex := machine }] }
  | .request index a => s.requests[index]?.bind (s.applyRequest index · a)
  | .lockMutation index machine => s.lock machine (.mutation index)
  | .mutate index machine next =>
    if s.locks[machine]? = some (.mutation index) then some (s.write next) else none
  | .unlockMutation index machine =>
    if s.locks[machine]? = some (.mutation index) then some (s.unlock machine) else none
  | .fire index a => s.fires[index]?.bind (s.applyFire index · a)

end GcState

/-- The steps of streams that are part of other processes are left to these. -/
def StreamAction.Plain : StreamAction → Prop
  | .acquire .. | .write .. | .openEpoch .. => False
  | _ => True

/-- What the writers keep to. -/
def GcAction.Proper (s : GcState) : GcAction → Prop
  | .stream a => a.Plain
  | .edit next => s.records.SameBindings next
  | .request index (.mutate next) => ∀ request, s.requests[index]? = some request →
    s.records.OnlyMachine request.machineKeyHex next ∧ next.UniqueIds ∧
      ∃ b, next.bindingAt request.nodeKeyHex = some b ∧ b.machineKeyHex = request.machineKeyHex
  | .mutate _ machine next => s.records.OnlyMachine machine next ∧ next.UniqueIds
  | _ => True

/-- Runs start with nodes of different ids and nothing under way. -/
def collection : Machine.System GcState GcAction where
  init s := streams.init s.streams ∧ s.records.UniqueIds ∧ s.locks = ∅ ∧ s.requests = [] ∧ s.fires = []
  step s a s' := a.Proper s ∧ s.apply a = some s'

/-! ## What one step leaves to the others -/

/-- A step by one holder leaves the other holders their locks, the nodes of the machines they have
locked, and gives these no stream. -/
structure GcState.Frame (s s' : GcState) (actor : Option LockHolder) : Prop where
  locks : ∀ (machine : String) holder, some holder ≠ actor → s.locks[machine]? = some holder →
    s'.locks[machine]? = some holder
  bindings : ∀ (machine : String) holder key b, some holder ≠ actor →
    s.locks[machine]? = some holder → s.records.bindingAt key = some b → b.machineKeyHex = machine →
    s'.records.bindingAt key = some b
  active : ∀ (machine : String) holder key b, some holder ≠ actor →
    s.locks[machine]? = some holder → s.records.bindingAt key = some b → b.machineKeyHex = machine →
    s'.sessions.activeConnections[b.id]?.getD 0 ≤ s.sessions.activeConnections[b.id]?.getD 0

/-- What holds of a request at each of its steps. -/
def GcState.RequestOk (s : GcState) (index : Nat) (request : MapRequest) : Prop :=
  match request.phase with
  | .waiting | .finished => True
  | .locked | .attached => s.locks[request.machineKeyHex]? = some (.request index)
  | .validated => s.locks[request.machineKeyHex]? = some (.request index) ∧
    ∃ b, s.records.bindingAt request.nodeKeyHex = some b ∧ b.machineKeyHex = request.machineKeyHex
  | .ready id | .acquired id => s.locks[request.machineKeyHex]? = some (.request index) ∧
    ∃ b, s.records.bindingAt request.nodeKeyHex = some b ∧
      b.machineKeyHex = request.machineKeyHex ∧ b.id = id

/-- What a task knows of its node once it has claimed the timer. -/
structure GcState.Owns (s : GcState) (index : Nat) (task : FireTask) (b : Binding) : Prop where
  lock : s.locks[task.timer.machineKeyHex]? = some (.fire index)
  binding : s.records.bindingAt task.key = some b
  machine : b.machineKeyHex = task.timer.machineKeyHex
  id : b.id = task.timer.nodeId

/-- What holds of a task at each of its steps. -/
def GcState.FireOk (s : GcState) (index : Nat) (task : FireTask) : Prop :=
  match task.phase with
  | .sleeping | .done => True
  | .waiting expected => expected = task.timer
  | .locked expected =>
    expected = task.timer ∧ s.locks[task.timer.machineKeyHex]? = some (.fire index)
  | .claimed expected record => expected = task.timer ∧ s.Owns index task (bindingOf task.key record)
  | .checked expected => expected = task.timer ∧
    (∃ b, s.Owns index task b ∧ b.ephemeral = true) ∧
    s.sessions.activeConnections[task.timer.nodeId]?.getD 0 = 0

/-- Every timer is one that a task has been set up for. -/
structure GcTimers.Installed (gc : GcTimers) (installed : List EphemeralGcTimer) : Prop where
  generation : gc.nextGeneration = installed.length
  timers : ∀ (key : String) timer, gc.timers[key]? = some timer →
    installed[timer.generation]? = some timer
  epochs : ∀ timer ∈ installed, ∃ epoch, timer.epoch = some epoch

/-- The part of the invariant that is not about the processes. -/
structure GcState.Consistent (s : GcState) : Prop where
  streams : s.streams.Sound
  unique : s.records.UniqueIds
  installed : s.sessions.ephemeralGc.Installed (s.fires.map FireTask.timer)

/-- What holds in every state of a run. -/
structure GcState.Sound (s : GcState) : Prop extends s.Consistent where
  requests : ∀ index request, s.requests[index]? = some request → s.RequestOk index request
  fires : ∀ index task, s.fires[index]? = some task → s.FireOk index task

/-- What a holder has done before it notes how far it has come. -/
structure GcState.Step (s s' : GcState) (actor : Option LockHolder) : Prop where
  frame : s.Frame s' actor
  consistent : s'.Consistent
  requests : s'.requests = s.requests
  fires : s'.fires = s.fires

open GcState

/-- Where a new element is found. -/
theorem getElem?_concat_cases {α : Type} {l : List α} {x y : α} {i : Nat}
    (h : (l ++ [x])[i]? = some y) : l[i]? = some y ∨ i = l.length ∧ y = x := by
  rw [getElem?_append] at h
  split at h
  · exact .inl h
  obtain ⟨hlt, heq⟩ := List.getElem?_eq_some_iff.mp h
  rw [length_singleton, Nat.lt_one_iff] at hlt
  simp only [hlt] at heq
  exact .inr ⟨by omega, heq.symm⟩

namespace GcState

variable {s s' : GcState} {actor : Option LockHolder} {index : Nat}

/-- A step of which the streams take no part. -/
theorem Frame.of_locks (hstreams : s'.streams = s.streams)
    (hlocks : ∀ (machine : String) holder, some holder ≠ actor → s.locks[machine]? = some holder →
      s'.locks[machine]? = some holder) : s.Frame s' actor where
  locks := hlocks
  bindings _ _ key _ _ _ hb _ := by rwa [records, hstreams]
  active _ _ _ b _ _ _ _ := by rw [sessions, hstreams]; rfl

lemma Frame.requestOk (h : s.Frame s' actor) {request : MapRequest}
    (hother : some (.request index) ≠ actor)
    (hok : s.RequestOk index request) : s'.RequestOk index request := by
  unfold RequestOk at hok ⊢
  split at hok
  · trivial
  · trivial
  · exact h.locks _ _ hother hok
  · exact h.locks _ _ hother hok
  · obtain ⟨hlock, b, hb, hmachine⟩ := hok
    exact ⟨h.locks _ _ hother hlock, b, h.bindings _ _ _ _ hother hlock hb hmachine, hmachine⟩
  all_goals
    obtain ⟨hlock, b, hb, hmachine, hid⟩ := hok
    exact ⟨h.locks _ _ hother hlock, b, h.bindings _ _ _ _ hother hlock hb hmachine, hmachine, hid⟩

lemma Frame.owns (h : s.Frame s' actor) {task : FireTask} {b : Binding}
    (hother : some (.fire index) ≠ actor) (hok : s.Owns index task b) : s'.Owns index task b where
  lock := h.locks _ _ hother hok.lock
  binding := h.bindings _ _ _ _ hother hok.lock hok.binding hok.machine
  machine := hok.machine
  id := hok.id

lemma Frame.fireOk (h : s.Frame s' actor) {task : FireTask} (hother : some (.fire index) ≠ actor)
    (hok : s.FireOk index task) : s'.FireOk index task := by
  unfold FireOk at hok ⊢
  split at hok
  · trivial
  · trivial
  · exact hok
  · exact ⟨hok.1, h.locks _ _ hother hok.2⟩
  · exact ⟨hok.1, h.owns hother hok.2⟩
  obtain ⟨hexpected, ⟨b, howns, hephemeral⟩, hactive⟩ := hok
  refine ⟨hexpected, ⟨b, h.owns hother howns, hephemeral⟩, ?_⟩
  have hle := h.active _ _ _ _ hother howns.lock howns.binding howns.machine
  rw [howns.id] at hle
  omega

/-- It does not matter to a task what is noted of the processes. -/
theorem FireOk.noted {task : FireTask} (hok : s.FireOk index task) (requests : List MapRequest)
    (fires : List FireTask) :
    ({ s with requests := requests, fires := fires } : GcState).FireOk index task := by
  have hframe : s.Frame { s with requests := requests, fires := fires } none :=
    .of_locks rfl fun _ _ _ hlock => hlock
  exact hframe.fireOk (by simp) hok

/-- The invariant after a step of none of the processes. -/
theorem Sound.after (h : s.Sound) (hstep : s.Step s' actor)
    (hrequest : ∀ index, some (.request index) ≠ actor) (hfire : ∀ index, some (.fire index) ≠ actor) :
    s'.Sound where
  toConsistent := hstep.consistent
  requests index request hindex :=
    hstep.frame.requestOk (hrequest index) (h.requests index request (hstep.requests ▸ hindex))
  fires index task hindex :=
    hstep.frame.fireOk (hfire index) (h.fires index task (hstep.fires ▸ hindex))

lemma Sound.idle (h : s.Sound) (hstep : s.Step s' none) : s'.Sound :=
  h.after hstep (fun _ => by simp) fun _ => by simp

/-- The invariant after a step of a request. -/
theorem Sound.setRequest (h : s.Sound) (hstep : s.Step s' (some (.request index))) {request : MapRequest}
    {phase : RequestPhase} (hok : s'.RequestOk index { request with phase := phase }) :
    (s'.setRequest index request phase).Sound where
  streams := hstep.consistent.streams
  unique := hstep.consistent.unique
  installed := hstep.consistent.installed
  requests other entry hentry := by
    rw [GcState.setRequest, getElem?_set] at hentry
    split at hentry
    · next hsame =>
      subst hsame
      split at hentry <;> cases hentry
      exact hok
    · next hother =>
      refine hstep.frame.requestOk (by simpa using Ne.symm hother) (h.requests other entry ?_)
      rwa [← hstep.requests]
  fires other task htask :=
    (hstep.frame.fireOk (by simp) (h.fires other task (hstep.fires ▸ htask))).noted _ _

lemma map_timer_set {tasks : List FireTask} {task : FireTask} (htask : tasks[index]? = some task)
    (phase : FirePhase) :
    (tasks.set index { task with phase := phase }).map FireTask.timer = tasks.map FireTask.timer := by
  obtain ⟨hlt, rfl⟩ := List.getElem?_eq_some_iff.mp htask
  rw [map_set, ← getElem_map FireTask.timer (h := by simpa using hlt), set_getElem_self]

/-- The invariant after a step of a task. -/
theorem Sound.setFire (h : s.Sound) (hstep : s.Step s' (some (.fire index))) {task : FireTask}
    (htask : s.fires[index]? = some task) {phase : FirePhase}
    (hok : s'.FireOk index { task with phase := phase }) : (s'.setFire index task phase).Sound where
  streams := hstep.consistent.streams
  unique := hstep.consistent.unique
  installed := by
    have hinstalled := hstep.consistent.installed
    rw [← map_timer_set (hstep.fires ▸ htask) phase] at hinstalled
    exact hinstalled
  requests other entry hentry :=
    hstep.frame.requestOk (by simp) (h.requests other entry (hstep.requests ▸ hentry))
  fires other entry hentry := by
    rw [GcState.setFire, getElem?_set] at hentry
    split at hentry
    · next hsame =>
      subst hsame
      split at hentry <;> cases hentry
      exact hok.noted _ _
    · next hother =>
      refine (hstep.frame.fireOk (by simpa using Ne.symm hother) (h.fires other entry ?_)).noted _ _
      rwa [← hstep.fires]

end GcState

/-! ## Sessions that become fewer -/

/-- No timer is installed. -/
structure Sessions.InstallsNone (before after : Sessions) : Prop where
  timers : ∀ (key : String) timer, after.ephemeralGc.timers[key]? = some timer →
    before.ephemeralGc.timers[key]? = some timer
  generation : after.ephemeralGc.nextGeneration = before.ephemeralGc.nextGeneration

/-- No stream is added and no timer is installed. -/
structure Sessions.Lessens (before after : Sessions) : Prop extends before.InstallsNone after where
  active : ∀ id : Nat, after.activeConnections[id]?.getD 0 ≤ before.activeConnections[id]?.getD 0

lemma Sessions.InstallsNone.installed {before after : Sessions} (h : before.InstallsNone after)
    {timers : List EphemeralGcTimer} (hinstalled : before.ephemeralGc.Installed timers) :
    after.ephemeralGc.Installed timers where
  generation := h.generation.trans hinstalled.generation
  timers key timer htimer := hinstalled.timers key timer (h.timers key timer htimer)
  epochs := hinstalled.epochs

open Sessions

lemma Sessions.InstallsNone.trans {before middle after : Sessions} (h : before.InstallsNone middle)
    (h' : middle.InstallsNone after) : before.InstallsNone after where
  timers key timer htimer := h.timers key timer (h'.timers key timer htimer)
  generation := h'.generation.trans h.generation

namespace Sessions.Lessens

variable {before middle after : Sessions}

lemma of_eq (hactive : after.activeConnections = before.activeConnections)
    (htimers : after.ephemeralGc = before.ephemeralGc) : before.Lessens after where
  active _ := by rw [hactive]
  timers _ _ h := htimers ▸ h
  generation := by rw [htimers]

lemma trans (h : before.Lessens middle) (h' : middle.Lessens after) : before.Lessens after where
  toInstallsNone := h.toInstallsNone.trans h'.toInstallsNone
  active id := (h'.active id).trans (h.active id)

lemma retired (before : Sessions) (records : NodeMap) :
    before.Lessens (before.retireAbsentStreamState records) where
  active id := by
    rw [retired_active]
    split
    · exact Nat.zero_le _
    · exact le_rfl
  timers key timer htimer := by
    rw [retired_gc, GcTimers.retireAbsentTimers, getElem?_filter',
      filter_eq_some_iff] at htimer
    exact htimer.1
  generation := by rw [retired_gc, GcTimers.retireAbsentTimers]

/-- What a direct update does on top of its own run. -/
theorem of_run {ω : Type} (publish : ω → Bool) (update : Update ω) (registry : Registry) :
    (update.run registry.records registry.sessions).sessions.Lessens
      (registry.applyNodestoreUpdateDirect publish update).1.sessions := by
  rw [applyNodestoreUpdateDirect]
  split
  · exact .retired _ _
  · exact .of_eq rfl rfl

lemma updateDirect {ω : Type} {publish : ω → Bool} {update : Update ω} {registry : Registry}
    (h : registry.sessions.Lessens (update.run registry.records registry.sessions).sessions) :
    registry.sessions.Lessens (registry.applyNodestoreUpdateDirect publish update).1.sessions :=
  h.trans (.of_run publish update registry)

end Sessions.Lessens

namespace NodeMap

variable {records next : NodeMap}

lemma SameBindings.refl (records : NodeMap) : records.SameBindings records := fun _ => rfl

lemma SameBindings.uniqueIds (h : records.SameBindings next) (hunique : records.UniqueIds) :
    next.UniqueIds := by
  intro key key' b b' hb hb' hid
  rw [h] at hb hb'
  exact hunique key key' b b' hb hb' hid

/-- The record under a key is replaced by one that is bound in the same way. -/
theorem sameBindings_insert {key : String} {record edited : MachineRecord}
    (hrecord : records[key]? = some record) (hedited : bindingOf key edited = bindingOf key record) :
    records.SameBindings (records.insert key edited) := by
  intro other
  rw [bindingAt, bindingAt, ExtTreeMap.getElem?_insert]
  by_cases hkey : key = other
  · subst hkey
    simp [hrecord, hedited]
  · simp [hkey]

/-- The nodes of the other machines stay. -/
theorem OnlyMachine.other {machine : String} (h : records.OnlyMachine machine next) {key : String}
    {b : Binding} (hb : records.bindingAt key = some b) (hother : b.machineKeyHex ≠ machine) :
    next.bindingAt key = some b := by
  obtain hsame | ⟨hbefore, -⟩ := h key
  · rw [hsame, hb]
  · exact absurd (hbefore b hb) hother

end NodeMap

lemma Registry.updateDirect_bindings {ω : Type} {publish : ω → Bool} {update : Update ω}
    {registry : Registry}
    (h : registry.records.SameBindings (update.run registry.records registry.sessions).records) :
    registry.records.SameBindings (registry.applyNodestoreUpdateDirect publish update).1.records := by
  rw [applyNodestoreUpdateDirect]
  split
  · exact h
  · exact .refl _

open NodeMap

lemma editExpiry_bindings {found : Option (String × MachineRecord)} {records : NodeMap}
    (hfound : ∀ entry ∈ found, records[entry.1]? = some entry.2) (expiry : Option Int) (now : Int)
    (sessions : Sessions) :
    records.SameBindings (editExpiry found expiry now records sessions).records := by
  cases found with
  | none => exact .refl _
  | some entry => exact sameBindings_insert (hfound entry rfl) rfl

lemma editExpiry_lessens (found : Option (String × MachineRecord)) (records : NodeMap)
    (expiry : Option Int) (now : Int) (sessions : Sessions) :
    sessions.Lessens (editExpiry found expiry now records sessions).sessions := by
  cases found with
  | none | some => exact .of_eq rfl rfl

/-- A count that is put lower. -/
theorem getD_insert_le {field : ExtTreeMap Nat Nat} {id count : Nat} (h : count ≤ field[id]?.getD 0)
    (k : Nat) : (field.insert id count)[k]?.getD 0 ≤ field[k]?.getD 0 := by
  rw [ExtTreeMap.getElem?_insert]
  by_cases hk : id = k
  · simpa [hk] using hk ▸ h
  · simp [hk]

lemma getD_erase_le (field : ExtTreeMap Nat Nat) (id k : Nat) :
    (field.erase id)[k]?.getD 0 ≤ field[k]?.getD 0 := by
  rw [getElem?_erase]
  by_cases hk : id = k <;> simp [hk]

lemma releaseStreamConnection_lessens (sessions : Sessions) (id epoch : Nat) (now : Int) :
    sessions.Lessens (sessions.releaseStreamConnection id epoch now).1 := by
  rw [releaseStreamConnection]
  split
  · exact .of_eq rfl rfl
  split
  · exact .of_eq rfl rfl
  next count hcount =>
  exact
    { active := getD_insert_le (by rw [hcount, getD_some]; omega)
      timers := fun _ _ h => h
      generation := rfl }

lemma releaseStateSession_lessens (id : Nat) (epoch : Option Nat) (now : Int) (records : NodeMap)
    (sessions : Sessions) :
    sessions.Lessens (releaseStateSession id epoch now records sessions).sessions := by
  rw [releaseStateSession]
  split
  · exact .of_eq rfl rfl
  split
  · exact .of_eq rfl rfl
  dsimp only
  split <;> exact .of_eq rfl rfl

lemma releaseStateSession_bindings (id : Nat) (epoch : Option Nat) (now : Int) (records : NodeMap)
    (sessions : Sessions) :
    records.SameBindings (releaseStateSession id epoch now records sessions).records := by
  rw [releaseStateSession]
  split
  · exact .refl _
  split
  · exact .refl _
  next hfound =>
  dsimp only
  split
  · exact .refl _
  · exact sameBindings_insert (findById_eq_some hfound).1 rfl

lemma cleanupNode_lessens (threshold now : Int) (sessions : Sessions) (id : Nat) :
    sessions.Lessens (sessions.cleanupNode threshold now id) := by
  rw [cleanupNode]
  split
  · exact .of_eq rfl rfl
  split
  · exact .of_eq rfl rfl
  split
  · exact .of_eq rfl rfl
  exact
    { active := getD_erase_le _ id
      timers := fun _ _ h => h
      generation := rfl }

lemma cleanup_lessens (sessions : Sessions) (candidates : List Nat) (threshold now : Int) :
    sessions.Lessens (sessions.cleanupOfflineConnections candidates threshold now) := by
  induction candidates generalizing sessions with
  | nil => exact .of_eq rfl rfl
  | cons id candidates ih => exact (cleanupNode_lessens threshold now sessions id).trans (ih _)

/-- The steps of streams that hold no lock add nothing and move no node. -/
theorem StreamState.plain_step {t t' : StreamState} {a : StreamAction} (ha : a.Plain)
    (hstep : t.apply a = some t') :
    t.registry.records.SameBindings t'.registry.records ∧ t.sessions.Lessens t'.sessions := by
  cases a with
  | acquire | write | openEpoch => exact ha.elim
  | unlink guard now =>
    obtain ⟨entry, -, hstep⟩ := bind_eq_some_iff.mp hstep
    split at hstep <;> cases hstep
    exact ⟨.refl _, releaseStreamConnection_lessens t.sessions _ _ now⟩
  | forget guard =>
    obtain ⟨entry, -, hstep⟩ := bind_eq_some_iff.mp hstep
    split at hstep <;> cases hstep
    exact ⟨.refl _, .of_eq rfl rfl⟩
  | release guard now =>
    obtain ⟨entry, -, hstep⟩ := bind_eq_some_iff.mp hstep
    split at hstep <;> cases hstep
    exact ⟨updateDirect_bindings (releaseStateSession_bindings _ _ _ _ _),
      .updateDirect (releaseStateSession_lessens ..)⟩
  | setNodeExpiry id expiry now =>
    cases hstep
    refine ⟨updateDirect_bindings (editExpiry_bindings (fun entry hentry => ?_) expiry now _),
      .updateDirect (editExpiry_lessens ..)⟩
    exact (findById_eq_some hentry).1
  | setExpiry key expiry now =>
    cases hstep
    refine ⟨updateDirect_bindings (editExpiry_bindings (fun entry hentry => ?_) expiry now _),
      .updateDirect (editExpiry_lessens ..)⟩
    obtain ⟨record, hrecord, rfl⟩ := map_eq_some_iff.mp hentry
    exact hrecord
  | expire needsPeerRecompute candidates lastCheck now =>
    cases hstep
    exact ⟨updateDirect_bindings (.refl _), .updateDirect (.of_eq rfl rfl)⟩
  | cleanup candidates threshold now =>
    cases hstep
    exact ⟨.refl _, cleanup_lessens t.sessions candidates threshold now⟩

lemma acquireStream_bindings (closing : Bool) (id flag : Nat) (now : Int) (records : NodeMap)
    (sessions : Sessions) :
    records.SameBindings (acquireStream closing id flag now records sessions).records := by
  rw [acquireStream]
  split
  · exact .refl _
  split <;> exact .refl _

/-! ## Frames of the steps -/

namespace GcState

variable {s s' middle : GcState} {actor : Option LockHolder} {holder : LockHolder} {machine : String}
  {index : Nat}

lemma Frame.trans (h : s.Frame middle actor) (h' : middle.Frame s' actor) : s.Frame s' actor where
  locks _ _ hother hlock := h'.locks _ _ hother (h.locks _ _ hother hlock)
  bindings _ _ _ _ hother hlock hb hmachine :=
    h'.bindings _ _ _ _ hother (h.locks _ _ hother hlock)
      (h.bindings _ _ _ _ hother hlock hb hmachine) hmachine
  active _ _ _ _ hother hlock hb hmachine :=
    (h'.active _ _ _ _ hother (h.locks _ _ hother hlock)
      (h.bindings _ _ _ _ hother hlock hb hmachine) hmachine).trans
      (h.active _ _ _ _ hother hlock hb hmachine)

/-- A step that needs no lock. -/
theorem Frame.of_lessens (hlocks : s'.locks = s.locks) (hbindings : s.records.SameBindings s'.records)
    (hlessens : s.sessions.Lessens s'.sessions) : s.Frame s' actor where
  locks _ _ _ hlock := by rwa [hlocks]
  bindings _ _ key _ _ _ hb _ := by rwa [hbindings key]
  active _ _ _ b _ _ _ _ := hlessens.active b.id

lemma lock_spec (hlock : s.lock machine holder = some s') : s.locks[machine]? = none ∧
    s' = { s with locks := s.locks.insert machine holder } ∧ s'.locks[machine]? = some holder := by
  rw [lock] at hlock
  split at hlock <;> cases hlock
  exact ⟨‹_›, rfl, by simp⟩

lemma Frame.lock (hlock : s.lock machine holder = some s') : s.Frame s' actor := by
  obtain ⟨hfree, rfl, -⟩ := lock_spec hlock
  refine .of_locks rfl fun other p _ hp => ?_
  rw [ExtTreeMap.getElem?_insert]
  split
  · next hsame =>
    rw [Std.compare_eq_iff_eq] at hsame
    rw [← hsame, hfree] at hp
    cases hp
  · exact hp

lemma Frame.unlock (hlock : s.locks[machine]? = some holder) :
    s.Frame (s.unlock machine) (some holder) := by
  refine .of_locks rfl fun other p hother hp => ?_
  rw [GcState.unlock, getElem?_erase]
  split
  · next hsame =>
    rw [Std.compare_eq_iff_eq] at hsame
    rw [← hsame, hlock] at hp
    exact absurd hp.symm hother
  · exact hp

/-- A write to the nodes of a machine whose lock is held. -/
theorem Frame.write (hlock : s.locks[machine]? = some holder) (hlocks : s'.locks = s.locks)
    (honly : s.records.OnlyMachine machine s'.records) (hlessens : s.sessions.Lessens s'.sessions) :
    s.Frame s' (some holder) where
  locks _ _ _ hlock := by rwa [hlocks]
  bindings other p key b hother hp hb hmachine := by
    refine honly.other hb ?_
    rintro rfl
    rw [hmachine, hp] at hlock
    exact hother hlock
  active _ _ _ b _ _ _ _ := hlessens.active b.id

variable {request : MapRequest} {key : String} {id : Nat}

/-- The stream of a request is one of a node that nobody else has locked. -/
theorem Frame.acquire (h : s.Consistent)
    (hok : s.RequestOk index { request with phase := .ready id }) (closing : Bool) (now : Int) :
    s.Frame { s with streams := s.streams.acquire closing id now } (some (.request index)) := by
  obtain ⟨hlock, b, hb, hmachine, hid⟩ := hok
  have hforeign : ∀ (machine : String) holder key b', some holder ≠ some (.request index) →
      s.locks[machine]? = some holder → s.records.bindingAt key = some b' →
      b'.machineKeyHex = machine → id ≠ b'.id := by
    intro machine holder key b' hother hholder hb' hmachine' hsame
    -- one id belongs to one key, and this one to the machine of the request
    obtain rfl : key = request.nodeKeyHex := h.unique _ _ b' b hb' hb (hid.trans hsame).symm
    cases hb.symm.trans hb'
    rw [← hmachine', hmachine, hlock] at hholder
    exact hother hholder.symm
  have hrun := Sessions.Lessens.of_run NodeStoreBoolUpdateOutcome.publishSnapshot
    (acquisition closing id s.streams.guards.length now) s.registry
  have hcount : ∀ k, id ≠ k →
      (acquireStream closing id s.streams.guards.length now s.records
        s.sessions).sessions.activeConnections[k]?.getD 0 ≤
        s.sessions.activeConnections[k]?.getD 0 := by
    intro k hk
    rw [acquireStream]
    split
    · exact le_rfl
    split
    · exact le_rfl
    · simp only [Sessions.acquire, ExtTreeMap.getElem?_insert, Std.compare_eq_iff_eq, hk,
        Sessions.openEpoch_eq Sessions.activeConnections fun _ _ _ => rfl]
      exact le_rfl
  refine ⟨fun _ _ _ hlock => hlock, fun _ _ key _ _ _ hb _ => ?_, ?_⟩
  · rw [← hb]
    exact updateDirect_bindings (acquireStream_bindings _ _ _ _ _ _) key
  · intro machine holder key b' hother hholder hb' hmachine'
    exact (hrun.active b'.id).trans (hcount _ (hforeign _ _ _ _ hother hholder hb' hmachine'))

/-! ## Steps -/

lemma Step.refl (h : s.Consistent) : s.Step s actor where
  frame := .of_locks rfl fun _ _ _ h => h
  consistent := h
  requests := rfl
  fires := rfl

lemma Step.trans (h : s.Step middle actor) (h' : middle.Step s' actor) : s.Step s' actor where
  frame := h.frame.trans h'.frame
  consistent := h'.consistent
  requests := h'.requests.trans h.requests
  fires := h'.fires.trans h.fires

section

variable (h : s.Consistent)

include h

lemma Step.lock (hlock : s.lock machine holder = some s') : s.Step s' actor := by
  have hframe : s.Frame s' actor := .lock hlock
  obtain ⟨-, rfl, -⟩ := lock_spec hlock
  exact ⟨hframe, ⟨h.streams, h.unique, h.installed⟩, rfl, rfl⟩

lemma Step.unlock (hlock : s.locks[machine]? = some holder) :
    s.Step (s.unlock machine) (some holder) where
  frame := .unlock hlock
  consistent := ⟨h.streams, h.unique, h.installed⟩
  requests := rfl
  fires := rfl

/-- Nothing but timers is taken away. -/
theorem Step.withTimers {gc : GcTimers}
    (hgc : s.sessions.InstallsNone { s.sessions with ephemeralGc := gc }) :
    s.Step (s.withSessions { s.sessions with ephemeralGc := gc }) actor where
  frame := .of_lessens rfl (.refl _) { hgc with active := fun _ => le_rfl }
  consistent :=
    { streams :=
        { settled := ⟨h.streams.settled.live, fun key timer htimer =>
            h.streams.settled.bound key timer (hgc.timers key timer htimer)⟩
          counted := { h.streams.counted with } }
      unique := h.unique
      installed := hgc.installed h.installed }
  requests := rfl
  fires := rfl

lemma Step.cancelTimer (key : String) :
    s.Step (s.withSessions (s.sessions.cancelTimer key)) actor := by
  exact .withTimers h ⟨fun other timer htimer => (TreeMap.getElem?_of_erase htimer).2, rfl⟩

/-- A write under the lock of the machine. -/
theorem Step.write (hlock : s.locks[machine]? = some holder) {next : NodeMap}
    (honly : s.records.OnlyMachine machine next) (hunique : next.UniqueIds) :
    s.Step (s.write next) (some holder) where
  frame := .write hlock rfl honly (.retired _ _)
  consistent :=
    { streams := ⟨settled_retired _ _, h.streams.counted.retired _⟩
      unique := hunique
      installed := (Sessions.Lessens.retired s.sessions next).installed h.installed }
  requests := rfl
  fires := rfl

lemma Step.edit {next : NodeMap} (hsame : s.records.SameBindings next) :
    s.Step (s.write next) actor where
  frame := .of_lessens rfl hsame (.retired _ _)
  consistent :=
    { streams := ⟨settled_retired _ _, h.streams.counted.retired _⟩
      unique := hsame.uniqueIds h.unique
      installed := (Sessions.Lessens.retired s.sessions next).installed h.installed }
  requests := rfl
  fires := rfl

lemma Step.stream {a : StreamAction} (ha : a.Plain) {streams : StreamState}
    (hstep : s.streams.apply a = some streams) : s.Step { s with streams := streams } actor := by
  obtain ⟨hbindings, hlessens⟩ := StreamState.plain_step ha hstep
  exact
    { frame := .of_lessens rfl hbindings hlessens
      consistent :=
        ⟨StreamState.sound_step h.streams hstep, hbindings.uniqueIds h.unique,
          hlessens.installed h.installed⟩
      requests := rfl
      fires := rfl }

lemma Step.acquire (hok : s.RequestOk index { request with phase := .ready id })
    (closing : Bool) (now : Int) :
    s.Step { s with streams := s.streams.acquire closing id now } (some (.request index)) := by
  have htimers : s.sessions.InstallsNone (acquireStream closing id s.streams.guards.length now s.records
      s.sessions).sessions := by
    have hsame := (acquireStream_grows closing id s.streams.guards.length now s.records s.sessions).timers
    exact ⟨fun _ _ htimer => hsame ▸ htimer, by rw [hsame]⟩
  have hrun := Sessions.Lessens.of_run NodeStoreBoolUpdateOutcome.publishSnapshot
    (acquisition closing id s.streams.guards.length now) s.registry
  exact
    { frame := .acquire h hok closing now
      consistent :=
        { streams := h.streams.acquire closing id now
          unique := NodeMap.SameBindings.uniqueIds
            (updateDirect_bindings (acquireStream_bindings _ _ _ _ _ _)) h.unique
          installed := (htimers.trans hrun.toInstallsNone).installed h.installed }
      requests := rfl
      fires := rfl }

end

lemma bindingAt_of_record {records : NodeMap} {record : MachineRecord}
    (hrecord : records[key]? = some record) : records.bindingAt key = some (bindingOf key record) := by
  rw [bindingAt, hrecord, map_some]

lemma onlyMachine_erase {records : NodeMap} {b : Binding} (hb : records.bindingAt key = some b) :
    records.OnlyMachine b.machineKeyHex (records.erase key) := by
  intro other
  rw [bindingAt, getElem?_erase]
  by_cases hkey : key = other
  · subst hkey
    refine .inr ⟨fun b' hb' => ?_, by simp⟩
    rw [mem_def, hb] at hb'
    rw [← Option.some.inj hb']
  · exact .inl (by simp [hkey, bindingAt])

lemma uniqueIds_erase {records : NodeMap} (h : records.UniqueIds) (key : String) :
    NodeMap.UniqueIds (records.erase key) := by
  have hsub : ∀ other b, bindingAt (records.erase key) other = some b →
      records.bindingAt other = some b := by
    intro other b hb
    obtain ⟨record, hrecord, rfl⟩ := map_eq_some_iff.mp hb
    exact bindingAt_of_record (TreeMap.getElem?_of_erase hrecord).2
  exact fun key key' b b' hb hb' => h key key' b b' (hsub key b hb) (hsub key' b' hb')

lemma gcDelete_run (key : String) (expected : EphemeralGcTimer) (registry : Registry) :
    (registry.applyNodestoreBoolUpdateDirect (gcDelete key expected)).1 = registry ∨
    registry.sessions.streamEpochMatches expected.nodeId expected.epoch = true ∧
      expected.boundTo registry.records key = true ∧
      (registry.applyNodestoreBoolUpdateDirect (gcDelete key expected)).1 =
        publish (registry.records.erase key) registry.sessions := by
  rw [applyNodestoreBoolUpdateDirect, applyNodestoreUpdateDirect, gcDelete]
  dsimp only
  split
  · next hcurrent =>
    rw [Bool.and_eq_true] at hcurrent
    exact .inr ⟨hcurrent.1, hcurrent.2, rfl⟩
  · exact .inl rfl

/-- The deletion of a node whose machine is locked by the task. -/
theorem Step.delete (h : s.Consistent) {task : FireTask} {b : Binding} (howns : s.Owns index task b)
    (expected : EphemeralGcTimer) :
    s.Step { s with streams := { s.streams with
      registry := (s.registry.applyNodestoreBoolUpdateDirect (gcDelete task.key expected)).1 } }
      (some (.fire index)) := by
  obtain hsame | ⟨-, -, hdelete⟩ := gcDelete_run task.key expected s.registry
  · rw [hsame]
    exact .refl h
  · rw [hdelete]
    exact .write h howns.lock (howns.machine ▸ onlyMachine_erase howns.binding)
      (uniqueIds_erase h.unique task.key)

/-! ## The invariant is kept -/

lemma setRequest_same (hrequest : s.requests[index]? = some request) :
    s.setRequest index request request.phase = s := by
  obtain ⟨hlt, rfl⟩ := List.getElem?_eq_some_iff.mp hrequest
  rw [setRequest, set_getElem_self]

lemma sound_request (h : s.Sound) (hrequest : s.requests[index]? = some request)
    {a : RequestAction} (hproper : (GcAction.request index a).Proper s)
    (hstep : s.applyRequest index request a = some s') : s'.Sound := by
  have hok := h.requests index request hrequest
  have hc := h.toConsistent
  unfold RequestOk at hok
  cases a with
  | lock =>
    rw [applyRequest] at hstep
    split at hstep
    · obtain ⟨locked, hlock, rfl⟩ := map_eq_some_iff.mp hstep
      exact h.setRequest (.lock hc hlock) (lock_spec hlock).2.2
    · cases hstep
  | validate =>
    rw [applyRequest] at hstep
    split at hstep
    · next hphase =>
      rw [hphase] at hok
      split at hstep
      · next hvalid =>
        cases hstep
        obtain ⟨record, hrecord, hmachine⟩ := (Option.any_eq_true _ _).mp hvalid
        exact h.setRequest (.refl hc)
          ⟨hok, _, bindingAt_of_record hrecord, of_decide_eq_true hmachine⟩
      · cases hstep
        exact h.setRequest (.unlock hc hok) trivial
    · cases hstep
  | mutate next =>
    rw [applyRequest] at hstep
    split at hstep <;> cases hstep
    rename_i hphase
    rw [hphase] at hok
    obtain ⟨honly, hunique, b, hb, hmachine⟩ := hproper request hrequest
    rw [← setRequest_same (s := s.write next) hrequest, hphase]
    exact h.setRequest (.write hc hok.1 honly hunique) ⟨hok.1, b, hb, hmachine⟩
  | lookup =>
    rw [applyRequest] at hstep
    split at hstep
    · next hphase =>
      rw [hphase] at hok
      obtain ⟨hlock, b, hb, hmachine⟩ := hok
      split at hstep
      · cases hstep
        exact h.setRequest (.unlock hc hlock) trivial
      · next record hrecord =>
        cases hstep
        cases hb.symm.trans (bindingAt_of_record hrecord)
        exact h.setRequest (.refl hc) ⟨hlock, _, hb, hmachine, rfl⟩
    · cases hstep
  | acquire closing now =>
    rw [applyRequest] at hstep
    split at hstep <;> cases hstep
    rename_i id hphase
    rw [hphase] at hok
    have hready : s.RequestOk index { request with phase := .ready id } := hok
    refine h.setRequest (.acquire hc hready closing now) ?_
    obtain ⟨hlock, b, hb, hmachine, hid⟩ := hok
    split
    · refine ⟨hlock, b, ?_, hmachine, hid⟩
      rw [← hb]
      exact updateDirect_bindings (acquireStream_bindings _ _ _ _ _ _) request.nodeKeyHex
    · exact hlock
  | finish =>
    rw [applyRequest] at hstep
    split at hstep <;> cases hstep
    rename_i id hphase
    rw [hphase] at hok
    cases s.registry.ephemeralNodeKeyById id with
    | none => exact h.setRequest (.refl hc) hok.1
    | some key => exact h.setRequest (.cancelTimer hc key) hok.1
  | unlock =>
    rw [applyRequest] at hstep
    split at hstep <;> cases hstep <;> rename_i hphase <;> rw [hphase] at hok
    · exact h.setRequest (.unlock hc hok) trivial
    · exact h.setRequest (.unlock hc hok.1) trivial
    · exact h.setRequest (.unlock hc hok) trivial

/-- The timer that a task finds under its generation is its own. -/
theorem Consistent.own_timer (h : s.Consistent) {task : FireTask} (htask : s.fires[index]? = some task)
    {timer : EphemeralGcTimer} (htimer : s.sessions.ephemeralGc.timers[task.key]? = some timer)
    (hgeneration : timer.generation = index) : timer = task.timer := by
  have hinstalled := h.installed.timers task.key timer htimer
  rw [hgeneration, getElem?_map, htask] at hinstalled
  exact (Option.some.inj hinstalled).symm

lemma sound_fire (h : s.Sound) {task : FireTask} (htask : s.fires[index]? = some task)
    {a : FireAction} (hstep : s.applyFire index task a = some s') : s'.Sound := by
  have hok := h.fires index task htask
  have hc := h.toConsistent
  unfold FireOk at hok
  cases a with
  | wake =>
    rw [applyFire] at hstep
    split at hstep
    · split at hstep
      · next timer htimer =>
        cases hstep
        obtain ⟨hpresent, hgeneration⟩ := filter_eq_some_iff.mp htimer
        refine h.setFire (.refl hc) htask ?_
        split
        · trivial
        · exact hc.own_timer htask hpresent (of_decide_eq_true hgeneration)
      · cases hstep
        exact h.setFire (.refl hc) htask trivial
    · cases hstep
  | lock =>
    rw [applyFire] at hstep
    split at hstep
    · next expected hphase =>
      rw [hphase] at hok
      obtain ⟨locked, hlock, rfl⟩ := map_eq_some_iff.mp hstep
      obtain rfl : expected = task.timer := hok
      exact h.setFire (.lock hc hlock) htask ⟨rfl, (lock_spec hlock).2.2⟩
    · cases hstep
  | claim =>
    rw [applyFire] at hstep
    split at hstep
    · next expected hphase =>
      rw [hphase] at hok
      obtain ⟨rfl, hlock⟩ := hok
      have hcancel : s.Step (s.withSessions (s.sessions.cancelTimer task.key)) (some (.fire index)) :=
        .cancelTimer hc task.key
      split at hstep
      · dsimp only at hstep
        split at hstep
        · next record hkept =>
          cases hstep
          obtain ⟨hrecord, hcurrent⟩ := filter_eq_some_iff.mp hkept
          simp only [Bool.and_eq_true, decide_eq_true_eq] at hcurrent
          obtain ⟨⟨-, hmachine⟩, hid⟩ := hcurrent
          exact h.setFire hcancel htask ⟨rfl, hlock, bindingAt_of_record hrecord, hmachine, hid⟩
        · cases hstep
          exact h.setFire (hcancel.trans (.unlock hcancel.consistent hlock)) htask trivial
      · cases hstep
        exact h.setFire (.unlock hc hlock) htask trivial
    · cases hstep
  | check =>
    rw [applyFire] at hstep
    split at hstep
    · next expected record hphase =>
      rw [hphase] at hok
      obtain ⟨rfl, howns⟩ := hok
      dsimp only at hstep
      split at hstep
      · cases hstep
        exact h.setFire (.unlock hc howns.lock) htask trivial
      next hidle =>
      cases hstep
      rw [not_or, Nat.not_lt, Nat.le_zero] at hidle
      have hid : stableNodeIdForKey task.key record = task.timer.nodeId := howns.id
      refine h.setFire (.refl hc) htask ⟨rfl, ⟨_, { howns with }, ?_⟩, hid ▸ hidle.1⟩
      simpa [bindingOf] using hidle.2
    · cases hstep
  | fail =>
    rw [applyFire] at hstep
    split at hstep <;> cases hstep
    rename_i expected hphase
    rw [hphase] at hok
    obtain ⟨rfl, ⟨b, howns, -⟩, -⟩ := hok
    exact h.setFire (.unlock hc howns.lock) htask trivial
  | delete =>
    rw [applyFire] at hstep
    split at hstep <;> cases hstep
    rename_i expected hphase
    rw [hphase] at hok
    obtain ⟨rfl, ⟨b, howns, -⟩, -⟩ := hok
    have hdelete := Step.delete hc howns task.timer
    exact h.setFire (hdelete.trans (.unlock hdelete.consistent howns.lock)) htask trivial

/-! ### Timers are set -/

lemma Step.openEpoch (h : s.Consistent) (hlive : s.records.hasNode id = true) :
    s.Step (s.withSessions (s.sessions.openEpoch id)) actor where
  frame := by
    refine .of_lessens rfl (.refl _) (.of_eq ?_ ?_)
    · exact s.sessions.openEpoch_eq activeConnections (fun _ _ _ => rfl) id
    · exact s.sessions.openEpoch_eq ephemeralGc (fun _ _ _ => rfl) id
  consistent :=
    { streams :=
        ⟨h.streams.settled.grow (openEpoch_grows hlive s.sessions),
          h.streams.counted.openEpoch id⟩
      unique := h.unique
      installed := by
        have hsame := s.sessions.openEpoch_eq ephemeralGc (fun _ _ _ => rfl) id
        have hinstalled := h.installed
        rw [← hsame] at hinstalled
        exact hinstalled }
  requests := rfl
  fires := rfl

/-- A timer that is installed together with its task. -/
theorem Sound.install (h : s.Sound) {timer : EphemeralGcTimer}
    (hbound : timer.boundTo s.records key = true)
    (hgeneration : timer.generation = s.sessions.ephemeralGc.nextGeneration)
    (hepoch : ∃ epoch, timer.epoch = some epoch) :
    ((s.withSessions (s.sessions.installTimer key timer)).spawn key timer).Sound := by
  have hframe : s.Frame ((s.withSessions (s.sessions.installTimer key timer)).spawn key timer) none :=
    { locks := fun _ _ _ hlock => hlock
      bindings := fun _ _ _ _ _ _ hb _ => hb
      active := fun _ _ _ _ _ _ _ _ => le_rfl }
  have hlength : timer.generation = (s.fires.map FireTask.timer).length :=
    hgeneration.trans h.installed.generation
  refine ⟨⟨⟨⟨h.streams.settled.live, fun other entry hentry => ?_⟩, { h.streams.counted with }⟩,
    h.unique, ?_⟩, fun i request hrequest => ?_, fun i task htask => ?_⟩
  · obtain ⟨rfl, rfl⟩ | ⟨-, hentry⟩ := TreeMap.getElem?_of_insert hentry
    · exact hbound
    · exact h.streams.settled.bound other entry hentry
  · rw [show ((s.withSessions (s.sessions.installTimer key timer)).spawn key timer).fires.map
      FireTask.timer = s.fires.map FireTask.timer ++ [timer] from map_append]
    refine ⟨?_, fun other entry hentry => ?_, fun entry hentry => ?_⟩
    · rw [length_append, ← h.installed.generation]
      rfl
    · obtain ⟨-, rfl⟩ | ⟨-, hentry⟩ := TreeMap.getElem?_of_insert hentry
      · rw [hlength, getElem?_concat_length]
      · have hold := h.installed.timers other entry hentry
        rw [getElem?_append_left (List.getElem?_eq_some_iff.mp hold).1]
        exact hold
    · obtain hold | hnew := mem_append.mp hentry
      · exact h.installed.epochs entry hold
      · rw [mem_singleton.mp hnew]
        exact hepoch
  · exact hframe.requestOk (by simp) (h.requests i request hrequest)
  · obtain hold | ⟨-, rfl⟩ := getElem?_concat_cases htask
    · exact (hframe.fireOk (by simp) (h.fires i task hold))
    · trivial

/-- What comes of an attempt to set a timer: the one installed is for the current incarnation. -/
theorem scheduleOwned_induct {motive : Sessions × Option EphemeralGcTimer → Prop} (sessions : Sessions)
    (key : String) (record : MachineRecord) (epoch : Option Nat) (hnone : motive (sessions, none))
    (hbase : ∀ base, base = sessions ∨ base = sessions.openEpoch (stableNodeIdForKey key record) →
      motive (base.cancelTimer key, none) ∧
      ∀ current, base.streamSessionEpochs[stableNodeIdForKey key record]? = some current →
        motive (base.installTimer key (base.timerFor key record current),
          some (base.timerFor key record current))) :
    motive (sessions.scheduleOwned key record epoch) := by
  rw [scheduleOwned]
  dsimp only
  split
  · exact hnone
  split
  · exact (hbase sessions (.inl rfl)).1
  split
  · exact hnone
  next hmatches =>
  split
  · cases epoch with
    | some current => exact (hbase sessions (.inl rfl)).1
    | none => exact (hbase _ (.inr rfl)).1
  cases epoch with
  | some current =>
    exact (hbase sessions (.inl rfl)).2 current (by simpa [streamEpochMatches] using hmatches)
  | none =>
    refine (hbase _ (.inr rfl)).2 (sessions.epochFor _) ?_
    rw [openEpoch_epochs, if_pos rfl]

/-- The invariant after an attempt to set a timer. -/
theorem Sound.scheduleOwned (h : s.Sound) {record : MachineRecord}
    (hrecord : s.records[key]? = some record) {epoch : Option Nat} {sessions : Sessions}
    {timer : Option EphemeralGcTimer}
    (hscheduled : s.sessions.scheduleOwned key record epoch = (sessions, timer)) :
    (timer.elim (s.withSessions sessions) ((s.withSessions sessions).spawn key)).Sound := by
  have hlive : s.records.hasNode (stableNodeIdForKey key record) = true :=
    hasNode_iff.mpr ⟨key, record, hrecord, rfl⟩
  have hall := scheduleOwned_induct (motive := fun scheduled =>
    (scheduled.2.elim (s.withSessions scheduled.1) ((s.withSessions scheduled.1).spawn key)).Sound)
    s.sessions key record epoch h fun base hbase => ?_
  · rwa [hscheduled] at hall
  have hsound : (s.withSessions base).Sound := by
    obtain rfl | rfl := hbase
    · exact h
    · exact h.idle (.openEpoch h.toConsistent hlive)
  refine ⟨hsound.idle (.cancelTimer hsound.toConsistent key), fun current _ => ?_⟩
  refine hsound.install ?_ rfl ⟨current, rfl⟩
  have hbound : (base.timerFor key record current).boundTo s.records key = true := by
    simp [EphemeralGcTimer.boundTo, hrecord, timerFor]
  exact hbound

lemma sound_schedule (h : s.Sound) (hstep : s.apply (.schedule key) = some s') : s'.Sound := by
  rw [apply, schedule] at hstep
  split at hstep
  next scheduled sessions timer hscheduled =>
  cases hstep
  split at hscheduled
  · cases hscheduled
    exact h
  next record hrecord =>
  have hlive : s.records.hasNode (stableNodeIdForKey key record) = true :=
    hasNode_iff.mpr ⟨key, record, hrecord, rfl⟩
  have hopened := h.idle (.openEpoch h.toConsistent hlive)
  exact hopened.scheduleOwned hrecord hscheduled

lemma sound_dispatch (h : s.Sound) {epoch : Option Nat}
    (hstep : s.apply (.dispatch id epoch) = some s') : s'.Sound := by
  rw [apply, dispatchStateDisconnect] at hstep
  split at hstep
  next scheduled sessions timer hscheduled =>
  cases hstep
  split at hscheduled
  · cases hscheduled
    exact h
  split at hscheduled
  · cases hscheduled
    exact h
  next key record hfound =>
  split at hscheduled
  next owned howned =>
  cases hscheduled
  have hsound := h.scheduleOwned (findById_eq_some hfound).1 howned
  rw [elim_map]
  exact hsound

lemma sound_init (h : collection.init s) : s.Sound := by
  obtain ⟨hstreams, hunique, hlocks, hrequests, hfires⟩ := h
  refine ⟨⟨StreamState.sound_init hstreams, hunique, ?_⟩, fun index request hrequest => ?_,
    fun index task htask => ?_⟩
  · rw [sessions, hstreams.1, hfires]
    exact ⟨rfl, fun key timer htimer => by simp at htimer, by simp⟩
  · rw [hrequests] at hrequest
    cases hrequest
  · rw [hfires] at htask
    cases htask

lemma sound_step (h : s.Sound) {a : GcAction} (hproper : a.Proper s) (hstep : s.apply a = some s') :
    s'.Sound := by
  have hc := h.toConsistent
  cases a with
  | stream a =>
    obtain ⟨streams, hstreams, rfl⟩ := map_eq_some_iff.mp hstep
    exact h.idle (.stream hc hproper hstreams)
  | edit next =>
    cases hstep
    exact h.idle (.edit hc hproper)
  | schedule key => exact sound_schedule h hstep
  | dispatch id epoch => exact sound_dispatch h hstep
  | cancel key =>
    cases hstep
    exact h.idle (.cancelTimer hc key)
  | abortAll =>
    cases hstep
    refine h.idle (.withTimers hc ⟨fun key timer htimer => ?_, rfl⟩)
    simp at htimer
  | arrive nodeKey machine =>
    cases hstep
    refine ⟨⟨hc.streams, hc.unique, hc.installed⟩, fun index request hrequest => ?_,
      fun index task htask => (h.fires index task htask).noted _ _⟩
    obtain hold | ⟨-, rfl⟩ := getElem?_concat_cases hrequest
    · exact h.requests index request hold
    · trivial
  | request index a =>
    obtain ⟨request, hrequest, hstep⟩ := bind_eq_some_iff.mp hstep
    exact sound_request h hrequest hproper hstep
  | lockMutation index machine => exact h.idle (.lock hc hstep)
  | mutate index machine next =>
    rw [apply] at hstep
    split at hstep <;> cases hstep
    rename_i hlock
    exact h.after (.write hc hlock hproper.1 hproper.2) (fun _ => by simp) fun _ => by simp
  | unlockMutation index machine =>
    rw [apply] at hstep
    split at hstep <;> cases hstep
    rename_i hlock
    exact h.after (.unlock hc hlock) (fun _ => by simp) fun _ => by simp
  | fire index a =>
    obtain ⟨task, htask, hstep⟩ := bind_eq_some_iff.mp hstep
    exact sound_fire h htask hstep

end GcState

lemma collection_sound {s : GcState} (h : collection.Reachable s) : s.Sound :=
  h.invariant (fun _ => sound_init) fun _ _ _ hsound hstep _ =>
    sound_step hsound hstep.1 hstep.2

/-! ## What a task may remove -/

/-- A timer that is set is set for the incarnation that the node has then. -/
theorem Sessions.scheduleOwned_current {sessions after : Sessions} {key : String} {record : MachineRecord}
    {epoch : Option Nat} {timer : EphemeralGcTimer}
    (h : sessions.scheduleOwned key record epoch = (after, some timer)) :
    ∃ current, timer.epoch = some current ∧ after.streamSessionEpochs[timer.nodeId]? = some current := by
  have hall := scheduleOwned_induct (motive := fun scheduled => ∀ timer, scheduled.2 = some timer →
    ∃ current, timer.epoch = some current ∧
      scheduled.1.streamSessionEpochs[timer.nodeId]? = some current)
    sessions key record epoch (by simp) fun base _ => ⟨by simp, fun current hcurrent timer htimer => ?_⟩
  · rw [h] at hall
    exact hall timer rfl
  · cases htimer
    exact ⟨current, rfl, hcurrent⟩

namespace GcState

variable {s s' : GcState} {index : Nat} {task : FireTask}

/-- Only its last step removes a node. -/
theorem applyFire_records {a : FireAction} (ha : a ≠ .delete)
    (hstep : s.applyFire index task a = some s') : s'.records = s.records := by
  cases a with
  | lock =>
    rw [applyFire] at hstep
    split at hstep
    · obtain ⟨locked, hlock, rfl⟩ := map_eq_some_iff.mp hstep
      obtain ⟨-, rfl, -⟩ := lock_spec hlock
      rfl
    · cases hstep
  | wake | claim | check | fail =>
    simp only [applyFire] at hstep
    repeat' split at hstep
    all_goals cases hstep <;> rfl
  | delete => exact absurd rfl ha

/-- The node that a task removes is the one it owns, in the incarnation of its timer. -/
theorem Sound.removed (h : s.Sound) (htask : s.fires[index]? = some task)
    (hstep : s.applyFire index task .delete = some s') {key : String} {record : MachineRecord}
    (hrecord : s.records[key]? = some record) (hgone : s'.records[key]? = none) :
    task.key = key ∧ s.Owns index task (bindingOf key record) ∧ record.ephemeral = true ∧
      s.sessions.activeConnections[task.timer.nodeId]?.getD 0 = 0 ∧
      s.sessions.streamEpochMatches task.timer.nodeId task.timer.epoch = true := by
  have hok := h.fires index task htask
  rw [applyFire] at hstep
  split at hstep <;> cases hstep
  rename_i expected hphase
  rw [FireOk, hphase] at hok
  obtain ⟨rfl, ⟨b, howns, hephemeral⟩, hidle⟩ := hok
  obtain hsame | ⟨hepoch, -, hdelete⟩ := gcDelete_run task.key task.timer s.registry
  · rw [hsame] at hgone
    exact absurd (hrecord.symm.trans hgone) (by simp)
  have hkey : task.key = key := by
    by_contra hother
    rw [hdelete] at hgone
    have hkept : (s.records.erase task.key)[key]? = some record := by
      rw [getElem?_erase, if_neg (by simpa using hother)]
      exact hrecord
    exact absurd (hkept.symm.trans hgone) (by simp)
  subst hkey
  cases howns.binding.symm.trans (bindingAt_of_record hrecord)
  exact ⟨rfl, howns, hephemeral, hidle, hepoch⟩

end GcState

/-- Timers are set for the incarnation of the time, and the task of a timer removes no node but an
ephemeral one that is still in that incarnation and has no open stream. -/
theorem fire_removes_only_idle {s s' : GcState} (h : collection.Reachable s) :
    (∀ key sessions timer, s.registry.schedule key = (sessions, some timer) →
      ∃ epoch, timer.epoch = some epoch ∧
        sessions.streamSessionEpochs[timer.nodeId]? = some epoch) ∧
    (∀ id matching sessions key timer,
      s.registry.dispatchStateDisconnect id matching = (sessions, some (key, timer)) →
      ∃ epoch, timer.epoch = some epoch ∧
        sessions.streamSessionEpochs[timer.nodeId]? = some epoch) ∧
    ∀ index a, collection.step s (.fire index a) s' → ∀ (key : String) record,
      s.records[key]? = some record → s'.records[key]? = none →
      ∃ task epoch, s.fires[index]? = some task ∧ task.key = key ∧ record.ephemeral = true ∧
        stableNodeIdForKey key record = task.timer.nodeId ∧ task.timer.epoch = some epoch ∧
        s.sessions.streamSessionEpochs[stableNodeIdForKey key record]? = some epoch ∧
        ∀ guard ∈ s.streams.guards, guard.nodeId = stableNodeIdForKey key record →
          guard.epoch = epoch → guard.phase ≠ .held := by
  have hsound := collection_sound h
  refine ⟨fun key sessions timer hscheduled => ?_, fun id matching sessions key timer hscheduled => ?_,
    fun index a hstep key record hrecord hgone => ?_⟩
  · rw [schedule] at hscheduled
    split at hscheduled
    · cases hscheduled
    · exact scheduleOwned_current hscheduled
  · rw [dispatchStateDisconnect] at hscheduled
    split at hscheduled
    · cases hscheduled
    split at hscheduled
    · cases hscheduled
    split at hscheduled
    next after owned howned =>
    obtain ⟨rfl, howner⟩ := Prod.mk.inj hscheduled
    obtain ⟨timer, rfl, hpair⟩ := map_eq_some_iff.mp howner
    cases hpair
    exact scheduleOwned_current howned
  · obtain ⟨task, htask, hfire⟩ := bind_eq_some_iff.mp hstep.2
    have hdelete : a = .delete := by
      by_contra ha
      rw [applyFire_records ha hfire, hrecord] at hgone
      cases hgone
    subst hdelete
    obtain ⟨hkey, howns, hephemeral, hidle, hmatches⟩ := hsound.removed htask hfire hrecord hgone
    have hid : stableNodeIdForKey key record = task.timer.nodeId := howns.id
    obtain ⟨epoch, hepoch⟩ := hsound.installed.epochs task.timer
      (List.mem_map_of_mem (mem_of_getElem? htask))
    have hcurrent : s.sessions.streamSessionEpochs[task.timer.nodeId]? = some epoch := by
      simpa [streamEpochMatches, hepoch] using hmatches
    refine ⟨task, epoch, htask, hkey, hephemeral, hid, hepoch, hid ▸ hcurrent, ?_⟩
    intro guard hguard hnode hsame hheld
    -- an open stream of the incarnation would be counted
    have hcount := hsound.streams.counted.activeConnections task.timer.nodeId
    have hopen : 0 < countIn GuardPhase.isHeld s.streams.guards task.timer.nodeId epoch :=
      countP_pos_iff.mpr ⟨guard, hguard, by simp [hnode, hid, hsame, hheld, GuardPhase.isHeld]⟩
    rw [inCurrentEpoch, show s.streams.sessions.streamSessionEpochs[task.timer.nodeId]? = _
      from hcurrent, elim_some, show s.streams.sessions.activeConnections[
      task.timer.nodeId]?.getD 0 = 0 from hidle] at hcount
    omega

/-- A node has a stream, loses it, and its timer comes to the deletion. -/
def collected : List GcAction :=
  [.arrive "nk-a" "mk", .request 0 .lock, .request 0 .validate, .request 0 .lookup,
    .request 0 (.acquire false 1), .request 0 .finish, .request 0 .unlock,
    .stream (.unlink 0 2), .stream (.forget 0), .stream (.release 0 3), .dispatch 7 (some 0),
    .fire 0 .wake, .fire 0 .lock, .fire 0 .claim, .fire 0 .check]

lemma collected_proper : ∀ a ∈ collected, ∀ s, a.Proper s := by
  intro a ha s
  simp only [collected, mem_cons, not_mem_nil, or_false] at ha
  obtain rfl | rfl | rfl | rfl | rfl | rfl | rfl | rfl | rfl | rfl | rfl | rfl | rfl | rfl | rfl := ha <;>
  trivial

/-- The run ends with the node removed, and it was an idle one. -/
theorem collected_idle :
    let node : MachineRecord := { nodeId := some 7, machineKeyHex := "mk", ephemeral := true }
    ∃ s s', collection.Reachable s ∧ collection.step s (.fire 0 .delete) s' ∧
      s.records["nk-a"]? = some { node with lastSeen := 3 } ∧ s'.records["nk-a"]? = none ∧
      ∃ epoch, s.sessions.streamSessionEpochs[7]? = some epoch ∧
        ∀ guard ∈ s.streams.guards, guard.nodeId = 7 → guard.epoch = epoch → guard.phase ≠ .held := by
  intro node
  let start : GcState := { streams := { registry := { records := (∅ : NodeMap).insert "nk-a" node } } }
  have hrun : (collected.foldlM apply start).map (fun s => (s.records["nk-a"]?,
      (s.apply (.fire 0 .delete)).map fun s' => s'.records["nk-a"]?)) =
      some (some { node with lastSeen := 3 }, some none) := by decide +kernel
  obtain ⟨s, hs, hvalues⟩ := map_eq_some_iff.mp hrun
  obtain ⟨hrecord, hdelete⟩ := Prod.mk.inj hvalues
  obtain ⟨s', hs', hgone⟩ := map_eq_some_iff.mp hdelete
  have hunique : start.records.UniqueIds := by
    have hkey : ∀ key b, start.records.bindingAt key = some b → "nk-a" = key := by
      intro key b hb
      obtain ⟨record, hrecord, -⟩ := map_eq_some_iff.mp hb
      by_contra hother
      simp [start, GcState.records, hother] at hrecord
    intro key key' b b' hb hb' _
    rw [← hkey key b hb, ← hkey key' b' hb']
  have hsteps : ∀ a ∈ collected, ∀ s s', s.apply a = some s' → collection.step s a s' :=
    fun a ha s s' h => ⟨collected_proper a ha s, h⟩
  have hreachable : collection.Reachable s :=
    .foldlM hsteps (fun _ _ _ _ => trivial) (.init ⟨⟨rfl, rfl⟩, hunique, rfl, rfl, rfl⟩) hs
  have hstep : collection.step s (.fire 0 .delete) s' := ⟨trivial, hs'⟩
  obtain ⟨task, epoch, -, -, -, -, -, hcurrent, hidle⟩ :=
    (fire_removes_only_idle hreachable).2.2 0 .delete hstep "nk-a" _ hrecord hgone
  exact ⟨s, s', hreachable, hstep, hrecord, hgone, epoch, hcurrent, hidle⟩

/-! ## A node that comes back -/

/-- From the lookup of its node on a request has the node, under its key and of its machine, whatever
the tasks, the other requests and the mutations do. Its last step cancels the timer of the node if the
node is ephemeral, and no other timer. -/
theorem returning_node_is_kept {s : GcState} (h : collection.Reachable s) {index id : Nat}
    {request : MapRequest} (hrequest : s.requests[index]? = some request)
    (hphase : request.phase = .ready id ∨ request.phase = .acquired id) :
    ∃ b, s.records.bindingAt request.nodeKeyHex = some b ∧
      b.machineKeyHex = request.machineKeyHex ∧ b.id = id ∧
      ∀ s', collection.step s (.request index .finish) s' → s'.sessions =
        if b.ephemeral then s.sessions.cancelTimer request.nodeKeyHex else s.sessions := by
  have hsound := collection_sound h
  have hok : s.RequestOk index { request with phase := .ready id } := by
    obtain hphase | hphase := hphase <;>
    simpa only [RequestOk, hphase] using hsound.requests index request hrequest
  obtain ⟨-, b, hb, hmachine, hid⟩ := hok
  refine ⟨b, hb, hmachine, hid, ?_⟩
  rintro s' ⟨-, hstep⟩
  rw [apply, hrequest, bind_some, applyRequest] at hstep
  split at hstep <;> cases hstep
  rename_i acquired hacquired
  obtain rfl : acquired = id := by simpa [hacquired] using hphase
  -- the node of an id is the one of the request, and so is its key
  have hfound : s.registry.ephemeralNodeKeyById acquired =
      if b.ephemeral then some request.nodeKeyHex else none := by
    rw [ephemeralNodeKeyById]
    cases hfind : s.registry.records.toList.find? fun entry =>
        entry.2.ephemeral ∧ stableNodeIdForKey entry.1 entry.2 = acquired with
    | none =>
      obtain ⟨record, hrecord, rfl⟩ := map_eq_some_iff.mp hb
      have hnot := find?_eq_none.mp hfind (_, record) (mem_toList_iff_getElem?_eq_some.mpr hrecord)
      simp_all [bindingOf]
    | some entry =>
      obtain ⟨hephemeral, hentry⟩ : entry.2.ephemeral = true ∧ _ := by simpa using find?_some hfind
      have hrecord := bindingAt_of_record (mem_toList_iff_getElem?_eq_some.mp (mem_of_find?_eq_some hfind))
      have hkey := hsound.unique _ _ _ _ hrecord hb (hentry.trans hid.symm)
      rw [hkey] at hrecord
      cases hb.symm.trans hrecord
      simp [bindingOf, hephemeral, hkey]
  rw [hfound]
  cases b.ephemeral <;> rfl

/-- The request of `collected` has its node when it is about to cancel the timer. -/
theorem collected_node_is_kept :
    ∃ s request b, collection.Reachable s ∧ s.requests[0]? = some request ∧
      request.phase = .acquired 7 ∧ s.records.bindingAt request.nodeKeyHex = some b ∧ b.id = 7 := by
  let node : MachineRecord := { nodeId := some 7, machineKeyHex := "mk", ephemeral := true }
  let start : GcState := { streams := { registry := { records := (∅ : NodeMap).insert "nk-a" node } } }
  have hrun : ((collected.take 5).foldlM apply start).bind (fun s =>
      s.requests[0]?.map MapRequest.phase) = some (.acquired 7) := by decide +kernel
  obtain ⟨s, hs, hphase⟩ := bind_eq_some_iff.mp hrun
  obtain ⟨request, hrequest, hphase⟩ := map_eq_some_iff.mp hphase
  have hunique : start.records.UniqueIds := by
    intro key key' b b' hb hb' _
    by_contra hne
    by_cases hkey : "nk-a" = key <;> simp_all [start, GcState.records, bindingAt]
  have hreach : collection.Reachable s := by
    refine .foldlM (fun a ha s s' h => ?_) (fun _ _ _ _ => trivial)
      (.init ⟨⟨rfl, rfl⟩, hunique, rfl, rfl, rfl⟩) hs
    exact ⟨collected_proper a (mem_of_mem_take ha) s, h⟩
  obtain ⟨b, hb, -, hid, -⟩ := returning_node_is_kept hreach hrequest (.inr hphase)
  exact ⟨s, request, b, hreach, hrequest, hphase, hb, hid⟩

end Headscale.NodeStore
