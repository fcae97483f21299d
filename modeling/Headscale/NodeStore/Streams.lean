import Headscale.NodeStore.Expiry

/-!
# Map streams and their sessions

A map stream is acquired inside the writer: the node's epoch is opened if it has none, and the counts
of its open streams and of its state sessions go up. The guard of the stream gives both back in two
steps. When it is dropped the stream is unlinked at once; the state session is released later, after a
time in which the client may come back. Either step looks at the epoch first, since the node may have
been deleted meanwhile, and another one may have been given its id.

The model keeps the guards of a run in a list, and a guard's place in it is also the identity of its
cancel flag. Every write of the node store is one step; a drop is two, as the cancel flag is forgotten
under a lock of its own.
-/

namespace Headscale.NodeStore

open Std Node Netmap NodeStoreBoolUpdateOutcome ExtTreeMap

/-! ## Acquisition and release -/

namespace Sessions

/-- The epoch of the id, or the one it would be given. -/
def epochFor (sessions : Sessions) (id : Nat) : Nat :=
  sessions.streamSessionEpochs[id]?.getD sessions.nextEpoch

/-- Gives the id an epoch if it has none. -/
def openEpoch (sessions : Sessions) (id : Nat) : Sessions :=
  match sessions.streamSessionEpochs[id]? with
  | some _ => sessions
  | none =>
    { sessions with
      streamSessionEpochs := sessions.streamSessionEpochs.insert id sessions.nextEpoch
      nextEpoch := sessions.nextEpoch + 1 }

/-- What a stream of a node takes. -/
def acquire (sessions : Sessions) (id flag : Nat) (online : Bool) : Sessions :=
  let opened := sessions.openEpoch id
  { opened with
    activeConnections := opened.activeConnections.insert id (opened.activeConnections[id]?.getD 0 + 1)
    stateSessions := opened.stateSessions.insert id (opened.stateSessions[id]?.getD 0 + 1)
    connectionGenerations := opened.connectionGenerations.insert id
      ((opened.connectionGenerations[id]?.getD 0 + 1) % 2 ^ 64)
    disconnectedAt := opened.disconnectedAt.erase id
    onlineStates := opened.onlineStates.insert id online
    streamCancelFlags := TreeMap.push opened.streamCancelFlags id flag }

/-- `release_stream_connection`, with whether the node is still connected; nothing is said for an epoch
that is over. -/
def releaseStreamConnection (sessions : Sessions) (id epoch : Nat) (now : Int) :
    Sessions × Option Bool :=
  if sessions.streamSessionEpochs[id]? ≠ some epoch then (sessions, none)
  else
    match sessions.activeConnections[id]? with
    | none => (sessions, some false)
    | some count =>
      ({ sessions with
          activeConnections := sessions.activeConnections.insert id (count - 1)
          disconnectedAt :=
            if 0 < count - 1 then sessions.disconnectedAt else sessions.disconnectedAt.insert id now },
        some (0 < count - 1))

/-- `forget_stream_cancel_flag`. -/
def forgetStreamCancelFlag (sessions : Sessions) (id flag : Nat) : Sessions :=
  { sessions with
    streamCancelFlags := sessions.streamCancelFlags.alter id fun flags =>
      flags.bind fun flags =>
        if flags.filter (· ≠ flag) = [] then none else some (flags.filter (· ≠ flag)) }

/-- One candidate of `cleanup_offline_connections`. -/
def cleanupNode (threshold now : Int) (sessions : Sessions) (id : Nat) : Sessions :=
  if sessions.activeConnections[id]?.getD 0 ≠ 0 then sessions
  else
    match sessions.disconnectedAt[id]? with
    | none => sessions
    | some disconnected =>
      if max 0 (now - disconnected) < threshold then sessions
      else
        { sessions with
          activeConnections := sessions.activeConnections.erase id
          disconnectedAt := sessions.disconnectedAt.erase id }

/-- `cleanup_offline_connections`, for the candidates it has picked before taking its locks. -/
def cleanupOfflineConnections (sessions : Sessions) (candidates : List Nat) (threshold now : Int) :
    Sessions :=
  candidates.foldl (cleanupNode threshold now) sessions

lemma openEpoch_epochs (sessions : Sessions) (id k : Nat) :
    (sessions.openEpoch id).streamSessionEpochs[k]? =
      if id = k then some (sessions.epochFor id) else sessions.streamSessionEpochs[k]? := by
  rw [openEpoch, epochFor]
  cases hepoch : sessions.streamSessionEpochs[id]? with
  | none => simp [ExtTreeMap.getElem?_insert]
  | some epoch =>
    by_cases hk : id = k
    · simp [← hk, hepoch]
    · simp [hk]

/-- No epoch that has been handed out before is opened. -/
theorem openEpoch_epoch_iff (sessions : Sessions) {id k epoch : Nat} (h : epoch < sessions.nextEpoch) :
    (sessions.openEpoch id).streamSessionEpochs[k]? = some epoch ↔
      sessions.streamSessionEpochs[k]? = some epoch := by
  rw [openEpoch_epochs]
  split
  · next hk =>
    subst hk
    rw [epochFor]
    cases sessions.streamSessionEpochs[id]? with
    | some _ => simp
    | none => simp [h.ne']
  · exact Iff.rfl

variable {β : Type} (field : Sessions → β)

/-- An opened epoch is all that changes. -/
theorem openEpoch_eq
    (hfield : ∀ sessions epochs next, field { sessions with streamSessionEpochs := epochs, nextEpoch := next } = field sessions)
    (sessions : Sessions) (id : Nat) : field (sessions.openEpoch id) = field sessions := by
  rw [openEpoch]
  split
  · rfl
  · exact hfield ..

lemma openEpoch_nextEpoch (sessions : Sessions) (id : Nat) :
    sessions.nextEpoch ≤ (sessions.openEpoch id).nextEpoch := by
  rw [openEpoch]
  split
  · exact le_rfl
  · exact Nat.le_succ _

lemma Fresh.epochFor_lt {sessions : Sessions} (h : sessions.Fresh) (id : Nat) :
    sessions.epochFor id < (sessions.openEpoch id).nextEpoch := by
  rw [epochFor, openEpoch]
  cases hepoch : sessions.streamSessionEpochs[id]? with
  | none => exact Nat.lt_succ_self _
  | some epoch => exact h id epoch hepoch

lemma openEpoch_grows {records : NodeMap} {id : Nat} (hlive : records.hasNode id = true)
    (sessions : Sessions) : sessions.Grows records (sessions.openEpoch id) where
  kept k epoch hepoch := by
    rw [openEpoch_epochs]
    split
    · next hk => rw [epochFor, hk, hepoch, Option.getD_some]
    · exact hepoch
  opened k epoch hepoch := by
    rw [openEpoch] at hepoch ⊢
    cases hid : sessions.streamSessionEpochs[id]? with
    | some _ => exact .inl (by simpa [hid] using hepoch)
    | none =>
      rw [hid] at hepoch
      simp only [ExtTreeMap.getElem?_insert] at hepoch
      by_cases hk : id = k
      · subst hk
        obtain rfl : sessions.nextEpoch = epoch := by simpa using hepoch
        exact .inr ⟨hlive, le_rfl, Nat.lt_succ_self _⟩
      · exact .inl (by simpa [hk] using hepoch)
  nextEpoch := openEpoch_nextEpoch sessions id
  timers := by
    rw [openEpoch]
    split <;> rfl

lemma releaseStreamConnection_grows (sessions : Sessions) (records : NodeMap) (id epoch : Nat)
    (now : Int) : sessions.Grows records (sessions.releaseStreamConnection id epoch now).1 := by
  rw [releaseStreamConnection]
  split
  · exact .of_eq rfl rfl rfl
  split <;> exact .of_eq rfl rfl rfl

/-- A cleanup forgets the streams of nodes that have none, and nothing else. -/
theorem cleanup_eq
    (hfield : ∀ sessions active disconnected, field { sessions with activeConnections := active, disconnectedAt := disconnected } = field sessions)
    (candidates : List Nat) (threshold now : Int) (sessions : Sessions) :
    field (sessions.cleanupOfflineConnections candidates threshold now) = field sessions := by
  rw [cleanupOfflineConnections]
  induction candidates generalizing sessions with
  | nil => rfl
  | cons id candidates ih =>
    rw [List.foldl_cons, ih, cleanupNode]
    split
    · rfl
    split
    · rfl
    split
    · rfl
    · exact hfield ..

end Sessions

/-- `stream_connection_acquisition`: a missing node owns nothing, and a server that is closing down
hands out no stream. -/
def acquireStream (closing : Bool) (id flag : Nat) (now : Int) (records : NodeMap)
    (sessions : Sessions) : UpdateResult NodeStoreBoolUpdateOutcome :=
  if closing then
    { records := records
      sessions := { sessions with raised := sessions.raised ++ [flag] }
      outcome := .unchanged false }
  else
    match records.findById id with
    | none => { records := records, sessions := sessions, outcome := .unchanged false }
    | some (_, record) =>
      { records := records
        sessions := sessions.acquire id flag (!record.isExpiredAt now)
        outcome :=
          { quiet true with
            finalPresenceNodeId := some id
            clearUnhealthyRouteState := some id } }

variable (id : Nat)

/-- `release_state_session_in_epoch`. The release of the last session takes the node offline. -/
def releaseStateSession (epoch : Option Nat) (now : Int) (records : NodeMap) (sessions : Sessions) :
    UpdateResult NodeStoreBoolUpdateOutcome :=
  if !sessions.streamEpochMatches id epoch then
    { records := records, sessions := sessions, outcome := .unchanged false }
  else
    match records.findById id with
    | none => { records := records, sessions := sessions, outcome := .unchanged false }
    | some (key, record) =>
      let remaining := sessions.stateSessions[id]?.getD 0 - 1
      let released := { sessions with stateSessions := sessions.stateSessions.insert id remaining }
      if 0 < remaining then
        { records := records
          sessions := released
          outcome := { quiet true with finalPresenceNodeId := some id } }
      else
        { records := records.insert key { record with lastSeen := now }
          sessions := { released with onlineStates := released.onlineStates.insert id false }
          outcome :=
            { quiet true with
              finalPresenceNodeId := some id
              clearUnhealthyRouteState := some id } }

open Sessions

lemma releaseStateSession_retired {sessions : Sessions} {id epoch : Nat}
    (hover : sessions.streamSessionEpochs[id]? ≠ some epoch) (now : Int) (records : NodeMap) :
    releaseStateSession id (some epoch) now records sessions =
      { records := records, sessions := sessions, outcome := .unchanged false } := by
  rw [releaseStateSession, if_pos]
  simp [streamEpochMatches, hover]

lemma acquireStream_grows (closing : Bool) (id flag : Nat) (now : Int) (records : NodeMap)
    (sessions : Sessions) :
    sessions.Grows records (acquireStream closing id flag now records sessions).sessions := by
  rw [acquireStream]
  split
  · exact .of_eq rfl rfl rfl
  split
  · exact .of_eq rfl rfl rfl
  next hfound =>
  have hlive : records.hasNode id = true := by
    rw [← NodeMap.findById_isSome, hfound]
    rfl
  -- of what a stream takes only the epoch matters
  have hopened := openEpoch_grows hlive sessions
  exact ⟨hopened.kept, hopened.opened, hopened.nextEpoch, hopened.timers⟩

lemma releaseStateSession_grows (epoch : Option Nat) (now : Int) (records : NodeMap)
    (sessions : Sessions) :
    sessions.Grows records (releaseStateSession id epoch now records sessions).sessions := by
  rw [releaseStateSession]
  split
  · exact .of_eq rfl rfl rfl
  split
  · exact .of_eq rfl rfl rfl
  dsimp only
  split <;> exact .of_eq rfl rfl rfl

def acquisition (closing : Bool) (id flag : Nat) (now : Int) : Update NodeStoreBoolUpdateOutcome where
  run := acquireStream closing id flag now
  grows := acquireStream_grows closing id flag now

def stateRelease (epoch : Option Nat) (now : Int) : Update NodeStoreBoolUpdateOutcome where
  run := releaseStateSession id epoch now
  grows := releaseStateSession_grows id epoch now

/-! ## Guards -/

inductive GuardPhase where
  /-- The stream is open. -/
  | held
  /-- The guard is dropped and its flag is to be forgotten; the state session is owed unless the epoch
  was over. -/
  | unlinked (owed : Bool)
  /-- The state session is to be released. -/
  | releasing
  | ended
deriving DecidableEq, Repr

namespace GuardPhase

def isHeld : GuardPhase → Bool
  | .held => true
  | _ => false

def unreleased : GuardPhase → Bool
  | .ended => false
  | _ => true

end GuardPhase

/-- `StreamConnectionGuard`, as far as a drop reads it. -/
structure StreamConnectionGuard where
  nodeId : Nat
  epoch : Nat
  phase : GuardPhase
deriving DecidableEq, Repr

/-- The guards of one epoch in some of the phases. -/
def countIn (phases : GuardPhase → Bool) (guards : List StreamConnectionGuard) (id epoch : Nat) : Nat :=
  guards.countP fun guard => guard.nodeId = id ∧ guard.epoch = epoch ∧ phases guard.phase

/-- The guards of the current epoch of an id in some of the phases. -/
def Sessions.inCurrentEpoch (sessions : Sessions) (phases : GuardPhase → Bool)
    (guards : List StreamConnectionGuard) (id : Nat) : Nat :=
  sessions.streamSessionEpochs[id]?.elim 0 (countIn phases guards id)

/-! ## Runs -/

structure StreamState where
  registry : Registry
  guards : List StreamConnectionGuard := []

inductive StreamAction where
  | acquire (closing : Bool) (id : Nat) (now : Int)
  /-- The first half of a drop. -/
  | unlink (guard : Nat) (now : Int)
  /-- The second half of a drop. -/
  | forget (guard : Nat)
  | release (guard : Nat) (now : Int)
  /-- An insertion, a deletion, a change of key or an edit of records. -/
  | write (next : NodeMap → NodeMap)
  | setNodeExpiry (id : Nat) (expiry : Option Int) (now : Int)
  | setExpiry (nodeKeyHex : String) (expiry : Option Int) (now : Int)
  | expire (needsPeerRecompute : MachineRecord → Bool) (candidates : ExtTreeSet Nat)
      (lastCheck now : Int)
  | cleanup (candidates : List Nat) (threshold now : Int)
  /-- The collector of ephemeral nodes gives a node an epoch to set a timer for. -/
  | openEpoch (id : Nat)

namespace StreamState

variable (s : StreamState)

def sessions : Sessions := s.registry.sessions

def setPhase (guard : Nat) (entry : StreamConnectionGuard) (phase : GuardPhase) :
    List StreamConnectionGuard :=
  s.guards.set guard { entry with phase := phase }

/-- An acquisition has a guard only if the writer has found the node. -/
def acquire (closing : Bool) (id : Nat) (now : Int) : StreamState :=
  { registry := (s.registry.applyNodestoreBoolUpdateDirect
      (acquisition closing id s.guards.length now)).1
    guards :=
      if !closing && s.registry.records.hasNode id then
        s.guards ++ [{ nodeId := id, epoch := s.sessions.epochFor id, phase := .held }]
      else s.guards }

def apply : StreamAction → Option StreamState
  | .acquire closing id now => some (s.acquire closing id now)
  | .unlink guard now => do
    let entry ← s.guards[guard]?
    if entry.phase = .held then
      let (sessions, connected) := s.sessions.releaseStreamConnection entry.nodeId entry.epoch now
      some
        { registry := { s.registry with sessions := sessions }
          guards := s.setPhase guard entry (.unlinked connected.isSome) }
    else none
  | .forget guard => do
    let entry ← s.guards[guard]?
    match entry.phase with
    | .unlinked owed =>
      some
        { registry :=
            { s.registry with sessions := s.sessions.forgetStreamCancelFlag entry.nodeId guard }
          guards := s.setPhase guard entry (if owed then .releasing else .ended) }
    | _ => none
  | .release guard now => do
    let entry ← s.guards[guard]?
    if entry.phase = .releasing then
      some
        { registry := (s.registry.applyNodestoreBoolUpdateDirect
            (stateRelease entry.nodeId (some entry.epoch) now)).1
          guards := s.setPhase guard entry .ended }
    else none
  | .write next =>
    some { s with registry := Registry.publish (next s.registry.records) s.sessions }
  | .setNodeExpiry id expiry now =>
    some { s with
      registry := (s.registry.applyNodestoreBoolUpdateDirect (setNodeExpiryQuiet id expiry now)).1 }
  | .setExpiry key expiry now =>
    some { s with
      registry := (s.registry.applyNodestoreBoolUpdateDirect (trySetExpiry key expiry now)).1 }
  | .expire needsPeerRecompute candidates lastCheck now =>
    some { s with
      registry := (s.registry.applyNodestoreManyUpdateDirect
        (expireUpdate needsPeerRecompute lastCheck now candidates)).1 }
  | .cleanup candidates threshold now =>
    some { s with
      registry :=
        { s.registry with
          sessions := s.sessions.cleanupOfflineConnections candidates threshold now } }
  | .openEpoch id =>
    if s.registry.records.hasNode id then
      some { s with registry := { s.registry with sessions := s.sessions.openEpoch id } }
    else none

end StreamState

/-- Runs start with any nodes and no session state. -/
def streams : Machine.System StreamState StreamAction where
  init s := s.registry.sessions = {} ∧ s.guards = []
  step s a s' := s.apply a = some s'

/-! ## Counting guards -/

section Counting

variable {guards : List StreamConnectionGuard} {guard : Nat} {entry : StreamConnectionGuard}

/-- A new guard is counted in its own epoch. -/
theorem countIn_append (phases : GuardPhase → Bool) (guards : List StreamConnectionGuard)
    (entry : StreamConnectionGuard) (id epoch : Nat) :
    countIn phases (guards ++ [entry]) id epoch =
      countIn phases guards id epoch +
        if entry.nodeId = id ∧ entry.epoch = epoch ∧ phases entry.phase then 1 else 0 := by
  simp [countIn]

/-- A guard that goes on to another phase changes the count of its own epoch only. -/
theorem countIn_set (phases : GuardPhase → Bool) (hentry : guards[guard]? = some entry)
    (phase : GuardPhase) (id epoch : Nat) :
    countIn phases (guards.set guard { entry with phase := phase }) id epoch +
        (if entry.nodeId = id ∧ entry.epoch = epoch ∧ phases entry.phase then 1 else 0) =
      countIn phases guards id epoch +
        if entry.nodeId = id ∧ entry.epoch = epoch ∧ phases phase then 1 else 0 := by
  obtain ⟨hlt, hget⟩ := List.getElem?_eq_some_iff.mp hentry
  have hle : (if entry.nodeId = id ∧ entry.epoch = epoch ∧ phases entry.phase then 1 else 0) ≤
      countIn phases guards id epoch := by
    split
    · next h => exact List.countP_pos_iff.mpr ⟨entry, List.mem_of_getElem? hentry, by simpa using h⟩
    · exact Nat.zero_le _
  have hset := List.countP_set (p := fun g : StreamConnectionGuard =>
    decide (g.nodeId = id ∧ g.epoch = epoch ∧ phases g.phase)) (a := { entry with phase := phase }) hlt
  simp only [hget, decide_eq_true_eq] at hset
  rw [countIn, hset]
  rw [countIn] at hle ⊢
  omega

lemma countIn_eq_zero {phases : GuardPhase → Bool} {id epoch : Nat}
    (h : ∀ entry ∈ guards, entry.epoch ≠ epoch) : countIn phases guards id epoch = 0 := by
  rw [countIn, List.countP_eq_zero]
  intro entry hentry
  simp [h entry hentry]

end Counting

/-! ## The invariant -/

open GuardPhase

/-- The session maps count the guards of the current epochs. -/
structure Counted (sessions : Sessions) (guards : List StreamConnectionGuard) : Prop where
  fresh : sessions.Fresh
  older : ∀ entry ∈ guards, entry.epoch < sessions.nextEpoch
  stateSessions : ∀ id : Nat, sessions.stateSessions[id]?.getD 0 =
    sessions.inCurrentEpoch unreleased guards id
  activeConnections : ∀ id : Nat, sessions.activeConnections[id]?.getD 0 =
    sessions.inCurrentEpoch isHeld guards id
  online : ∀ id : Nat, sessions.onlineStates[id]? = some true →
    0 < sessions.stateSessions[id]?.getD 0
  flags : ∀ (id : Nat) flags, sessions.streamCancelFlags[id]? = some flags →
    flags ≠ [] ∧ ∀ flag ∈ flags, ∃ entry : StreamConnectionGuard, guards[flag]? = some entry ∧
      entry.nodeId = id ∧ sessions.streamSessionEpochs[id]? = some entry.epoch
  unowed : ∀ entry ∈ guards, entry.phase = .unlinked false →
    sessions.streamSessionEpochs[entry.nodeId]? ≠ some entry.epoch

namespace Counted

variable {sessions : Sessions} {guards : List StreamConnectionGuard}

lemma empty : Counted {} [] where
  fresh _ _ h := by simp at h
  older _ h := nomatch h
  stateSessions _ := by simp [inCurrentEpoch]
  activeConnections _ := by simp [inCurrentEpoch]
  online _ h := by simp at h
  flags _ _ h := by simp at h
  unowed _ h := nomatch h

/-- Retirement takes the counts away together with the epochs. -/
theorem retired_count {field : Sessions → ExtTreeMap Nat Nat} {phases : GuardPhase → Bool}
    {records : NodeMap}
    (hfield : ∀ id : Nat, (field (sessions.retireAbsentStreamState records))[id]? =
      if id ∈ sessions.absentIds records then none else (field sessions)[id]?)
    (h : ∀ id : Nat, (field sessions)[id]?.getD 0 = sessions.inCurrentEpoch phases guards id)
    (id : Nat) :
    (field (sessions.retireAbsentStreamState records))[id]?.getD 0 =
      (sessions.retireAbsentStreamState records).inCurrentEpoch phases guards id := by
  rw [hfield, inCurrentEpoch, retired_epoch]
  cases hlive : records.hasNode id with
  | true =>
    have hpresent : id ∉ sessions.absentIds records := by simp [mem_absentIds, hlive]
    rw [if_neg hpresent, if_pos rfl, h, inCurrentEpoch]
  | false =>
    by_cases hid : id ∈ sessions.streamSessionEpochs
    · have habsent : id ∈ sessions.absentIds records := mem_absentIds.mpr ⟨hid, hlive⟩
      simp [habsent]
    -- an id without an epoch has been counted zero before
    have hnone := ExtTreeMap.getElem?_eq_none hid
    have hpresent : id ∉ sessions.absentIds records := fun habsent =>
      hid (mem_absentIds.mp habsent).1
    rw [if_neg hpresent, h, inCurrentEpoch, hnone]
    rfl

lemma retired (h : Counted sessions guards) (records : NodeMap) :
    Counted (sessions.retireAbsentStreamState records) guards where
  fresh := h.fresh.retired records
  older := by simpa using h.older
  stateSessions := retired_count (retired_sessions sessions records) h.stateSessions
  activeConnections := retired_count (retired_active sessions records) h.activeConnections
  online id honline := by
    rw [retired_online] at honline
    rw [retired_sessions]
    split at honline
    · cases honline
    · next hpresent =>
      rw [if_neg hpresent]
      exact h.online id honline
  flags id flags hflags := by
    rw [retired_flags] at hflags
    split at hflags
    · cases hflags
    next hpresent =>
    obtain ⟨hne, hentries⟩ := h.flags id flags hflags
    refine ⟨hne, fun flag hflag => ?_⟩
    obtain ⟨entry, hentry, hid, hepoch⟩ := hentries flag hflag
    refine ⟨entry, hentry, hid, ?_⟩
    have hlive : records.hasNode id = true := by
      by_contra hlive
      refine hpresent (mem_absentIds.mpr ⟨?_, Bool.eq_false_iff.mpr hlive⟩)
      exact mem_iff_isSome_getElem?.mpr (by rw [hepoch]; rfl)
    rw [retired_epoch, if_pos hlive, hepoch]
  unowed entry hentry hphase hepoch := by
    rw [retired_epoch] at hepoch
    split at hepoch
    · exact h.unowed entry hentry hphase hepoch
    · cases hepoch

/-- A stream that is opened next would be counted in an epoch that is counted already. -/
theorem countIn_epochFor (h : Counted sessions guards) (phases : GuardPhase → Bool) (id : Nat) :
    countIn phases guards id (sessions.epochFor id) = sessions.inCurrentEpoch phases guards id := by
  rw [epochFor, inCurrentEpoch]
  cases hepoch : sessions.streamSessionEpochs[id]? with
  | some epoch => rfl
  | none => exact countIn_eq_zero fun entry hentry => (h.older entry hentry).ne

lemma inCurrentEpoch_openEpoch (h : Counted sessions guards) (phases : GuardPhase → Bool)
    (id k : Nat) :
    (sessions.openEpoch id).inCurrentEpoch phases guards k =
      sessions.inCurrentEpoch phases guards k := by
  rw [inCurrentEpoch, openEpoch_epochs]
  split
  · next hk => exact hk ▸ h.countIn_epochFor phases id
  · rfl

lemma openEpoch (h : Counted sessions guards) (id : Nat) :
    Counted (sessions.openEpoch id) guards where
  fresh k epoch hepoch := by
    rw [openEpoch_epochs] at hepoch
    split at hepoch
    · cases hepoch
      exact h.fresh.epochFor_lt id
    · exact (h.fresh k epoch hepoch).trans_le (sessions.openEpoch_nextEpoch id)
  older entry hentry := (h.older entry hentry).trans_le (sessions.openEpoch_nextEpoch id)
  stateSessions k := by
    rw [h.inCurrentEpoch_openEpoch, ← h.stateSessions,
      Sessions.openEpoch_eq Sessions.stateSessions fun _ _ _ => rfl]
  activeConnections k := by
    rw [h.inCurrentEpoch_openEpoch, ← h.activeConnections,
      Sessions.openEpoch_eq Sessions.activeConnections fun _ _ _ => rfl]
  online k honline := by
    rw [Sessions.openEpoch_eq Sessions.onlineStates fun _ _ _ => rfl] at honline
    rw [Sessions.openEpoch_eq Sessions.stateSessions fun _ _ _ => rfl]
    exact h.online k honline
  flags k flags hflags := by
    rw [openEpoch_eq streamCancelFlags fun _ _ _ => rfl] at hflags
    obtain ⟨hne, hentries⟩ := h.flags k flags hflags
    refine ⟨hne, fun flag hflag => ?_⟩
    obtain ⟨entry, hentry, hk, hepoch⟩ := hentries flag hflag
    refine ⟨entry, hentry, hk, (sessions.openEpoch_epoch_iff ?_).mpr hepoch⟩
    exact h.older entry (List.mem_of_getElem? hentry)
  unowed entry hentry hphase hepoch :=
    h.unowed entry hentry hphase ((sessions.openEpoch_epoch_iff (h.older entry hentry)).mp hepoch)

/-- A new stream is counted in the current epoch of its node. -/
theorem inCurrentEpoch_append (phases : GuardPhase → Bool) (hheld : phases .held = true) {id epoch : Nat}
    (hepoch : sessions.streamSessionEpochs[id]? = some epoch) (k : Nat) :
    sessions.inCurrentEpoch phases (guards ++ [{ nodeId := id, epoch := epoch, phase := .held }]) k =
      sessions.inCurrentEpoch phases guards k + if id = k then 1 else 0 := by
  rw [inCurrentEpoch, inCurrentEpoch]
  by_cases hk : id = k
  · subst hk
    simp [hepoch, countIn_append, hheld]
  · cases sessions.streamSessionEpochs[k]? with
    | none => simp [hk]
    | some _ => simp [countIn_append, hk]

lemma acquire (h : Counted sessions guards) (id : Nat) (online : Bool) :
    Counted (sessions.acquire id guards.length online)
      (guards ++ [{ nodeId := id, epoch := sessions.epochFor id, phase := .held }]) := by
  have hopened := h.openEpoch id
  have hepoch : (sessions.openEpoch id).streamSessionEpochs[id]? = some (sessions.epochFor id) := by
    rw [Sessions.openEpoch_epochs, if_pos rfl]
  rw [Sessions.acquire]
  generalize sessions.openEpoch id = opened at hopened hepoch
  generalize sessions.epochFor id = epoch at hepoch
  have hcount : ∀ (field : ExtTreeMap Nat Nat) (phases : GuardPhase → Bool) (_ : phases .held = true)
      (_ : ∀ k : Nat, field[k]?.getD 0 = opened.inCurrentEpoch phases guards k) (k : Nat),
      (field.insert id (field[id]?.getD 0 + 1))[k]?.getD 0 =
        opened.inCurrentEpoch phases
          (guards ++ [{ nodeId := id, epoch := epoch, phase := .held }]) k := by
    intro field phases hheld hfield k
    rw [inCurrentEpoch_append phases hheld hepoch, ExtTreeMap.getElem?_insert, ← hfield]
    by_cases hk : id = k
    · subst hk
      simp
    · simp [hk]
  exact
    { fresh := hopened.fresh
      older := by
        intro entry hentry
        obtain hentry | hentry := List.mem_append.mp hentry
        · exact hopened.older entry hentry
        · obtain rfl := List.mem_singleton.mp hentry
          exact hopened.fresh id epoch hepoch
      stateSessions := hcount _ unreleased rfl hopened.stateSessions
      activeConnections := hcount _ isHeld rfl hopened.activeConnections
      online := by
        intro k honline
        simp only [ExtTreeMap.getElem?_insert] at honline ⊢
        by_cases hk : id = k
        · simp [hk]
        · simp only [Std.compare_eq_iff_eq, hk] at honline ⊢
          exact hopened.online k honline
      flags := by
        intro k flags hflags
        have hkept : ∀ flag : Nat, (∃ entry : StreamConnectionGuard, guards[flag]? = some entry ∧
            entry.nodeId = k ∧ opened.streamSessionEpochs[k]? = some entry.epoch) →
            ∃ entry : StreamConnectionGuard,
              (guards ++ [{ nodeId := id, epoch := epoch, phase := .held }])[flag]? = some entry ∧
              entry.nodeId = k ∧ opened.streamSessionEpochs[k]? = some entry.epoch := by
          rintro flag ⟨entry, hentry, hrest⟩
          obtain ⟨hlt, -⟩ := List.getElem?_eq_some_iff.mp hentry
          exact ⟨entry, (List.getElem?_append_left hlt).trans hentry, hrest⟩
        simp only [TreeMap.getElem?_push] at hflags
        by_cases hk : id = k
        · subst hk
          rw [if_pos rfl, Option.some_inj] at hflags
          subst hflags
          refine ⟨by simp, fun flag hflag => ?_⟩
          obtain hflag | hflag := List.mem_append.mp hflag
          · cases hold : opened.streamCancelFlags[id]? with
            | none => simp [hold] at hflag
            | some flags =>
              rw [hold, Option.getD_some] at hflag
              exact hkept flag ((hopened.flags id flags hold).2 flag hflag)
          · -- the flag of the new stream is its guard's place
            obtain rfl := List.mem_singleton.mp hflag
            exact ⟨_, List.getElem?_concat_length, rfl, hepoch⟩
        · rw [if_neg hk] at hflags
          obtain ⟨hne, hentries⟩ := hopened.flags k flags hflags
          exact ⟨hne, fun flag hflag => hkept flag (hentries flag hflag)⟩
      unowed := by
        intro entry hentry hphase
        obtain hentry | hentry := List.mem_append.mp hentry
        · exact hopened.unowed entry hentry hphase
        · obtain rfl := List.mem_singleton.mp hentry
          cases hphase }

/-- Only the online states are changed. -/
theorem withOnline (h : Counted sessions guards) {online : ExtTreeMap Nat Bool}
    (honline : ∀ id : Nat, online[id]? = some true → 0 < sessions.stateSessions[id]?.getD 0) :
    Counted { sessions with onlineStates := online } guards :=
  { h with online := honline }

/-! ### Guards that go on -/

section Move

variable {guard : Nat} {entry : StreamConnectionGuard}

lemma inCurrentEpoch_set (sessions : Sessions) (phases : GuardPhase → Bool) (hentry : guards[guard]? = some entry)
    (phase : GuardPhase) (id : Nat) :
    sessions.inCurrentEpoch phases (guards.set guard { entry with phase := phase }) id +
        (if entry.nodeId = id ∧ sessions.streamSessionEpochs[id]? = some entry.epoch ∧
          phases entry.phase then 1 else 0) =
      sessions.inCurrentEpoch phases guards id +
        if entry.nodeId = id ∧ sessions.streamSessionEpochs[id]? = some entry.epoch ∧
          phases phase then 1 else 0 := by
  rw [inCurrentEpoch, inCurrentEpoch]
  cases sessions.streamSessionEpochs[id]? with
  | none => simp
  | some epoch =>
    simp only [Option.some.injEq, eq_comm (a := epoch)]
    exact countIn_set phases hentry phase id epoch

variable {phases : GuardPhase → Bool} {field : ExtTreeMap Nat Nat}

/-- The count of the others and of the other epochs stays. -/
theorem kept_count
    (hfield : ∀ id : Nat, field[id]?.getD 0 = sessions.inCurrentEpoch phases guards id)
    (hentry : guards[guard]? = some entry) {phase : GuardPhase}
    (h : sessions.streamSessionEpochs[entry.nodeId]? = some entry.epoch →
      phases entry.phase = phases phase) (id : Nat) :
    field[id]?.getD 0 =
      sessions.inCurrentEpoch phases (guards.set guard { entry with phase := phase }) id := by
  rw [hfield]
  have hset := (inCurrentEpoch_set sessions phases hentry phase id).symm
  by_cases hcurrent : entry.nodeId = id ∧ sessions.streamSessionEpochs[id]? = some entry.epoch
  · obtain ⟨rfl, hepoch⟩ := hcurrent
    simpa [h hepoch] using hset
  have hnone : ∀ phase, ¬ (entry.nodeId = id ∧
      sessions.streamSessionEpochs[id]? = some entry.epoch ∧ phases phase = true) := by
    rintro phase ⟨hid, hepoch, -⟩
    exact hcurrent ⟨hid, hepoch⟩
  simpa [hnone] using hset

/-- The counts after a guard has gone on, given that they are right. -/
theorem move (h : Counted sessions guards) (hentry : guards[guard]? = some entry) {phase : GuardPhase}
    (hunowed : phase = .unlinked false → sessions.streamSessionEpochs[entry.nodeId]? ≠ some entry.epoch)
    {active state : ExtTreeMap Nat Nat} {online : ExtTreeMap Nat Bool} {disconnected : ExtTreeMap Nat Int}
    (hstate : ∀ id : Nat, state[id]?.getD 0 = sessions.inCurrentEpoch unreleased
      (guards.set guard { entry with phase := phase }) id)
    (hactive : ∀ id : Nat, active[id]?.getD 0 = sessions.inCurrentEpoch isHeld
      (guards.set guard { entry with phase := phase }) id)
    (honline : ∀ id : Nat, online[id]? = some true → 0 < state[id]?.getD 0) :
    Counted
      { sessions with
        activeConnections := active
        stateSessions := state
        onlineStates := online
        disconnectedAt := disconnected }
      (guards.set guard { entry with phase := phase }) where
  fresh := h.fresh
  older other hother := by
    obtain hother | rfl := List.mem_or_eq_of_mem_set hother
    · exact h.older other hother
    · exact h.older entry (List.mem_of_getElem? hentry)
  stateSessions := hstate
  activeConnections := hactive
  online := honline
  flags id flags hflags := by
    obtain ⟨hne, hentries⟩ := h.flags id flags hflags
    refine ⟨hne, fun flag hflag => ?_⟩
    obtain ⟨other, hother, hrest⟩ := hentries flag hflag
    by_cases hsame : guard = flag
    · subst hsame
      cases hentry.symm.trans hother
      obtain ⟨hlt, -⟩ := List.getElem?_eq_some_iff.mp hentry
      exact ⟨{ entry with phase := phase }, List.getElem?_set_self hlt, hrest⟩
    · exact ⟨other, (List.getElem?_set_ne hsame).trans hother, hrest⟩
  unowed other hother hphase := by
    obtain hother | rfl := List.mem_or_eq_of_mem_set hother
    · exact h.unowed other hother hphase
    · exact hunowed hphase

/-- A guard of an epoch that is over goes on without the counts. -/
theorem move_retired (h : Counted sessions guards) (hentry : guards[guard]? = some entry)
    (hover : sessions.streamSessionEpochs[entry.nodeId]? ≠ some entry.epoch) (phase : GuardPhase) :
    Counted sessions (guards.set guard { entry with phase := phase }) := by
  refine h.move hentry (fun _ => hover) ?_ ?_ h.online
  · exact kept_count h.stateSessions hentry fun hepoch => absurd hepoch hover
  · exact kept_count h.activeConnections hentry fun hepoch => absurd hepoch hover

/-- A count that is lowered for a guard of the current epoch. -/
theorem lowered_count
    (hfield : ∀ id : Nat, field[id]?.getD 0 = sessions.inCurrentEpoch phases guards id)
    (hentry : guards[guard]? = some entry)
    (hepoch : sessions.streamSessionEpochs[entry.nodeId]? = some entry.epoch) (phase : GuardPhase)
    (hbefore : phases entry.phase = true) (hafter : phases phase = false) (id : Nat) :
    (field.insert entry.nodeId (field[entry.nodeId]?.getD 0 - 1))[id]?.getD 0 =
      sessions.inCurrentEpoch phases (guards.set guard { entry with phase := phase }) id := by
  have hset := inCurrentEpoch_set sessions phases hentry phase id
  rw [ExtTreeMap.getElem?_insert]
  by_cases hid : entry.nodeId = id
  · subst hid
    simp only [hepoch, hbefore, hafter, and_self, if_true, Bool.false_eq_true, and_false, if_false] at hset
    simp only [Std.compare_eq_iff_eq, if_true, Option.getD_some, hfield]
    omega
  · simp only [hid, false_and, if_false, Nat.add_zero] at hset
    simp only [Std.compare_eq_iff_eq, hid, if_false, hfield, hset]

/-- There is a count to be lowered. -/
theorem count_pos
    (hfield : ∀ id : Nat, field[id]?.getD 0 = sessions.inCurrentEpoch phases guards id)
    (hentry : guards[guard]? = some entry)
    (hepoch : sessions.streamSessionEpochs[entry.nodeId]? = some entry.epoch)
    (hphase : phases entry.phase = true) : 0 < field[entry.nodeId]?.getD 0 := by
  rw [hfield, inCurrentEpoch, hepoch]
  exact List.countP_pos_iff.mpr ⟨entry, List.mem_of_getElem? hentry, by simp [hphase]⟩

lemma unlink (h : Counted sessions guards) (hentry : guards[guard]? = some entry)
    (hheld : entry.phase = .held) (now : Int) :
    Counted (sessions.releaseStreamConnection entry.nodeId entry.epoch now).1
      (guards.set guard { entry with
        phase := .unlinked (sessions.releaseStreamConnection entry.nodeId entry.epoch now).2.isSome }) := by
  rw [releaseStreamConnection]
  by_cases hepoch : sessions.streamSessionEpochs[entry.nodeId]? = some entry.epoch
  · have hpos := count_pos h.activeConnections hentry hepoch (by rw [hheld]; rfl)
    obtain ⟨count, hcount⟩ : ∃ count, sessions.activeConnections[entry.nodeId]? = some count := by
      cases hcount : sessions.activeConnections[entry.nodeId]? with
      | none => simp [hcount] at hpos
      | some count => exact ⟨count, rfl⟩
    simp only [ne_eq, hepoch, hcount]
    refine h.move hentry (by rintro ⟨⟩) ?_ (fun id => ?_) h.online
    · exact kept_count h.stateSessions hentry fun _ => by rw [hheld]; rfl
    · rw [← lowered_count h.activeConnections hentry hepoch _ (by rw [hheld]; rfl) rfl, hcount,
        Option.getD_some]
  · simp only [ne_eq, hepoch]
    exact h.move_retired hentry hepoch _

/-- The state session of the guard is released, and with the last one the node goes offline. -/
theorem release (h : Counted sessions guards) (hentry : guards[guard]? = some entry)
    (hphase : entry.phase = .releasing) {records : NodeMap} (hsettled : Settled records sessions)
    (now : Int) :
    Counted (releaseStateSession entry.nodeId (some entry.epoch) now records sessions).sessions
      (guards.set guard { entry with phase := .ended }) := by
  rw [releaseStateSession]
  by_cases hepoch : sessions.streamSessionEpochs[entry.nodeId]? = some entry.epoch
  · have hlive : records.hasNode entry.nodeId = true := by
      refine hsettled.live entry.nodeId (mem_iff_isSome_getElem?.mpr ?_)
      rw [hepoch]
      rfl
    rw [← NodeMap.findById_isSome, Option.isSome_iff_exists] at hlive
    obtain ⟨⟨key, record⟩, hfound⟩ := hlive
    have hstate := lowered_count h.stateSessions hentry hepoch .ended
      (by rw [hphase]; rfl) rfl
    have hactive : ∀ id : Nat, sessions.activeConnections[id]?.getD 0 =
        sessions.inCurrentEpoch isHeld (guards.set guard { entry with phase := .ended }) id :=
      kept_count h.activeConnections hentry fun _ => by rw [hphase]; rfl
    simp only [streamEpochMatches, Option.all_some, hepoch, decide_true, Bool.not_true,
      Bool.false_eq_true, if_false, hfound]
    split
    · next hremaining =>
      refine h.move hentry (by rintro ⟨⟩) hstate hactive fun id honline => ?_
      rw [ExtTreeMap.getElem?_insert]
      by_cases hid : entry.nodeId = id
      · simpa [hid] using hremaining
      · simpa [hid] using h.online id honline
    · refine h.move hentry (by rintro ⟨⟩) hstate hactive fun id honline => ?_
      simp only [ExtTreeMap.getElem?_insert, Std.compare_eq_iff_eq] at honline ⊢
      by_cases hid : entry.nodeId = id
      · simp [hid] at honline
      · simp only [hid] at honline ⊢
        exact h.online id honline
  · simp only [streamEpochMatches, Option.all_some, hepoch]
    exact h.move_retired hentry hepoch _

/-- Only a guard of an epoch that is over has no state session to release. -/
theorem forget (h : Counted sessions guards) (hentry : guards[guard]? = some entry) {owed : Bool}
    (hphase : entry.phase = .unlinked owed) :
    Counted sessions
      (guards.set guard { entry with phase := if owed then .releasing else .ended }) := by
  cases owed with
  | false =>
    exact h.move_retired hentry (h.unowed entry (List.mem_of_getElem? hentry) hphase) _
  | true =>
    refine h.move hentry (by rintro ⟨⟩) ?_ ?_ h.online
    · exact kept_count h.stateSessions hentry fun _ => by rw [hphase]; rfl
    · exact kept_count h.activeConnections hentry fun _ => by rw [hphase]; rfl

end Move

lemma forgetFlag (h : Counted sessions guards) (id flag : Nat) :
    Counted (sessions.forgetStreamCancelFlag id flag) guards where
  fresh := h.fresh
  older := h.older
  stateSessions := h.stateSessions
  activeConnections := h.activeConnections
  online := h.online
  flags k flags hflags := by
    simp only [forgetStreamCancelFlag, getElem?_alter, Std.compare_eq_iff_eq] at hflags
    by_cases hk : id = k
    · subst hk
      rw [if_pos rfl] at hflags
      obtain ⟨old, hold, hrest⟩ := Option.bind_eq_some_iff.mp hflags
      split at hrest <;> cases hrest
      rename_i hne
      refine ⟨hne, fun flag hflag => ?_⟩
      exact (h.flags id old hold).2 flag (List.mem_filter.mp hflag).1
    · rw [if_neg hk] at hflags
      exact h.flags k flags hflags
  unowed := h.unowed

lemma cleanupNode (h : Counted sessions guards) (threshold now : Int) (id : Nat) :
    Counted (sessions.cleanupNode threshold now id) guards := by
  rw [Sessions.cleanupNode]
  split
  · exact h
  next hzero =>
  split
  · exact h
  split
  · exact h
  refine { h with activeConnections := fun k => ?_ }
  rw [getElem?_erase]
  by_cases hk : id = k
  · -- a count of zero is dropped
    subst hk
    simp only [Std.compare_eq_iff_eq]
    exact (not_not.mp hzero).symm.trans (h.activeConnections id)
  · simp only [Std.compare_eq_iff_eq, hk]
    exact h.activeConnections k

lemma cleanup (h : Counted sessions guards) (candidates : List Nat) (threshold now : Int) :
    Counted (sessions.cleanupOfflineConnections candidates threshold now) guards := by
  induction candidates generalizing sessions with
  | nil => exact h
  | cons id candidates ih => exact ih (h.cleanupNode threshold now id)

end Counted

/-- No node is taken online by an expiry pass. -/
theorem foldl_expireStep_online {needsPeerRecompute : MachineRecord → Bool} {lastCheck now : Int}
    {candidates : ExtTreeSet Nat} {entries : List (String × MachineRecord)} {loop : ExpiryLoop} {id : Nat}
    (h : (entries.foldl (expireStep needsPeerRecompute lastCheck now candidates)
      loop).onlineStates[id]? = some true) :
    loop.onlineStates[id]? = some true := by
  induction entries generalizing loop with
  | nil => exact h
  | cons entry entries ih =>
    have hstep := ih h
    rw [expireStep] at hstep
    split at hstep
    · simp only [ExtTreeMap.getElem?_insert] at hstep
      split at hstep
      · cases hstep
      · exact hstep
    · exact hstep

open StreamState

lemma Counted.editExpiry {sessions : Sessions} {guards : List StreamConnectionGuard}
    (h : Counted sessions guards) (found : Option (String × MachineRecord)) (expiry : Option Int)
    (now : Int) (records : NodeMap) :
    Counted (editExpiry found expiry now records sessions).sessions guards := by
  cases found with
  | none => exact h
  | some entry =>
    refine h.withOnline fun id honline => ?_
    rw [ExtTreeMap.getElem?_insert] at honline
    split at honline
    · next hid =>
      rw [Std.compare_eq_iff_eq] at hid
      obtain ⟨hpos, -⟩ : 0 < sessions.stateSessions[stableNodeIdForKey entry.1 entry.2]?.getD 0 ∧ _ := by
        simpa using honline
      exact hid ▸ hpos
    · exact h.online id honline

namespace StreamState

/-- What holds in every state of a run. -/
structure Sound (s : StreamState) : Prop where
  settled : Settled s.registry.records s.sessions
  counted : Counted s.sessions s.guards

variable {s s' : StreamState}

/-- An update keeps the state sound if what it does to the sessions keeps the counts. -/
theorem Sound.update {ω : Type} (h : s.Sound) (publish : ω → Bool) {update : Update ω}
    {guards : List StreamConnectionGuard}
    (hcounted : Counted (update.run s.registry.records s.sessions).sessions guards) :
    Sound { registry := (s.registry.applyNodestoreUpdateDirect publish update).1, guards := guards } := by
  rw [Registry.applyNodestoreUpdateDirect]
  split
  · exact ⟨settled_retired _ _, hcounted.retired _⟩
  · exact ⟨h.settled.grow (update.grows s.registry.records s.sessions), hcounted⟩

lemma Sound.acquire (h : s.Sound) (closing : Bool) (id : Nat) (now : Int) :
    (s.acquire closing id now).Sound := by
  refine h.update _ ?_
  show Counted (acquireStream closing id s.guards.length now s.registry.records s.sessions).sessions _
  rw [acquireStream]
  cases closing with
  | true => exact { h.counted with }
  | false =>
    cases hfound : s.registry.records.findById id with
    | none =>
      rw [← NodeMap.findById_isSome, hfound]
      exact h.counted
    | some entry =>
      rw [← NodeMap.findById_isSome, hfound]
      exact h.counted.acquire id _

lemma sound_init (h : streams.init s) : s.Sound := by
  obtain ⟨hsessions, hguards⟩ := h
  refine ⟨⟨fun id hid => ?_, fun key timer htimer => ?_⟩, ?_⟩
  · rw [sessions, hsessions] at hid
    exact absurd hid not_mem_empty
  · rw [sessions, hsessions] at htimer
    simp at htimer
  · rw [sessions, hsessions, hguards]
    exact Counted.empty

variable {a : StreamAction}

lemma sound_step (h : s.Sound) (hstep : s.apply a = some s') : s'.Sound := by
  cases a with
  | acquire closing id now =>
    cases hstep
    exact h.acquire closing id now
  | unlink guard now =>
    obtain ⟨entry, hentry, hstep⟩ := Option.bind_eq_some_iff.mp hstep
    split at hstep <;> cases hstep
    rename_i hheld
    exact ⟨h.settled.grow (s.sessions.releaseStreamConnection_grows _ _ _ now),
      h.counted.unlink hentry hheld now⟩
  | forget guard =>
    obtain ⟨entry, hentry, hstep⟩ := Option.bind_eq_some_iff.mp hstep
    split at hstep <;> cases hstep
    rename_i owed hphase
    exact ⟨h.settled.grow (.of_eq rfl rfl rfl), (h.counted.forget hentry hphase).forgetFlag _ _⟩
  | release guard now =>
    obtain ⟨entry, hentry, hstep⟩ := Option.bind_eq_some_iff.mp hstep
    split at hstep <;> cases hstep
    rename_i hphase
    exact h.update _ (h.counted.release hentry hphase h.settled now)
  | write next =>
    cases hstep
    exact ⟨settled_retired _ _, h.counted.retired _⟩
  | setNodeExpiry _ expiry now | setExpiry _ expiry now =>
    cases hstep
    exact h.update _ (h.counted.editExpiry _ expiry now s.registry.records)
  | expire needsPeerRecompute candidates lastCheck now =>
    cases hstep
    exact h.update _ (h.counted.withOnline fun id honline =>
      h.counted.online id (foldl_expireStep_online honline))
  | cleanup candidates threshold now =>
    cases hstep
    refine ⟨h.settled.grow (.of_eq ?_ ?_ ?_), h.counted.cleanup candidates threshold now⟩
    · exact cleanup_eq streamSessionEpochs (fun _ _ _ => rfl) ..
    · exact cleanup_eq nextEpoch (fun _ _ _ => rfl) ..
    · exact cleanup_eq ephemeralGc (fun _ _ _ => rfl) ..
  | openEpoch id =>
    rw [apply] at hstep
    split at hstep <;> cases hstep
    rename_i hlive
    exact ⟨h.settled.grow (openEpoch_grows hlive s.sessions), h.counted.openEpoch id⟩

/-- The flag of a guard of an epoch that is over has been dropped with the epoch. -/
theorem Counted.forgetFlag_retired {sessions : Sessions} {guards : List StreamConnectionGuard}
    (h : Counted sessions guards) {guard : Nat} {entry : StreamConnectionGuard}
    (hentry : guards[guard]? = some entry)
    (hover : sessions.streamSessionEpochs[entry.nodeId]? ≠ some entry.epoch) :
    sessions.forgetStreamCancelFlag entry.nodeId guard = sessions := by
  have hflags : (sessions.forgetStreamCancelFlag entry.nodeId guard).streamCancelFlags =
      sessions.streamCancelFlags := by
    refine ExtTreeMap.ext_getElem? fun id => ?_
    simp only [forgetStreamCancelFlag, getElem?_alter, Std.compare_eq_iff_eq]
    split
    · next hid =>
      subst hid
      cases hflags : sessions.streamCancelFlags[entry.nodeId]? with
      | none => rfl
      | some flags =>
        obtain ⟨hne, hentries⟩ := h.flags entry.nodeId flags hflags
        have hfilter : flags.filter (· ≠ guard) = flags := by
          refine List.filter_eq_self.mpr fun flag hflag => decide_eq_true ?_
          rintro rfl
          obtain ⟨other, hother, -, hepoch⟩ := hentries flag hflag
          cases hentry.symm.trans hother
          exact hover hepoch
        rw [Option.bind_some, hfilter, if_neg hne]
    · rfl
  exact congrArg (fun flags => { sessions with streamCancelFlags := flags }) hflags

/-- The steps by which a guard is dropped and released. -/
def OfGuard (guard : Nat) : StreamAction → Prop
  | .unlink i _ => i = guard
  | .forget i => i = guard
  | .release i _ => i = guard
  | _ => False

lemma retired_step (h : s.Sound) {guard : Nat} {entry : StreamConnectionGuard}
    (hentry : s.guards[guard]? = some entry)
    (hover : s.sessions.streamSessionEpochs[entry.nodeId]? ≠ some entry.epoch)
    (ha : OfGuard guard a) (hstep : s.apply a = some s') : s'.registry = s.registry := by
  cases a with
  | unlink i now =>
    obtain rfl := ha
    simp only [apply, hentry, Option.bind_eq_bind, Option.bind_some,
      releaseStreamConnection] at hstep
    split at hstep <;> cases hstep
    rfl
  | forget i =>
    obtain rfl := ha
    simp only [apply, hentry, Option.bind_eq_bind, Option.bind_some,
      Counted.forgetFlag_retired h.counted hentry hover] at hstep
    split at hstep <;> cases hstep
    rfl
  | release i now =>
    obtain rfl := ha
    simp only [apply, hentry, Option.bind_eq_bind, Option.bind_some] at hstep
    split at hstep <;> cases hstep
    have hrun : (stateRelease entry.nodeId (some entry.epoch) now).run s.registry.records
        s.registry.sessions =
          { records := s.registry.records
            sessions := s.registry.sessions
            outcome := .unchanged false } := releaseStateSession_retired hover now _
    rw [Registry.applyNodestoreBoolUpdateDirect, Registry.applyNodestoreUpdateDirect, hrun]
    rfl
  | acquire | write | setNodeExpiry | setExpiry | expire | cleanup | openEpoch => exact ha.elim

end StreamState

lemma streams_sound {s : StreamState} (h : streams.Reachable s) : s.Sound :=
  h.invariant (fun _ => sound_init) fun _ _ _ hsound hstep _ =>
    sound_step hsound hstep

/-- In every state of a run the session maps count exactly the guards of the current incarnations, a
node is online only with a session, and what is left of an earlier incarnation changes nothing. -/
theorem stream_sessions_exact {s : StreamState} (h : streams.Reachable s) :
    (∀ id : Nat, s.sessions.stateSessions[id]?.getD 0 =
      s.sessions.inCurrentEpoch unreleased s.guards id) ∧
    (∀ id : Nat, s.sessions.activeConnections[id]?.getD 0 =
      s.sessions.inCurrentEpoch isHeld s.guards id) ∧
    (∀ id : Nat, s.sessions.onlineStates[id]?.getD false = true →
      0 < s.sessions.stateSessions[id]?.getD 0) ∧
    ∀ (guard : Nat) (entry : StreamConnectionGuard), s.guards[guard]? = some entry →
      s.sessions.streamSessionEpochs[entry.nodeId]? ≠ some entry.epoch →
      ∀ a s', StreamState.OfGuard guard a → streams.step s a s' → s'.registry = s.registry := by
  have hsound := streams_sound h
  refine ⟨hsound.counted.stateSessions, hsound.counted.activeConnections, fun id honline => ?_,
    fun guard entry hentry hover a s' ha hstep => retired_step hsound hentry hover ha hstep⟩
  refine hsound.counted.online id ?_
  cases hstate : s.sessions.onlineStates[id]? with
  | none => simp [hstate] at honline
  | some online => simpa [hstate] using honline

/-- A node with a stream is deleted and another one is given its id before the stream is dropped. -/
def reincarnated : Option StreamState :=
  let node : MachineRecord := { nodeId := some 7 }
  [.acquire false 7 1, .write (·.erase "nk-a"), .write (·.insert "nk-b" node), .acquire false 7 2,
    .unlink 0 3, .forget 0].foldlM apply
    { registry := { records := (∅ : NodeMap).insert "nk-a" node } }

theorem reincarnated_sessions_exact :
    ∃ s, reincarnated = some s ∧ s.guards.length = 2 ∧
      s.sessions.stateSessions[7]? = some 1 ∧
      s.sessions.inCurrentEpoch unreleased s.guards 7 = 1 ∧
      s.sessions.inCurrentEpoch isHeld s.guards 7 = 1 := by
  have hrun : reincarnated.map (fun s => (s.guards.length, s.sessions.stateSessions[7]?,
      s.sessions.activeConnections[7]?)) = some (2, some 1, some 1) := by decide +kernel
  obtain ⟨s, hs, hvalues⟩ := Option.map_eq_some_iff.mp hrun
  obtain ⟨hlength, hstate, hactive⟩ : s.guards.length = 2 ∧
      s.sessions.stateSessions[7]? = some 1 ∧ s.sessions.activeConnections[7]? = some 1 := by
    simpa using hvalues
  have hreachable : streams.Reachable s :=
    .foldlM (fun _ _ _ _ h => h) (fun _ _ _ _ => trivial) (.init ⟨rfl, rfl⟩) hs
  obtain ⟨hsessions, hheld, -⟩ := stream_sessions_exact hreachable
  refine ⟨s, hs, hlength, hstate, ?_, ?_⟩
  · rw [← hsessions, hstate]
    rfl
  · rw [← hheld, hactive]
    rfl

end Headscale.NodeStore
