import Headscale.Node.Saves

/-!
# Registrations that fail

A registration of an existing node edits the live record before it takes the persistence lock, and
takes the edit back when its commit fails, in memory. A disconnect save that reads the node in between
writes the refused values to the row, and nothing takes them back there. As long as no disconnect save
reads the node between the edit and the lock, a failed registration leaves no trace: the record is what
it was, up to the time it was last seen, and so is the row or it is a save of that record.
-/

namespace Headscale.Node

open Db Machine NativeNodePersistence Option

/-! ## Saves of the node as it was -/

section Own

variable (codec : HostCodec) (id : Nat) (record₀ : MachineRecord)

/-- The stored shapes that come from the first one by saves of the node as it was. -/
inductive OwnShape (native₀ : Option NativeNodePersistence) : Option NativeNodePersistence → Prop where
  | start : OwnShape native₀ native₀
  | refresh {native native' : NativeNodePersistence} {seen : Int}
      (h : OwnShape native₀ (some native))
      (hrefresh : refreshHostInfo codec { record₀ with lastSeen := seen } native = .ok native') :
      OwnShape native₀ (some native')
  | remember {native : Option NativeNodePersistence} {seen : Int} {node : CachedNodeSnapshot}
      (h : OwnShape native₀ native)
      (hnode : snapshot codec id { record₀ with lastSeen := seen } native =
        .ok node) :
      OwnShape native₀ (some (.fromSnapshot { record₀ with lastSeen := seen } node native))

/-- The columns as they were, or those of a save of the node as it was. -/
def OwnColumns (native₀ : Option NativeNodePersistence) (columns₀ columns : NodeColumns) : Prop :=
  columns = columns₀ ∨ ∃ native seen node, OwnShape codec id record₀ native₀ native ∧
    snapshot codec id { record₀ with lastSeen := seen } native = .ok node ∧
    columns = node.columns

end Own

/-! ## Runs with one registration -/

/-- One task registers the node by auth key, and all others are disconnects. -/
def OneRegistration (r : Nat) : SaveAction → Prop
  | .begin task (.register request) => task = r ∧ request.authKey = true
  | .begin _ _ => False
  | .stamp task _ => task ≠ r
  | _ => True

/-- No disconnect save reads the node between the live edit of a registration and its lock. -/
def NoReadBetween (s : SaveState) (action : SaveAction) : Prop :=
  ∀ task, action = .read task → s.phase task = .reading .disconnect →
    ∀ other live, s.phase other ≠ .registered live

/-- The phases of a disconnect save. -/
def SavePhase.ofDisconnect : SavePhase → Bool
  | .idle => true
  | .edited saver => saver = .disconnect
  | .reading saver => saver = .disconnect
  | .writing saver _ => saver = .disconnect
  | .done => true
  | .failed _ => true
  | _ => false

section Contained

variable (codec : HostCodec) (id : Nat) (r : Nat) (record₀ : MachineRecord)
variable (native₀ : Option NativeNodePersistence) (row₀ : NodeRow)

/-- The live node, by the phase of the registration: as it was, or edited with what is needed to take
the edit back. -/
def LiveContained (s : SaveState) : SavePhase → Prop
  | .idle | .guarded (.register _) | .failed _ =>
    ∃ seen, s.record = { record₀ with lastSeen := seen } ∧ OwnShape codec id record₀ native₀ s.native
  | .registered live | .committing live | .failing live _ =>
    (∃ seen, live.before = { record₀ with lastSeen := seen }) ∧
      OwnShape codec id record₀ native₀ live.nativeBefore ∧ live.authKey = true ∧
      ∃ seen, s.record = { live.after with lastSeen := seen }
  | _ => False

/-- The refused values are in the live node only, and only while they can be taken back. -/
structure Contained (s : SaveState) : Prop where
  row : ∃ row, s.db.node id = some row ∧
    OwnColumns codec id record₀ native₀ row₀.columns row.columns ∧
    row.authKeyId = row₀.authKeyId ∧ row.expiry = row₀.expiry
  reads : ∀ task saver fresh, s.phase task = .writing saver fresh →
    (∃ seen, fresh.record = { record₀ with lastSeen := seen }) ∧
      OwnShape codec id record₀ native₀ fresh.native ∧ fresh.node.id = id ∧
      snapshot codec id fresh.record fresh.native = .ok fresh.node
  live : LiveContained codec id record₀ native₀ s (s.phase r)
  others : ∀ task, task ≠ r → (s.phase task).ofDisconnect = true
  guarded : ∀ request, s.phase r = .guarded (.register request) → request.authKey = true

end Contained

section Steps

variable {codec : HostCodec} {id r : Nat} {record₀ : MachineRecord}
variable {native₀ : Option NativeNodePersistence} {row₀ : NodeRow} {s s' : SaveState}
  {fresh : FreshRead} {action : SaveAction} {native : Option NativeNodePersistence}
  {node : CachedNodeSnapshot}

lemma snapshot_id {record : MachineRecord}
    (h : snapshot codec id record native = .ok node) : node.id = id := by
  obtain ⟨signed, hsigned, h⟩ := Result.bind_eq_ok.mp h
  obtain ⟨hostInfo, -, h⟩ := Result.bind_eq_ok.mp h
  obtain ⟨userId, -, h⟩ := Result.bind_eq_ok.mp h
  cases h
  obtain ⟨value, hvalue, hok⟩ := Result.elim_eq_ok.mp hsigned
  cases hok
  unfold toSigned at hvalue
  split at hvalue
  · exact (Option.some.inj hvalue).symm
  · cases hvalue

lemma OwnShape.refreshNative {native' : Option NativeNodePersistence} {seen : Int}
    (h : OwnShape codec id record₀ native₀ native)
    (hrefresh : refreshNative codec { record₀ with lastSeen := seen } native = .ok native') :
    OwnShape codec id record₀ native₀ native' := by
  cases native with
  | none =>
    cases hrefresh
    exact h
  | some prior =>
    cases hprior : refreshHostInfo codec { record₀ with lastSeen := seen } prior with
    | error error => simp [Node.refreshNative, hprior, Except.map] at hrefresh
    | ok refreshed =>
      simp only [Node.refreshNative, hprior, Except.map, Except.ok.injEq] at hrefresh
      subst hrefresh
      exact .refresh h hprior

variable {task : Nat} {phase : SavePhase}

/-- A live node as it was, with another stored shape and another time it was last seen. -/
theorem LiveContained.seen {now : Int} (h : LiveContained codec id record₀ native₀ s phase)
    (hnative : OwnShape codec id record₀ native₀ s.native → OwnShape codec id record₀ native₀ s'.native)
    (hrecord : s'.record = { s.record with lastSeen := now }) :
    LiveContained codec id record₀ native₀ s' phase := by
  cases phase with
  | idle | failed =>
    obtain ⟨seen, hseen, hshape⟩ := h
    exact ⟨now, by rw [hrecord, hseen], hnative hshape⟩
  | guarded call =>
    cases call with
    | register request =>
      obtain ⟨seen, hseen, hshape⟩ := h
      exact ⟨now, by rw [hrecord, hseen], hnative hshape⟩
    | mutate | approve => exact h
  | registered live | committing live | failing live =>
    obtain ⟨hbefore, hshape, hauth, seen, hseen⟩ := h
    exact ⟨hbefore, hshape, hauth, now, by rw [hrecord, hseen]⟩
  | edited | reading | writing | expiryEdited | writingExpiry | done => exact h

/-- A save that has read the node has read it as it was. -/
def ReadsOwn (codec : HostCodec) (id : Nat) (record₀ : MachineRecord)
    (native₀ : Option NativeNodePersistence) (phase : SavePhase) : Prop :=
  ∀ saver fresh, phase = .writing saver fresh →
    (∃ seen, fresh.record = { record₀ with lastSeen := seen }) ∧
      OwnShape codec id record₀ native₀ fresh.native ∧ fresh.node.id = id ∧
      snapshot codec id fresh.record fresh.native = .ok fresh.node

section

variable (h : Contained codec id r record₀ native₀ row₀ s)

include h

/-- A task changes its phase. -/
theorem Contained.update (hphase : s'.phase = Function.update s.phase task phase)
    (hrow : s'.db = s.db) (hreads : ReadsOwn codec id record₀ native₀ phase)
    (hlive : LiveContained codec id record₀ native₀ s' (s'.phase r))
    (hother : task ≠ r → phase.ofDisconnect = true)
    (hguarded : ∀ request, phase = .guarded (.register request) → request.authKey = true) :
    Contained codec id r record₀ native₀ row₀ s' where
  row := hrow ▸ h.row
  reads := by
    rw [hphase]
    exact (Function.forall_update_iff _ fun _ => ReadsOwn codec id record₀ native₀).mpr
      ⟨hreads, fun other _ => h.reads other⟩
  live := hlive
  others := by
    rw [hphase]
    exact (Function.forall_update_iff _ fun other (phase : SavePhase) =>
      other ≠ r → phase.ofDisconnect = true).mpr ⟨hother, fun other _ => h.others other⟩
  guarded := by
    rw [hphase]
    by_cases htask : r = task
    · rw [htask, Function.update_self]
      exact hguarded
    · rw [Function.update_of_ne htask]
      exact h.guarded

lemma Contained.registration (hphase : s.phase task = phase) (hown : phase.ofDisconnect = false) :
    task = r ∧ LiveContained codec id record₀ native₀ s phase := by
  subst hphase
  obtain rfl : task = r := by
    by_contra hne
    rw [h.others task hne] at hown
    cases hown
  exact ⟨rfl, h.live⟩

/-- The registration is in none of the phases of other calls. -/
theorem Contained.ne_registration (hphase : s.phase task = phase)
    (hnot : ¬ LiveContained codec id record₀ native₀ s phase) : task ≠ r := by
  rintro rfl
  exact hnot (hphase ▸ h.live)

end

/-- The registration is not between its edit and its end. -/
def SavePhase.settled : SavePhase → Bool
  | .registered _ => false
  | .committing _ => false
  | .failing _ _ => false
  | _ => true

lemma LiveContained.of_settled (h : LiveContained codec id record₀ native₀ s phase)
    (hsettled : phase.settled = true) :
    ∃ seen, s.record = { record₀ with lastSeen := seen } ∧
      OwnShape codec id record₀ native₀ s.native := by
  cases phase with
  | idle | failed => exact h
  | guarded call =>
    cases call with
    | register request => exact h
    | mutate | approve => exact h.elim
  | registered | committing | failing => cases hsettled
  | edited | reading | writing | expiryEdited | writingExpiry | done => exact h.elim

/-- Another task changes its phase, and nothing else changes. -/
theorem Contained.setPhase (h : Contained codec id r record₀ native₀ row₀ s) (hne : task ≠ r)
    (hphase : s'.phase = Function.update s.phase task phase) (hrow : s'.db = s.db)
    (hrecord : s'.record = s.record) (hnative : s'.native = s.native)
    (hother : phase.ofDisconnect = true) (hreads : ReadsOwn codec id record₀ native₀ phase) :
    Contained codec id r record₀ native₀ row₀ s' := by
  refine h.update hphase hrow hreads ?_ (fun _ => hother) ?_
  · rw [hphase, Function.update_of_ne hne.symm]
    exact h.live.seen (hnative ▸ fun hshape => hshape) hrecord
  · rintro request rfl
    cases hother

variable {saver : Saver}

section

variable (h : Contained codec id r record₀ native₀ row₀ s)

include h

/-- A disconnect save reads the node while no registration's edit is in it. -/
theorem Contained.read (hlocked : Locked s) (hphase : s.phase task = .reading saver)
    (hnode : snapshot codec id s.record s.native = .ok node)
    (hbetween : NoReadBetween s (.read task)) :
    Contained codec id r record₀ native₀ row₀
      (s.setPhase task (.writing saver ⟨node, s.record, s.native⟩)) := by
  have hne : task ≠ r := h.ne_registration hphase not_false
  have hdisconnect : saver = .disconnect := by
    have hother := h.others task hne
    rw [hphase] at hother
    exact of_decide_eq_true hother
  subst hdisconnect
  -- the registration has made no edit yet, or waits for the lock that this task holds
  have hsettled : (s.phase r).settled = true := by
    have hpersists : (s.phase task).persists = true := by rw [hphase]; rfl
    cases hr : s.phase r with
    | registered live => exact absurd hr (hbetween task rfl hphase r live)
    | committing live | failing live =>
      exact absurd (hlocked.persists_unique (by rw [hr]; rfl) hpersists) hne
    | _ => rfl
  obtain ⟨seen, hrecord, hshape⟩ := h.live.of_settled hsettled
  refine h.setPhase hne rfl rfl rfl rfl rfl fun saver' fresh hwriting => ?_
  cases hwriting
  exact ⟨⟨seen, hrecord⟩, hshape, snapshot_id hnode, hnode⟩

/-- A save writes columns that were read from the node as it was. -/
theorem Contained.write {db : Database} (hphase : s.phase task = .writing saver fresh)
    (hsaved : saveCachedNodeSnapshot s.db fresh.node.id fresh.node.columns = some db) :
    Contained codec id r record₀ native₀ row₀ { s.finish task .done with db := db } := by
  have hne : task ≠ r := h.ne_registration hphase not_false
  have hdone : Contained codec id r record₀ native₀ row₀ (s.finish task .done) :=
    h.setPhase hne rfl rfl rfl rfl rfl (by rintro _ _ ⟨⟩)
  obtain ⟨⟨seen, hrecord⟩, hshape, hid, hnode⟩ := h.reads task saver fresh hphase
  obtain ⟨row, hrow, -, hkey, hexpiry⟩ := h.row
  rw [hid] at hsaved
  have hnode' := saveCachedNodeSnapshot_node hsaved
  rw [hrow, map_some] at hnode'
  exact
    { row := ⟨_, hnode', .inr ⟨fresh.native, seen, fresh.node, hshape, hrecord ▸ hnode, rfl⟩, hkey,
        hexpiry⟩
      reads := hdone.reads
      live := hdone.live
      others := hdone.others
      guarded := hdone.guarded }

/-- The registration edits the live node and keeps what it was. -/
theorem Contained.register {call : RegisterCall} {live : LiveRegistrationSave}
    {native : NativeNodePersistence} (hphase : s.phase task = .guarded (.register call))
    (hbegin : beginNativeRegistration codec id call s.record s.native = .ok (live, native)) :
    Contained codec id r record₀ native₀ row₀
      { s.setPhase task (.registered live) with record := live.after, native := some native } := by
  obtain ⟨rfl, seen, hrecord, hshape⟩ := h.registration hphase rfl
  obtain ⟨nativeBefore, prepared, hrefresh, -, -, rfl⟩ := beginNativeRegistration_ok hbegin
  refine h.update rfl rfl (by rintro _ _ ⟨⟩) ?_ (fun hne => absurd rfl hne) (by rintro _ ⟨⟩)
  simp only [SaveState.setPhase, Function.update_self]
  refine ⟨⟨seen, hrecord⟩, ?_, h.guarded call hphase, _, rfl⟩
  rw [hrecord] at hrefresh
  exact hshape.refreshNative hrefresh

/-- A remembered shape is one of the node as it was. -/
theorem Contained.remember (hphase : s.phase task = .writing saver fresh) :
    Contained codec id r record₀ native₀ row₀
      { s with native := some (.fromSnapshot fresh.record fresh.node fresh.native) } := by
  obtain ⟨⟨seen, hrecord⟩, hshape, -, hnode⟩ := h.reads task saver fresh hphase
  rw [hrecord] at hnode ⊢
  exact ⟨h.row, h.reads, h.live.seen (fun _ => .remember hshape hnode) rfl, h.others,
    h.guarded⟩

/-- The registration's own step, which leaves record, shape and row. -/
theorem Contained.ownPhase (hphase : s'.phase = Function.update s.phase r phase)
    (hrow : s'.db = s.db) (hreads : ∀ saver fresh, phase ≠ .writing saver fresh)
    (hlive : LiveContained codec id record₀ native₀ s' phase)
    (hguarded : ∀ request, phase = .guarded (.register request) → request.authKey = true) :
    Contained codec id r record₀ native₀ row₀ s' := by
  refine h.update hphase hrow (fun saver fresh hwriting => absurd hwriting (hreads saver fresh)) ?_
    (fun hne => absurd rfl hne) hguarded
  rw [hphase, Function.update_self]
  exact hlive

lemma Contained.step (hlocked : Locked s) (hstep : SaveStep codec id s action s')
    (hone : OneRegistration r action) (hbetween : NoReadBetween s action) :
    s'.phase r = .done ∨ Contained codec id r record₀ native₀ row₀ s' := by
  cases hstep with
  | @begin task call hidle hfree =>
    cases call with
    | mutate | approve => exact hone.elim
    | register request =>
      obtain ⟨rfl, hauth⟩ := hone
      have hlive := h.live
      rw [hidle] at hlive
      refine .inr (h.ownPhase rfl rfl (by rintro _ _ ⟨⟩) hlive ?_)
      rintro _ ⟨⟩
      exact hauth
  | editExpiry hphase | edit hphase | editFailed hphase | approve hphase | lockExpiry _ hphase
  | writeExpiry hphase =>
    -- no such call is made
    exact (h.registration hphase rfl).2.elim
  | register hphase hbegin => exact .inr (h.register hphase hbegin)
  | @stamp task now hidle =>
    have hne : task ≠ r := hone
    refine .inr (h.update rfl rfl (by rintro _ _ ⟨⟩) ?_ (fun _ => rfl) (by rintro _ ⟨⟩))
    simp only [SaveState.setPhase, Function.update_of_ne hne.symm]
    exact h.live.seen (fun hshape => hshape) rfl
  | lockRead hfree hphase =>
    have hne := h.ne_registration hphase not_false
    have hother := h.others _ hne
    rw [hphase] at hother
    exact .inr (h.setPhase hne rfl rfl rfl rfl hother (by rintro _ _ ⟨⟩))
  | lockCommit hfree hphase =>
    obtain ⟨rfl, hlive⟩ := h.registration hphase rfl
    exact .inr (h.ownPhase rfl rfl (by rintro _ _ ⟨⟩) hlive (by rintro _ ⟨⟩))
  | read hphase hnode => exact .inr (h.read hlocked hphase hnode hbetween)
  | remember hphase => exact .inr (h.remember hphase)
  | write hphase hsaved => exact .inr (h.write hphase hsaved)
  | commit hphase =>
    obtain ⟨rfl, -⟩ := h.registration hphase rfl
    exact .inl (Function.update_self ..)
  | commitFailed hphase =>
    obtain ⟨rfl, hlive⟩ := h.registration hphase rfl
    exact .inr (h.ownPhase rfl rfl (by rintro _ _ ⟨⟩) hlive (by rintro _ ⟨⟩))
  | rollback hphase =>
    obtain ⟨rfl, ⟨seen, hbefore⟩, hshape, -, -⟩ := h.registration hphase rfl
    exact .inr (h.ownPhase rfl rfl (by rintro _ _ ⟨⟩) ⟨seen, hbefore, hshape⟩ (by rintro _ ⟨⟩))
  | keepEdit hphase hkept =>
    -- the record still has the keys of the edit, so that it is taken back
    obtain ⟨rfl, -, -, hauth, seen, hrecord⟩ := h.registration hphase rfl
    exact absurd ⟨hauth, by rw [hrecord], by rw [hrecord]⟩ hkept
  | @fail _ task error _ hphase =>
    obtain ⟨call, hphase⟩ | ⟨saver, hphase⟩ | ⟨saver, fresh, hphase⟩ | ⟨expiry, hphase⟩ := hphase
    · obtain ⟨rfl, hlive⟩ := h.registration hphase rfl
      exact .inr (h.ownPhase rfl rfl (by rintro _ _ ⟨⟩) hlive (by rintro _ ⟨⟩))
    · exact .inr (h.setPhase (h.ne_registration hphase not_false) rfl rfl rfl rfl rfl (by rintro _ _ ⟨⟩))
    · exact .inr (h.setPhase (h.ne_registration hphase not_false) rfl rfl rfl rfl rfl (by rintro _ _ ⟨⟩))
    · exact (h.registration hphase rfl).2.elim

end

/-- A task that is done takes no further step. -/
theorem SaveStep.done_stays (h : SaveStep codec id s action s') (hdone : s.phase r = .done) :
    s'.phase r = .done := by
  have hupdate : ∀ (task : Nat) (phase : SavePhase), s.phase task ≠ .done →
      Function.update s.phase task phase r = .done := by
    intro task phase hactive
    rw [Function.update_of_ne, hdone]
    rintro rfl
    exact hactive hdone
  cases h with
  | remember => exact hdone
  | begin hidle | stamp hidle => exact hupdate _ _ (by rw [hidle]; nofun)
  | editExpiry hphase | edit hphase | editFailed hphase | approve hphase | register hphase
  | lockRead _ hphase | lockExpiry _ hphase | lockCommit _ hphase | read hphase | write hphase
  | writeExpiry hphase | commit hphase | commitFailed hphase | rollback hphase | keepEdit hphase =>
    exact hupdate _ _ (by rw [hphase]; nofun)
  | fail _ hphase =>
    refine hupdate _ _ fun hend => ?_
    rw [hend] at hphase
    obtain ⟨_, h⟩ | ⟨_, h⟩ | ⟨_, _, h⟩ | ⟨_, h⟩ := hphase <;> cases h

end Steps

/-- In every run of one registration by auth key and any disconnects in which no disconnect save reads
the node between the registration's live edit and its lock: once the registration has failed, the live
record is what it was up to the time it was last seen, and the row has the key and expiry it had, and
columns that it had or that a save of the unedited node gives it. -/
theorem failedRegistration_leaves_no_trace {codec : HostCodec} {id r : Nat} {s₀ s : SaveState}
    {row₀ : NodeRow} (hidle : ∀ task, s₀.phase task = .idle) (hrow₀ : s₀.db.node id = some row₀)
    (h : (nodeSaves codec id (· = s₀)).ReachableBy
      (fun s action _ => OneRegistration r action ∧ NoReadBetween s action) s)
    {error : SaveError} (hfailed : s.phase r = .failed error) :
    (∃ seen, s.record = { s₀.record with lastSeen := seen }) ∧
      ∃ row, s.db.node id = some row ∧ row.authKeyId = row₀.authKeyId ∧ row.expiry = row₀.expiry ∧
        OwnColumns codec id s₀.record s₀.native row₀.columns row.columns := by
  have hlocked : ∀ s, (nodeSaves codec id (· = s₀)).ReachableBy
      (fun s action _ => OneRegistration r action ∧ NoReadBetween s action) s → Locked s :=
    fun s hs => locked_of_reachable (by rintro s rfl; exact hidle) hs
  have hcontained := h.invariant_of
    (I := fun s => s.phase r = .done ∨ Contained codec id r s₀.record s₀.native row₀ s) hlocked
    (by
      rintro s rfl
      refine .inr ⟨⟨row₀, hrow₀, .inl rfl, rfl, rfl⟩, fun task _ _ hwriting => ?_, ?_,
        fun task _ => ?_, fun _ hguarded => ?_⟩
      · rw [hidle task] at hwriting
        cases hwriting
      · rw [hidle r]
        exact ⟨_, rfl, .start⟩
      · rw [hidle task]
        rfl
      · rw [hidle r] at hguarded
        cases hguarded)
    (by
      rintro s action s' hlocked hinv hstep ⟨hone, hbetween⟩
      obtain hdone | hcontained := hinv
      · exact .inl ((SaveState.apply_step hstep).done_stays hdone)
      · exact hcontained.step hlocked (SaveState.apply_step hstep) hone hbetween)
  obtain hdone | hcontained := hcontained
  · rw [hdone] at hfailed
    cases hfailed
  obtain ⟨row, hrow, hcolumns, hkey, hexpiry⟩ := hcontained.row
  have hlive := hcontained.live
  rw [hfailed] at hlive
  obtain ⟨seen, hrecord, -⟩ := hlive
  exact ⟨⟨seen, hrecord⟩, row, hrow, hkey, hexpiry, hcolumns⟩

/-! ## A save between the edit and the lock -/

section Refused

def refusedRow : NodeRow :=
  { id := 1
    columns :=
      { machineKey := "mkey:m1"
        nodeKey := "nodekey:n1"
        userId := some 7
        tags := some [] } }

/-- A node of a user, with a one-shot key that somebody else has used. -/
def refusedStart : SaveState where
  record := ownedRecord
  native := none
  db :=
    { keys := [{ id := 3, userId := some 7, used := true }]
      nodes := [refusedRow] }

/-- A registration of the node under a new node key. It captured the key while that was unused. -/
def refusedCall : RegisterCall where
  params :=
    { columns := { nodeKey := "nodekey:n2", hostname := "laptop", userId := some 7 }
      authKeyId := some 3 }
  authKey := true
  associations := { authKey := some (some { id := 3 }) }
  checkedAt := 10
  seenAt := 11
  commit := .withKey { id := 1 } { id := 3, reusable := false, used := false }

/-- A disconnect save goes all the way between the registration's edit and its lock. -/
def refusedRun : List SaveAction :=
  [.begin 0 (.register refusedCall), .edit 0, .stamp 1 12, .lock 1, .read 1, .write 1 false, .lock 0,
    .commit 0 {}, .rollback 0]

/-- The registration fails with no save in between. -/
def refusedFirst : List SaveAction :=
  [.begin 0 (.register refusedCall), .edit 0, .stamp 1 12, .lock 0, .commit 0 {}, .rollback 0, .lock 1]

def runRefused (actions : List SaveAction) : Option SaveState :=
  actions.foldlM (SaveState.apply plainCodec 1) refusedStart

/-- The registration has failed, the disconnect save is done, the live record has its old node key
again, and the row keeps the new one. -/
theorem refusedRun_row_keeps_key :
    ∃ s, (nodeSaves plainCodec 1 (· = refusedStart)).Reachable s ∧
      s.phase 0 = .failed (.registration (.credential .alreadyUsed)) ∧ s.phase 1 = .done ∧
      s.record.nodeKeyHex = "n1" ∧
      (s.db.node 1).map (·.columns.nodeKey) = some "nodekey:n2" ∧
      (refusedStart.db.node 1).map (·.columns.nodeKey) = some "nodekey:n1" := by
  have hsome : (runRefused refusedRun).isSome = true := by decide +kernel
  have hfinal : (runRefused refusedRun).map (fun s => (s.phase 0, s.phase 1, s.record.nodeKeyHex,
      (s.db.node 1).map (·.columns.nodeKey))) =
      some (.failed (.registration (.credential .alreadyUsed)), .done, "n1", some "nodekey:n2") := by
    decide +kernel
  obtain ⟨s, hs⟩ := isSome_iff_exists.mp hsome
  rw [hs, map_some, Option.some.injEq, Prod.mk.injEq, Prod.mk.injEq, Prod.mk.injEq] at hfinal
  have hreach : (nodeSaves plainCodec 1 (· = refusedStart)).Reachable s :=
    System.ReachableBy.foldlM (fun _ _ _ _ => id) (fun _ _ _ _ => trivial) (.init rfl) hs
  exact ⟨s, hreach, hfinal.1, hfinal.2.1, hfinal.2.2.1, hfinal.2.2.2, by decide +kernel⟩

lemma refusedFirst_allowed : ∀ action ∈ refusedFirst, ∀ s : SaveState,
    OneRegistration 0 action ∧ NoReadBetween s action := by
  simp only [refusedFirst, List.forall_mem_cons]
  refine ⟨?_, ?_, ?_, ?_, ?_, ?_, ?_, by simp⟩ <;> intro s <;>
    exact ⟨by simp [OneRegistration, refusedCall], by rintro _ ⟨⟩⟩

/-- The registration fails, and the row is as it was. -/
theorem refusedFirst_leaves_no_trace :
    ∃ s, runRefused refusedFirst = some s ∧
      s.phase 0 = .failed (.registration (.credential .alreadyUsed)) ∧
      s.phase 1 = .reading .disconnect ∧
      (∃ seen, s.record = { ownedRecord with lastSeen := seen }) ∧
      ∃ row, s.db.node 1 = some row ∧ row.authKeyId = none ∧
        OwnColumns plainCodec 1 ownedRecord none refusedRow.columns row.columns := by
  have hphases : (runRefused refusedFirst).map (fun s => (s.phase 0, s.phase 1)) =
      some (.failed (.registration (.credential .alreadyUsed)), .reading .disconnect) := by
    decide +kernel
  obtain ⟨s, hs, hphases⟩ := map_eq_some_iff.mp hphases
  obtain ⟨hfailed, hreading⟩ := Prod.mk.inj hphases
  have hreach : (nodeSaves plainCodec 1 (· = refusedStart)).ReachableBy
      (fun s action _ => OneRegistration 0 action ∧ NoReadBetween s action) s :=
    System.ReachableBy.foldlM (fun _ _ _ _ => id) (fun a ha s _ => refusedFirst_allowed a ha s)
      (.init rfl) hs
  have hrow : refusedStart.db.node 1 = some refusedRow := by decide +kernel
  obtain ⟨hrecord, row, hnode, hkey, -, hcolumns⟩ :=
    failedRegistration_leaves_no_trace (fun _ => rfl) hrow hreach hfailed
  exact ⟨s, hs, hfailed, hreading, hrecord, row, hnode, hkey, hcolumns⟩

end Refused

end Headscale.Node
