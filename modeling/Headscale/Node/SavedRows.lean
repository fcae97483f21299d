import Headscale.Node.FailedRegistration
import Headscale.Netip.RoundTrip

/-!
# Rows and live records

Whether the row of a node follows its live record. Everybody who edits the record saves it later, and
almost everybody saves a fresh read. A re-registration saves the copy made with its edit. The only edit
that may come in between is a disconnect's, which holds no guard: when the disconnect also reads and
saves the node before the re-registration does, the copy takes the row back to the earlier time it was
last seen, and no save is left to mend it. Without such a read the row follows.
-/

namespace Headscale.Node

open Db Machine GoNetip Option NativeNodePersistence SaveState

/-! ## What equality means -/

/-- The address a stored text stands for. -/
def storedAddr (text : Option String) : Option IpAddr :=
  text.bind fun text => (parseAddr text).toOption.map Prod.fst

@[simp] lemma storedAddr_toString (ip : Option IpAddr) :
    storedAddr (ip.map IpAddr.toString) = ip := by
  cases ip <;> simp [storedAddr, Except.toOption]

lemma toUnsigned_toSigned {value : Nat} {signed : Int} (h : toSigned value = some signed) :
    toUnsigned signed = some value := by
  unfold toSigned at h
  split at h <;> cases h
  simp [toUnsigned]

/-- `NativeNodePersistence::last_seen`: absent as long as it is stored so and unchanged. -/
def liveLastSeen (native : Option NativeNodePersistence) (record : MachineRecord) : Option Int :=
  if storedUnless native Projection.lastSeen record.lastSeen lastSeenNil false
  then none else some record.lastSeen

/-- The columns equal the live record in keys, addresses, names, owner, tags, approved routes and the
time last seen. -/
structure ColumnsEqual (columns : NodeColumns) (native : Option NativeNodePersistence)
    (record : MachineRecord) : Prop where
  machineKey : columns.machineKey = keyWithPrefix "mkey:" record.machineKeyHex
  nodeKey : columns.nodeKey = keyWithPrefix "nodekey:" record.nodeKeyHex
  discoKey : columns.discoKey = record.discoKey.getD ""
  ipv4 : storedAddr columns.ipv4 = record.ipv4
  ipv6 : storedAddr columns.ipv6 = record.ipv6
  hostname : columns.hostname = record.rawHostname
  givenName : columns.givenName = record.hostname
  owner : columns.userId.bind toUnsigned = record.userId
  tags : columns.tags.getD [] = record.forcedTags
  approvedRoutes : columns.approvedRoutes.getD [] = record.approvedRoutes
  lastSeen : columns.lastSeen = liveLastSeen native record

/-- The stored shapes stand for the values they belong to. -/
structure ShapesFit (native : NativeNodePersistence) : Prop where
  ipv4 : storedAddr native.ipv4 = native.projection.ipv4
  ipv6 : storedAddr native.ipv6 = native.projection.ipv6
  owner : native.userId.bind toUnsigned = native.projection.userId
  tags : native.tagsNil = true → native.projection.tags = []
  routes : native.routesNil = true → native.projection.routes = []

section Shapes

variable {codec : HostCodec} {id : Nat} {record : MachineRecord}
variable {native : Option NativeNodePersistence} {node : CachedNodeSnapshot}

/-- A list that is stored as absent. -/
abbrev unlessAbsent (absent : Bool) (values : List String) : Option (List String) :=
  if absent = true then none else some values

lemma getD_unlessAbsent {absent : Bool} {values : List String} (h : absent = true → values = []) :
    (unlessAbsent absent values).getD [] = values := by
  unfold unlessAbsent
  split
  · exact (h ‹_›).symm
  · rfl

/-- A save of the live record writes columns that equal it. -/
theorem snapshot_equal (hfit : ∀ shape, native = some shape → ShapesFit shape)
    (h : snapshot codec id record native = .ok node) :
    ColumnsEqual node.columns native record := by
  obtain ⟨signed, -, h⟩ := Result.bind_eq_ok.mp h
  obtain ⟨hostInfo, -, h⟩ := Result.bind_eq_ok.mp h
  obtain ⟨userId, huser, h⟩ := Result.bind_eq_ok.mp h
  cases h
  refine
    { machineKey := rfl
      nodeKey := rfl
      discoKey := rfl
      ipv4 := ?_
      ipv6 := ?_
      hostname := rfl
      givenName := rfl
      owner := ?_
      tags := ?_
      approvedRoutes := ?_
      lastSeen := rfl }
  · exact storedUnless_cases (fun text => storedAddr text = record.ipv4)
      (fun shape hshape hlive => (hfit shape hshape).ipv4.trans hlive) (storedAddr_toString _)
  · exact storedUnless_cases (fun text => storedAddr text = record.ipv6)
      (fun shape hshape hlive => (hfit shape hshape).ipv6.trans hlive) (storedAddr_toString _)
  · refine storedUnless_cases
      (fun result : Except MachineAdminError (Option Int) =>
        result = .ok userId → userId.bind toUnsigned = record.userId)
      (fun shape hshape hlive hok => ?_) (fun hok => ?_) huser
    · cases hok
      exact (hfit shape hshape).owner.trans hlive
    · cases hrecord : record.userId with
      | none =>
        rw [hrecord] at hok
        cases hok
        rfl
      | some value =>
        rw [hrecord] at hok
        obtain ⟨signed', hsigned, hok⟩ := Result.elim_eq_ok.mp hok
        cases hok
        exact toUnsigned_toSigned hsigned
  · exact storedUnless_cases (fun absent => (unlessAbsent absent record.forcedTags).getD [] = _)
      (fun shape hshape hlive => getD_unlessAbsent fun habsent =>
        hlive.symm.trans ((hfit shape hshape).tags habsent)) rfl
  · exact storedUnless_cases (fun absent => (unlessAbsent absent record.approvedRoutes).getD [] = _)
      (fun shape hshape hlive => getD_unlessAbsent fun habsent =>
        hlive.symm.trans ((hfit shape hshape).routes habsent)) rfl

lemma eq_nil_of_isNone {stored : Option (List String)} {values : List String}
    (h : stored.getD [] = values) (hnil : stored.isNone = true) : values = [] := by
  rw [isNone_iff_eq_none.mp hnil] at h
  exact h.symm

variable (prior : Option NativeNodePersistence)

/-- Shapes remembered from columns that equal the record fit it. -/
theorem fromSnapshot_fit (h : ColumnsEqual node.columns native record) :
    ShapesFit (.fromSnapshot record node prior) where
  ipv4 := h.ipv4
  ipv6 := h.ipv6
  owner := h.owner
  tags := eq_nil_of_isNone h.tags
  routes := eq_nil_of_isNone h.approvedRoutes

lemma liveLastSeen_fromSnapshot :
    liveLastSeen (some (.fromSnapshot record node prior)) record =
      if node.columns.lastSeen.isNone = true then none else some record.lastSeen := by
  simp [liveLastSeen, storedUnless, fromSnapshot, Projection.fromRecord]

/-- Columns stay equal to the record when its shapes are remembered from a save. -/
theorem ColumnsEqual.remembered {columns : NodeColumns} (h : ColumnsEqual columns native record)
    (hnode : ColumnsEqual node.columns native record) :
    ColumnsEqual columns (some (.fromSnapshot record node prior)) record := by
  refine { h with lastSeen := ?_ }
  rw [h.lastSeen, liveLastSeen_fromSnapshot, hnode.lastSeen]
  unfold liveLastSeen
  split <;> rfl

variable {native' : NativeNodePersistence}

/-- An admin edit leaves shapes that fit, and the time last seen as it was. -/
theorem editNative_fit {mutation : NativeNodeMutation}
    (hfit : ∀ shape, native = some shape → ShapesFit shape)
    (h : mutation.editNative codec id (mutation.edit record) native = .ok native') :
    ShapesFit native' := by
  obtain ⟨node, hnode, h⟩ := Result.bind_eq_ok.mp h
  have hequal := snapshot_equal hfit hnode
  cases h
  -- the columns that the edit makes absent are empty in the edited record
  refine fromSnapshot_fit native (?_ : ColumnsEqual _ native _)
  split
  · exact { hequal with owner := rfl }
  · exact { hequal with approvedRoutes := rfl }
  · exact hequal

lemma refreshNative_fit {native' : Option NativeNodePersistence}
    (hfit : ∀ shape, native = some shape → ShapesFit shape)
    (h : refreshNative codec record native = .ok native') :
    ∀ shape, native' = some shape → ShapesFit shape := by
  cases native with
  | none =>
    cases h
    exact hfit
  | some prior =>
    cases hprior : refreshHostInfo codec record prior with
    | error error => simp [refreshNative, hprior, Except.map] at h
    | ok refreshed =>
      simp only [refreshNative, hprior, Except.map, Except.ok.injEq] at h
      subst h
      rintro shape ⟨⟩
      obtain ⟨value, -, hrefreshed⟩ := Result.bind_eq_ok.mp hprior
      cases hrefreshed
      exact { hfit prior rfl with }

/-- What a registration saves equals the record it proposes. -/
theorem savedNode_equal (before : MachineRecord) (params : CreateParams)
    (h : ColumnsEqual node.columns native record) (howned : record.OwnedOnce) :
    ColumnsEqual (savedNode before record params node).columns none record := by
  refine { h with owner := ?_, tags := ?_, lastSeen := rfl }
  · simp only [savedNode]
    split
    · rename_i htagged
      exact (howned htagged).symm
    · exact h.owner
  · simp only [savedNode]
    split
    · rename_i huntagged
      rw [Bool.and_eq_true, Bool.not_eq_true'] at huntagged
      have hnil : record.forcedTags = [] := by simpa [MachineRecord.isTagged] using huntagged.2
      exact hnil.symm
    · exact h.tags

/-- A registration's edit leaves a record that is owned once and shapes that fit, and the copy it will
save equals the edited record. -/
theorem beginNativeRegistration_equal {call : RegisterCall} {live : LiveRegistrationSave}
    (hfit : ∀ shape, native = some shape → ShapesFit shape) (howned : record.OwnedOnce)
    (h : beginNativeRegistration codec id call record native = .ok (live, native')) :
    ShapesFit native' ∧ live.after.OwnedOnce ∧ live.registration.id = id ∧
      live.registration.expiry = live.after.expiry ∧
      ColumnsEqual live.registration.columns (some native') live.after := by
  obtain ⟨nativeBefore, prepared, hrefresh, hprepared, rfl, rfl⟩ := beginNativeRegistration_ok h
  obtain ⟨hsame, -, howned', -⟩ := prepareCachedAuthRegistration_record howned hprepared
  obtain ⟨node, associations', hnode, hnative, hid, hcolumns, hexpiry⟩ :=
    prepareCachedAuthRegistration_saved hprepared
  have hequal := savedNode_equal record call.params
    (snapshot_equal (refreshNative_fit hfit hrefresh) hnode) howned'
  have hsaved := hequal.remembered nativeBefore hequal
  rw [hnative, hcolumns]
  refine ⟨{ fromSnapshot_fit nativeBefore hequal with }, howned', hid.trans (snapshot_id hnode),
    hexpiry, ?_⟩
  exact { hsaved with givenName := hsaved.givenName.trans hsame.givenName }

end Shapes

/-! ## What is still to be saved -/

namespace SavePhase

/-- The task will save a fresh read. -/
def rereads : SavePhase → Bool
  | .edited _ => true
  | .reading _ => true
  | _ => false

/-- The columns that the task will save. -/
def toSave : SavePhase → Option NodeColumns
  | .writing _ fresh => some fresh.node.columns
  | .registered live => some live.registration.columns
  | .committing live => some live.registration.columns
  | _ => none

/-- The expiry that the task will save. -/
def expiryToSave : SavePhase → Option (Option Int)
  | .expiryEdited expiry => some expiry
  | .writingExpiry expiry => some expiry
  | .registered live => some live.registration.expiry
  | .committing live => some live.registration.expiry
  | _ => none

def fails : SavePhase → Bool
  | .failing _ _ => true
  | .failed _ => true
  | _ => false

/-- A save is of the node, an expiry to be saved is the live one, and a fresh read equals what it was
read from. -/
structure Sound (id : Nat) (expiry : Option Int) (phase : SavePhase) : Prop where
  reads : ∀ saver fresh, phase = .writing saver fresh →
    fresh.node.id = id ∧ ColumnsEqual fresh.node.columns fresh.native fresh.record
  copies : ∀ live, phase = .registered live ∨ phase = .committing live → live.registration.id = id
  expiries : ∀ time, phase.expiryToSave = some time → time = expiry

variable {expiry : Option Int}

/-- A phase without a save is sound. -/
theorem Sound.of_none {id : Nat} {phase : SavePhase} (hsave : phase.toSave = none)
    (hexpiry : phase.expiryToSave = none) : phase.Sound id expiry where
  reads := by
    rintro saver fresh rfl
    cases hsave
  copies := by rintro live (rfl | rfl) <;> cases hsave
  expiries time htime := by
    rw [hexpiry] at htime
    cases htime

/-- Only a task that holds the guard cares for the expiry. -/
theorem Sound.of_unguarded {id : Nat} {expiry' : Option Int} {phase : SavePhase}
    (h : phase.Sound id expiry) (hguards : phase.guards = false) : phase.Sound id expiry' where
  reads := h.reads
  copies := h.copies
  expiries time htime := by
    cases phase with
    | expiryEdited | writingExpiry | registered | committing => cases hguards
    | _ => cases htime

end SavePhase

section Follows

/-- The columns equal the live record. -/
def Fits (s : SaveState) (columns : NodeColumns) : Prop := ColumnsEqual columns s.native s.record

def Rereads (s : SaveState) : Prop := ∃ task, (s.phase task).rereads = true

/-- The row equals the live record, or a save that will mend it is on its way. -/
structure RowFollows (s : SaveState) (row : NodeRow) : Prop where
  columns : Fits s row.columns ∨ Rereads s ∨
    ∃ task columns, (s.phase task).toSave = some columns ∧ Fits s columns
  expiry : row.expiry = s.record.expiry ∨ ∃ task time, (s.phase task).expiryToSave = some time

/-- A save that is on its way equals the live record, or another one will come after it: a fresh read,
or the copy of a registration that still waits for the lock. -/
def Mended (s : SaveState) (task : Nat) (columns : NodeColumns) : Prop :=
  Fits s columns ∨ Rereads s ∨
    ∃ other live, other ≠ task ∧ s.phase other = .registered live ∧ Fits s live.registration.columns

structure Follows (id : Nat) (s : SaveState) : Prop where
  shapes : ∀ shape, s.native = some shape → ShapesFit shape
  owned : s.record.OwnedOnce
  phases : ∀ task, (s.phase task).Sound id s.record.expiry
  saves : ∀ task columns, (s.phase task).toSave = some columns → Mended s task columns
  row : ∃ row, s.db.node id = some row ∧ RowFollows s row

variable {codec : HostCodec} {id : Nat} {s s' : SaveState} {task : Nat} {phase : SavePhase}

lemma forall_update {p : Nat → SavePhase → Prop}
    (hphase : s'.phase = Function.update s.phase task phase) (hnew : p task phase)
    (h : ∀ other, other ≠ task → p other (s.phase other)) : ∀ other, p other (s'.phase other) := by
  rw [hphase]
  exact (Function.forall_update_iff _ p).mpr ⟨hnew, h⟩

lemma exists_update {p : SavePhase → Prop} (hphase : s'.phase = Function.update s.phase task phase)
    (hkeep : p (s.phase task) → p phase) : (∃ other, p (s.phase other)) → ∃ other, p (s'.phase other) :=
  Exists.imp (forall_update (p := fun other phase => p (s.phase other) → p phase) hphase hkeep
    fun _ _ hother => hother)

lemma Rereads.update (h : Rereads s) (hphase : s'.phase = Function.update s.phase task phase)
    (hrereads : (s.phase task).rereads = true → phase.rereads = true) : Rereads s' :=
  exists_update (p := (·.rereads = true)) hphase hrereads h

variable {columns : NodeColumns}

lemma SavePhase.persists_or_registered (h : phase.toSave = some columns) :
    phase.persists = true ∨ ∃ live, phase = .registered live := by
  cases phase with
  | writing | committing => exact .inl rfl
  | registered live => exact .inr ⟨live, rfl⟩
  | _ => cases h

/-- A save stays mended when the task that changes its phase still reads, and was not the
registration that comes after. -/
theorem Mended.update {other : Nat} (h : Mended s other columns)
    (hphase : s'.phase = Function.update s.phase task phase)
    (hfits : ∀ columns, Fits s columns → Fits s' columns)
    (hrereads : (s.phase task).rereads = true → phase.rereads = true)
    (hwaiting : ∀ live, s.phase task = .registered live → other = task) : Mended s' other columns := by
  obtain hequal | hreads | ⟨after, live, hne, hlive, hequal⟩ := h
  · exact .inl (hfits _ hequal)
  · exact .inr (.inl (hreads.update hphase hrereads))
  have hafter : after ≠ task := by
    rintro rfl
    exact hne (hwaiting live hlive).symm
  refine .inr (.inr ⟨after, live, hne, ?_, hfits _ hequal⟩)
  rw [hphase, Function.update_of_ne hafter, hlive]

/-- A row with the columns of a mended save follows. -/
theorem Mended.row (h : Mended s task columns) :
    Fits s columns ∨ Rereads s ∨
      ∃ task columns, (s.phase task).toSave = some columns ∧ Fits s columns := by
  obtain hequal | hreads | ⟨after, live, -, hlive, hequal⟩ := h
  · exact .inl hequal
  · exact .inr (.inl hreads)
  · exact .inr (.inr ⟨after, _, by rw [hlive]; rfl, hequal⟩)

lemma RowFollows.columns_update {row : NodeRow} (h : RowFollows s row)
    (hphase : s'.phase = Function.update s.phase task phase)
    (hfits : ∀ columns, Fits s columns → Fits s' columns)
    (hrereads : (s.phase task).rereads = true → phase.rereads = true)
    (hsave : ∀ columns, (s.phase task).toSave = some columns → phase.toSave = some columns) :
    Fits s' row.columns ∨ Rereads s' ∨
      ∃ task columns, (s'.phase task).toSave = some columns ∧ Fits s' columns := by
  obtain hequal | hreads | ⟨other, columns, hcolumns⟩ := h.columns
  · exact .inl (hfits _ hequal)
  · exact .inr (.inl (hreads.update hphase hrereads))
  refine .inr (.inr ?_)
  refine exists_update (p := fun phase => ∃ columns, phase.toSave = some columns ∧ Fits s' columns)
    hphase ?_ ⟨other, columns, hcolumns.1, hfits _ hcolumns.2⟩
  rintro ⟨columns, hold, hequal⟩
  exact ⟨columns, hsave columns hold, hequal⟩

lemma RowFollows.expiry_update {row : NodeRow} (h : RowFollows s row)
    (hphase : s'.phase = Function.update s.phase task phase)
    (hexpiry : s'.record.expiry = s.record.expiry)
    (hsave : ∀ time, (s.phase task).expiryToSave = some time → phase.expiryToSave = some time) :
    row.expiry = s'.record.expiry ∨ ∃ task time, (s'.phase task).expiryToSave = some time := by
  obtain hequal | hsaves := h.expiry
  · exact .inl (hequal.trans hexpiry.symm)
  · refine .inr (exists_update (p := fun phase => ∃ time, phase.expiryToSave = some time) hphase ?_ hsaves)
    rintro ⟨time, htime⟩
    exact ⟨time, hsave time htime⟩

/-- The row after a commit: the columns and the expiry of the registration. -/
theorem Commit.run_node {commit : Commit} {refusals : Refusals} {db db' : Database}
    {registration : CachedNodeRegistration} (h : commit.run refusals db registration = .ok db') :
    ∃ authKeyId : Option Int → Option Int, db'.node registration.id =
      (db.node registration.id).map fun row =>
        { row with
          columns := registration.columns
          expiry := registration.expiry
          authKeyId := authKeyId row.authKeyId } := by
  have hsaved : ∃ mid, savingNode (saveCachedRegistration db registration) = .ok mid ∧
      db'.nodes = mid.nodes := by
    cases commit with
    | withKey | withCandidate =>
      simp only [Commit.run, commitCachedSqliteWithKey, commitCachedSqlite] at h
      split at h
      · cases h
      · exact transact_nodes h
    | plain =>
      simp only [Commit.run] at h
      split at h
      · cases h
      · exact ⟨db', h, rfl⟩
  obtain ⟨mid, hmid, hnodes⟩ := hsaved
  cases hsave : saveCachedRegistration db registration with
  | none =>
    rw [hsave] at hmid
    cases hmid
  | some saved =>
    rw [hsave] at hmid
    obtain rfl : saved = mid := Except.ok.inj hmid
    obtain ⟨authKeyId, hnode⟩ := saveCachedRegistration_node hsave
    refine ⟨authKeyId, ?_⟩
    rw [← hnode]
    unfold Database.node
    rw [hnodes]

namespace NativeNodeMutation

variable {mutation : NativeNodeMutation}

lemma edit_expiry (record : MachineRecord) (hkind : ∀ expiry, mutation ≠ .expiry expiry) :
    (mutation.edit record).expiry = record.expiry := by
  cases mutation with
  | expiry time => exact absurd rfl (hkind time)
  | rename | tags | approvedRoutes | availableRoutes => rfl

/-- Tags take the user away, and no other edit touches either. -/
theorem edit_ownedOnce {record : MachineRecord} (h : record.OwnedOnce) :
    (mutation.edit record).OwnedOnce := by
  cases mutation with
  | tags => exact fun _ => rfl
  | expiry | rename | approvedRoutes | availableRoutes => exact h

end NativeNodeMutation

namespace Follows

/-- A task changes its phase: what it has to save is mended, and so is what the others save. -/
theorem update (hphase : s'.phase = Function.update s.phase task phase)
    (hshapes : ∀ shape, s'.native = some shape → ShapesFit shape) (howned : s'.record.OwnedOnce)
    (hsound : phase.Sound id s'.record.expiry)
    (hothers : ∀ other, other ≠ task → (s.phase other).Sound id s'.record.expiry)
    (hsave : ∀ columns, phase.toSave = some columns → Mended s' task columns)
    (hsaves : ∀ other, other ≠ task → ∀ columns, (s.phase other).toSave = some columns →
      Mended s' other columns)
    (hrow : ∃ row, s'.db.node id = some row ∧ RowFollows s' row) : Follows id s' :=
  ⟨hshapes, howned,
    forall_update (p := fun _ phase => phase.Sound id s'.record.expiry) hphase hsound hothers,
    forall_update (p := fun other phase => ∀ columns, phase.toSave = some columns →
      Mended s' other columns) hphase hsave hsaves, hrow⟩

/-- A task goes on with what it has to save. -/
theorem setPhase (h : Follows id s) (hphase : s'.phase = Function.update s.phase task phase)
    (hrecord : s'.record = s.record) (hnative : s'.native = s.native) (hdb : s'.db = s.db)
    (hrereads : (s.phase task).rereads = true → phase.rereads = true)
    (hsave : phase.toSave = (s.phase task).toSave)
    (hexpiry : phase.expiryToSave = (s.phase task).expiryToSave)
    (hsound : phase.Sound id s.record.expiry)
    (hwaiting : ∀ live, s.phase task = .registered live → ∀ other columns, other ≠ task →
      (s.phase other).toSave ≠ some columns) : Follows id s' := by
  have hfits : ∀ columns, Fits s columns → Fits s' columns := by
    intro columns hequal
    unfold Fits
    rw [hrecord, hnative]
    exact hequal
  obtain ⟨row, hrow, hfollows⟩ := h.row
  refine update hphase (hnative ▸ h.shapes) (hrecord ▸ h.owned) (hrecord ▸ hsound)
    (fun other _ => hrecord ▸ h.phases other) (fun columns hcolumns => ?_)
    (fun other hne columns hcolumns => ?_) ⟨row, hdb ▸ hrow, ?_, ?_⟩
  · exact (h.saves task columns (hsave ▸ hcolumns)).update hphase hfits hrereads fun _ _ => rfl
  · exact (h.saves other columns hcolumns).update hphase hfits hrereads fun live hlive =>
      absurd hcolumns (hwaiting live hlive other columns hne)
  · exact hfollows.columns_update hphase hfits hrereads fun columns hcolumns => hsave.trans hcolumns
  · exact hfollows.expiry_update hphase (by rw [hrecord]) fun time htime => hexpiry.trans htime

variable {saver : Saver}

/-- After an edit that a fresh read will save, everything is mended. -/
theorem edited (h : Follows id s)
    (hphase : s'.phase = Function.update s.phase task (.edited saver)) (hdb : s'.db = s.db)
    (hrecord : s'.record.expiry = s.record.expiry) (howned : s'.record.OwnedOnce)
    (hshapes : ∀ shape, s'.native = some shape → ShapesFit shape)
    (hexpiry : (s.phase task).expiryToSave = none) : Follows id s' := by
  have hreads : Rereads s' := ⟨task, by rw [hphase, Function.update_self]; rfl⟩
  obtain ⟨row, hrow, hfollows⟩ := h.row
  refine update hphase hshapes howned (.of_none rfl rfl) (fun other _ => hrecord ▸ h.phases other)
    nofun (fun _ _ _ _ => .inr (.inl hreads)) ⟨row, hdb ▸ hrow, .inr (.inl hreads), ?_⟩
  exact hfollows.expiry_update hphase hrecord (by rw [hexpiry]; rintro _ ⟨⟩)

variable {db : Database}

/-- A task that ends has written its columns or its expiry. -/
theorem finish (h : Follows id s) {row' : NodeRow} (hrereads : (s.phase task).rereads = false)
    (hwaiting : ∀ live, s.phase task ≠ .registered live) (hrow : db.node id = some row')
    (hfollows : RowFollows { s.finish task .done with db := db } row') :
    Follows id { s.finish task .done with db := db } := by
  refine update rfl h.shapes h.owned (.of_none rfl rfl) (fun other _ => h.phases other)
    (by rintro _ ⟨⟩) (fun other hne columns hcolumns => ?_) ⟨row', hrow, hfollows⟩
  exact (h.saves other columns hcolumns).update rfl (fun _ hequal => hequal)
    (by rw [hrereads]; nofun) fun live hlive => absurd hlive (hwaiting live)

variable {fresh : FreshRead} {expiry : Option Int} {live : LiveRegistrationSave} (h : Follows id s)

include h

/-- Nobody else holds the guard, so that nobody else cares for the expiry. -/
theorem sound_others (hlocked : Locked s) (hguards : (s.phase task).guards = true) (other : Nat)
    (hne : other ≠ task) : (s.phase other).Sound id expiry :=
  (h.phases other).of_unguarded
    (Bool.eq_false_iff.mpr fun hother => hne (hlocked.guards_unique hguards hother))

/-- A registration's copy equals the record it leaves. -/
theorem register (hlocked : Locked s) {call : RegisterCall} {native : NativeNodePersistence}
    (hphase : s.phase task = .guarded (.register call))
    (hbegin : beginNativeRegistration codec id call s.record s.native = .ok (live, native)) :
    Follows id
      { s.setPhase task (.registered live) with record := live.after, native := some native } := by
  obtain ⟨hshapes, howned, hid, hexpiry, hequal⟩ :=
    beginNativeRegistration_equal h.shapes h.owned hbegin
  obtain ⟨row, hrow, -⟩ := h.row
  refine update rfl ?_ howned ⟨by rintro _ _ ⟨⟩, ?_, ?_⟩ (h.sound_others hlocked (by rw [hphase]; rfl)) ?_
    (fun other hne _ _ => .inr (.inr ⟨task, live, hne.symm, Function.update_self .., hequal⟩))
    ⟨row, hrow, ?_, ?_⟩
  · rintro shape ⟨⟩
    exact hshapes
  · rintro _ (hlive | hlive) <;> cases hlive
    exact hid
  · rintro _ ⟨⟩
    exact hexpiry
  · rintro _ ⟨⟩
    exact .inl hequal
  · exact .inr (.inr ⟨task, _, by simp [SaveState.setPhase, SavePhase.toSave], hequal⟩)
  · exact .inr ⟨task, live.registration.expiry, by simp [SaveState.setPhase, SavePhase.expiryToSave]⟩

/-- A fresh read is the only save that is on its way. -/
theorem read (hlocked : Locked s) {node : CachedNodeSnapshot}
    (hphase : s.phase task = .reading saver)
    (hnode : snapshot codec id s.record s.native = .ok node)
    (hbetween : NoReadBetween s (.read task)) :
    Follows id (s.setPhase task (.writing saver ⟨node, s.record, s.native⟩)) := by
  have hequal : Fits s node.columns := snapshot_equal h.shapes hnode
  have hpersists : (s.phase task).persists = true := by rw [hphase]; rfl
  have halone : ∀ other columns, other ≠ task → (s.phase other).toSave ≠ some columns := by
    intro other columns hne hcolumns
    obtain hother | ⟨live, hlive⟩ := SavePhase.persists_or_registered hcolumns
    · exact hne (hlocked.persists_unique hpersists hother)
    by_cases hsaver : saver = .disconnect
    · subst hsaver
      exact hbetween task rfl hphase other live hlive
    · -- the others who read hold the guard that the registration holds
      refine hne (hlocked.guards_unique ?_ (by rw [hlive]; rfl))
      rw [hphase]
      exact decide_eq_true hsaver
  obtain ⟨row, hrow, hfollows⟩ := h.row
  refine update rfl h.shapes h.owned ⟨?_, ?_, nofun⟩ (fun other _ => h.phases other) ?_
    (fun other hne columns hcolumns => absurd hcolumns (halone other columns hne)) ⟨row, hrow, ?_, ?_⟩
  · rintro _ _ ⟨⟩
    exact ⟨snapshot_id hnode, hequal⟩
  · rintro _ (hlive | hlive) <;> cases hlive
  · rintro _ ⟨⟩
    exact .inl hequal
  · exact .inr (.inr ⟨task, _, by simp [SaveState.setPhase, SavePhase.toSave], hequal⟩)
  · exact hfollows.expiry_update rfl rfl (by rw [hphase]; rintro _ ⟨⟩)

/-- Columns that were equal stay so when the shapes of a read are remembered. -/
theorem remember (hphase : s.phase task = .writing saver fresh)
    (hrecord : s.record = fresh.record) (hnative : s.native = fresh.native) :
    Follows id { s with native := some (.fromSnapshot fresh.record fresh.node fresh.native) } := by
  obtain ⟨-, hread⟩ := (h.phases task).reads saver fresh hphase
  rw [← hrecord, ← hnative] at hread ⊢
  have hfits : ∀ columns, Fits s columns →
      Fits { s with native := some (.fromSnapshot s.record fresh.node s.native) } columns :=
    fun columns hequal => ColumnsEqual.remembered s.native hequal hread
  have hsame : s.phase = Function.update s.phase task (s.phase task) :=
    (Function.update_eq_self task s.phase).symm
  obtain ⟨row, hrow, hfollows⟩ := h.row
  refine ⟨?_, h.owned, h.phases, fun other columns hcolumns => ?_, row, hrow, ?_, hfollows.expiry⟩
  · rintro shape ⟨⟩
    exact fromSnapshot_fit s.native hread
  · exact (h.saves other columns hcolumns).update hsame hfits (fun hreads => hreads)
      (by rw [hphase]; rintro _ ⟨⟩)
  · exact hfollows.columns_update hsame hfits (fun hreads => hreads) fun _ hcolumns => hcolumns

/-- An edit of the expiry leaves everything else equal. -/
theorem editExpiry (hlocked : Locked s)
    (hphase : s.phase task = .guarded (.mutate (.expiry expiry))) :
    Follows id { s.setPhase task (.expiryEdited expiry) with
      record := { s.record with expiry := expiry } } := by
  have hfits : ∀ columns, Fits s columns →
      Fits { s.setPhase task (.expiryEdited expiry) with
        record := { s.record with expiry := expiry } } columns :=
    fun columns hequal => { hequal with }
  have hnone : (s.phase task).rereads = true → SavePhase.rereads (.expiryEdited expiry) = true := by
    rw [hphase]
    exact fun hreads => hreads
  obtain ⟨row, hrow, hfollows⟩ := h.row
  refine update rfl h.shapes h.owned ⟨by rintro _ _ ⟨⟩, ?_, ?_⟩ (h.sound_others hlocked (by rw [hphase]; rfl))
    (by rintro _ ⟨⟩) (fun other _ columns hcolumns => ?_) ⟨row, hrow, ?_, ?_⟩
  · rintro _ (hlive | hlive) <;> cases hlive
  · rintro _ ⟨⟩
    rfl
  · exact (h.saves other columns hcolumns).update rfl hfits hnone (by rw [hphase]; rintro _ ⟨⟩)
  · exact hfollows.columns_update rfl hfits hnone (by rw [hphase]; rintro _ ⟨⟩)
  · exact .inr ⟨task, expiry, by simp [SaveState.setPhase, SavePhase.expiryToSave]⟩

/-- A save writes columns that are equal or will be mended. -/
theorem write (hphase : s.phase task = .writing saver fresh)
    (hsaved : saveCachedNodeSnapshot s.db fresh.node.id fresh.node.columns = some db) :
    Follows id { s.finish task .done with db := db } := by
  obtain ⟨hid, -⟩ := (h.phases task).reads saver fresh hphase
  obtain ⟨row, hrow, hfollows⟩ := h.row
  rw [hid] at hsaved
  have hnode := saveCachedNodeSnapshot_node hsaved
  rw [hrow, map_some] at hnode
  have hmended : Mended { s.finish task .done with db := db } task fresh.node.columns := by
    exact (h.saves task fresh.node.columns (by rw [hphase]; rfl)).update rfl
      (fun _ hequal => hequal) (by rw [hphase]; rintro ⟨⟩) fun _ _ => rfl
  refine h.finish (by rw [hphase]; rfl) (by rw [hphase]; rintro _ ⟨⟩) hnode ⟨hmended.row, ?_⟩
  exact hfollows.expiry_update rfl rfl (by rw [hphase]; rintro _ ⟨⟩)

lemma writeExpiry {signed : Int} (hphase : s.phase task = .writingExpiry expiry)
    (hid : toSigned id = some signed) (hsaved : saveCachedNodeExpiry s.db signed expiry = some db) :
    Follows id { s.finish task .done with db := db } := by
  obtain ⟨row, hrow, hfollows⟩ := h.row
  have hsigned : signed = id := by
    unfold toSigned at hid
    split at hid
    · exact (Option.some.inj hid).symm
    · cases hid
  rw [hsigned] at hsaved
  have hnode := saveCachedNodeExpiry_node hsaved
  rw [hrow, map_some] at hnode
  refine h.finish (by rw [hphase]; rfl) (by rw [hphase]; rintro _ ⟨⟩) hnode ⟨?_, .inl ?_⟩
  · exact hfollows.columns_update rfl (fun _ hequal => hequal) (by rw [hphase]; rintro ⟨⟩)
      (by rw [hphase]; rintro _ ⟨⟩)
  · exact (h.phases task).expiries expiry (by rw [hphase]; rfl)

/-- A registration's commit writes its copy. -/
theorem commit {refusals : Refusals} {db : Database} (hphase : s.phase task = .committing live)
    (hrun : live.commit.run refusals s.db live.registration = .ok db) :
    Follows id { s.finish task .done with db := db } := by
  have hid := (h.phases task).copies live (.inr hphase)
  obtain ⟨row, hrow, -⟩ := h.row
  obtain ⟨authKeyId, hnode⟩ := Commit.run_node hrun
  rw [hid, hrow, map_some] at hnode
  have hmended : Mended { s.finish task .done with db := db } task live.registration.columns := by
    exact (h.saves task live.registration.columns (by rw [hphase]; rfl)).update rfl
      (fun _ hequal => hequal) (by rw [hphase]; rintro ⟨⟩) fun _ _ => rfl
  refine h.finish (by rw [hphase]; rfl) (by rw [hphase]; rintro _ ⟨⟩) hnode ⟨hmended.row, .inl ?_⟩
  exact (h.phases task).expiries _ (by rw [hphase]; rfl)

lemma step {action : SaveAction} (hlocked : Locked s) (hstep : SaveStep codec id s action s')
    (hbetween : NoReadBetween s action) (hok : ∀ task, (s'.phase task).fails = false) :
    Follows id s' := by
  have hsucceeds : ∀ task phase, s'.phase = Function.update s.phase task phase →
      phase.fails = false := by
    intro task phase hphase
    have hnew := hok task
    rwa [hphase, Function.update_self] at hnew
  cases hstep with
  | begin hidle =>
    refine h.setPhase rfl rfl rfl rfl ?_ ?_ ?_ (.of_none rfl rfl) ?_ <;> rw [hidle]
    · rintro ⟨⟩
    · rfl
    · rfl
    · rintro _ ⟨⟩
  | editExpiry hphase => exact h.editExpiry hlocked hphase
  | edit hphase hkind hnative =>
    refine h.edited rfl rfl ?_ ?_ ?_ (by rw [hphase]; rfl)
    · exact NativeNodeMutation.edit_expiry s.record hkind
    · exact NativeNodeMutation.edit_ownedOnce h.owned
    · rintro shape ⟨⟩
      exact editNative_fit h.shapes hnative
  | approve hphase => exact h.edited rfl rfl rfl h.owned h.shapes (by rw [hphase]; rfl)
  | register hphase hbegin => exact h.register hlocked hphase hbegin
  | stamp hidle => exact h.edited rfl rfl rfl h.owned h.shapes (by rw [hidle]; rfl)
  | lockRead hfree hphase =>
    refine h.setPhase rfl rfl rfl rfl (fun _ => rfl) ?_ ?_ (.of_none rfl rfl) ?_ <;> rw [hphase]
    · rfl
    · rfl
    · rintro _ ⟨⟩
  | @lockExpiry task expiry hfree hphase =>
    have hexpiry : SavePhase.Sound id s.record.expiry (.writingExpiry expiry) := by
      refine ⟨by rintro _ _ ⟨⟩, ?_, fun time htime => ?_⟩
      · rintro _ (hlive | hlive) <;> cases hlive
      · exact (h.phases task).expiries time (by rw [hphase]; exact htime)
    refine h.setPhase rfl rfl rfl rfl ?_ ?_ ?_ hexpiry ?_ <;> rw [hphase]
    · rintro ⟨⟩
    · rfl
    · rfl
    · rintro _ ⟨⟩
  | @lockCommit task live hfree hphase =>
    have hcopy : SavePhase.Sound id s.record.expiry (.committing live) := by
      refine ⟨by rintro _ _ ⟨⟩, ?_, fun time htime => ?_⟩
      · rintro _ (hlive | hlive) <;> cases hlive
        exact (h.phases task).copies live (.inl hphase)
      · exact (h.phases task).expiries time (by rw [hphase]; exact htime)
    refine h.setPhase rfl rfl rfl rfl ?_ (by rw [hphase]; rfl) (by rw [hphase]; rfl) hcopy ?_
    · rw [hphase]
      rintro ⟨⟩
    · -- a save in progress would hold the lock, and another registration the guard
      intro _ _ other columns hne hcolumns
      obtain hpersists | ⟨live', hlive⟩ := SavePhase.persists_or_registered hcolumns
      · rw [hlocked.persist other hpersists] at hfree
        cases hfree
      · exact hne (hlocked.guards_unique (by rw [hphase]; rfl) (by rw [hlive]; rfl))
  | read hphase hnode => exact h.read hlocked hphase hnode hbetween
  | remember hphase hrecord hnative => exact h.remember hphase hrecord hnative
  | write hphase hsaved => exact h.write hphase hsaved
  | writeExpiry hphase hid hsaved => exact h.writeExpiry hphase hid hsaved
  | commit hphase hrun => exact h.commit hphase hrun
  | editFailed | commitFailed | rollback | keepEdit | fail =>
    -- a step that fails is not allowed
    exact absurd (hsucceeds _ _ rfl) nofun

end Follows

end Follows

/-! ## Runs -/

/-- The node's row equals its live record in keys, addresses, names, owner, tags, approved routes, the
time last seen and expiry. -/
def RowEqual (id : Nat) (s : SaveState) : Prop :=
  ∃ row, s.db.node id = some row ∧ ColumnsEqual row.columns s.native s.record ∧
    row.expiry = s.record.expiry

/-- A registry at rest whose row equals the live record. -/
structure AtRest (id : Nat) (s : SaveState) : Prop where
  idle : ∀ task, s.phase task = .idle
  equal : RowEqual id s
  shapes : ∀ shape, s.native = some shape → ShapesFit shape
  owned : s.record.OwnedOnce

lemma AtRest.follows {id : Nat} {s : SaveState} (h : AtRest id s) : Follows id s where
  shapes := h.shapes
  owned := h.owned
  phases task := by
    rw [h.idle task]
    exact .of_none rfl rfl
  saves task columns hcolumns := by
    rw [h.idle task] at hcolumns
    cases hcolumns
  row := by
    obtain ⟨row, hrow, hequal, hexpiry⟩ := h.equal
    exact ⟨row, hrow, .inl hequal, .inl hexpiry⟩

/-- With no call in progress, a row that follows is equal. -/
theorem Follows.rowEqual {id : Nat} {s : SaveState} (h : Follows id s)
    (hended : ∀ task, s.phase task = .idle ∨ s.phase task = .done) : RowEqual id s := by
  have hquiet : ∀ task, (s.phase task).rereads = false ∧ (s.phase task).toSave = none ∧
      (s.phase task).expiryToSave = none := by
    intro task
    obtain hphase | hphase := hended task <;> rw [hphase] <;> exact ⟨rfl, rfl, rfl⟩
  obtain ⟨row, hrow, hcolumns, hexpiry⟩ := h.row
  refine ⟨row, hrow, ?_, ?_⟩
  · obtain hequal | ⟨task, hreads⟩ | ⟨task, columns, hsave, -⟩ := hcolumns
    · exact hequal
    · rw [(hquiet task).1] at hreads
      cases hreads
    · rw [(hquiet task).2.1] at hsave
      cases hsave
  · obtain hequal | ⟨task, time, hsave⟩ := hexpiry
    · exact hequal
    · rw [(hquiet task).2.2] at hsave
      cases hsave

/-- A task that has failed does not recover. -/
theorem SaveStep.fails_stays {codec : HostCodec} {id r : Nat} {s s' : SaveState} {action : SaveAction}
    (h : SaveStep codec id s action s') (hfails : (s.phase r).fails = true) :
    (s'.phase r).fails = true := by
  have hupdate : ∀ (task : Nat) (phase : SavePhase), (s.phase task).fails = false ∨ phase.fails = true →
      (Function.update s.phase task phase r).fails = true := by
    intro task phase hcases
    by_cases htask : r = task
    · subst htask
      rw [Function.update_self]
      exact hcases.resolve_left (by rw [hfails]; decide)
    · rw [Function.update_of_ne htask]
      exact hfails
  cases h with
  | remember => exact hfails
  | begin hidle | stamp hidle => exact hupdate _ _ (.inl (by rw [hidle]; rfl))
  | editExpiry hphase | edit hphase | approve hphase | register hphase | lockRead _ hphase
  | lockExpiry _ hphase | lockCommit _ hphase | read hphase | write hphase | writeExpiry hphase
  | commit hphase =>
    exact hupdate _ _ (.inl (by rw [hphase]; rfl))
  | editFailed | commitFailed | rollback | keepEdit | fail => exact hupdate _ _ (.inr rfl)

/-- In every run from rest in which no disconnect save reads the node between a registration's live
edit and its lock: whenever all calls and saves have ended without failing, the row equals the live
record again. -/
theorem savedRow_follows_record {codec : HostCodec} {id : Nat} {s : SaveState}
    (h : (nodeSaves codec id (AtRest id)).ReachableBy (fun s action _ => NoReadBetween s action) s)
    (hended : ∀ task, s.phase task = .idle ∨ s.phase task = .done) : RowEqual id s := by
  have hlocked : ∀ s, (nodeSaves codec id (AtRest id)).ReachableBy
      (fun s action _ => NoReadBetween s action) s → Locked s :=
    fun s hs => locked_of_reachable (fun s hs => hs.idle) hs
  have hfollows : (∃ task, (s.phase task).fails = true) ∨ Follows id s := by
    refine h.invariant_of (I := fun s => (∃ task, (s.phase task).fails = true) ∨ Follows id s) hlocked
      (fun s hs => .inr hs.follows) ?_
    intro s action s' hlocked hinv hstep hbetween
    have hstep := apply_step hstep
    obtain ⟨task, hfails⟩ | hfollows := hinv
    · exact .inl ⟨task, hstep.fails_stays hfails⟩
    · by_cases hok : ∀ task, (s'.phase task).fails = false
      · exact .inr (hfollows.step hlocked hstep hbetween hok)
      · simpa using Or.inl hok
  obtain ⟨task, hfails⟩ | hfollows := hfollows
  · obtain hphase | hphase := hended task <;> rw [hphase] at hfails <;> cases hfails
  · exact hfollows.rowEqual hended

/-! ## A read between the edit and the lock -/

section Overtaken

def overtakenRow : NodeRow :=
  { id := 1
    columns :=
      { machineKey := "mkey:m1"
        nodeKey := "nodekey:n1"
        userId := some 7
        tags := some []
        lastSeen := some 0
        approvedRoutes := some ["10.0.0.0/8"] } }

/-- A node of a user, with its row. -/
def overtakenStart : SaveState where
  record := ownedRecord
  native := none
  db := { keys := [{ id := 3, userId := some 7 }], nodes := [overtakenRow] }

/-- A registration of the node under a new node key, with a key that is unused. -/
def overtakenCall : RegisterCall := refusedCall

/-- The disconnect save is done before the registration takes the lock. -/
def overtakenRun : List SaveAction :=
  [.begin 0 (.register overtakenCall), .edit 0, .stamp 1 12, .lock 1, .read 1, .write 1 false, .lock 0,
    .commit 0 {}]

/-- The disconnect save waits for the registration. -/
def orderedRun : List SaveAction :=
  [.begin 0 (.register overtakenCall), .edit 0, .stamp 1 12, .lock 0, .commit 0 {}, .lock 1]

def runSaves (actions : List SaveAction) : Option SaveState :=
  actions.foldlM (apply plainCodec 1) overtakenStart

lemma overtakenStart_atRest : AtRest 1 overtakenStart where
  idle _ := rfl
  equal := by
    refine ⟨overtakenRow, by decide +kernel, ?_, by decide⟩
    constructor <;> decide +kernel
  shapes := by rintro shape ⟨⟩
  owned := by rintro ⟨⟩

/-- Two tasks are done and all others have done nothing. -/
theorem ended_of_run {actions : List SaveAction} {s : SaveState}
    (htasks : ∀ action ∈ actions, action.task = 0 ∨ action.task = 1)
    (hrun : runSaves actions = some s) (h0 : s.phase 0 = .done) (h1 : s.phase 1 = .done) :
    ∀ task, s.phase task = .idle ∨ s.phase task = .done := by
  intro task
  by_cases hacts : task = 0 ∨ task = 1
  · obtain rfl | rfl := hacts
    · exact .inr h0
    · exact .inr h1
  · refine .inl (run_other (fun action haction htask => hacts ?_) hrun)
    rw [htask]
    exact htasks action haction

/-- Both calls have ended well, and the row still says when the registration saw the node. -/
theorem overtakenRun_row_differs :
    ∃ s, (nodeSaves plainCodec 1 (AtRest 1)).Reachable s ∧
      (∀ task, s.phase task = .idle ∨ s.phase task = .done) ∧ s.record.lastSeen = 12 ∧
      (s.db.node 1).map (·.columns.lastSeen) = some (some 11) ∧ ¬ RowEqual 1 s := by
  have hfinal : (runSaves overtakenRun).map (fun s => (s.phase 0, s.phase 1, s.record.lastSeen,
      (s.db.node 1).map (·.columns.lastSeen), liveLastSeen s.native s.record)) =
      some (.done, .done, 12, some (some 11), some 12) := by
    decide +kernel
  obtain ⟨s, hs, hfinal⟩ := map_eq_some_iff.mp hfinal
  obtain ⟨h0, h1, hrecord, hrow, hlast⟩ := by simpa only [Prod.mk.injEq] using hfinal
  have hreach : (nodeSaves plainCodec 1 (AtRest 1)).Reachable s :=
    System.ReachableBy.foldlM (fun _ _ _ _ h => h) (fun _ _ _ _ => trivial)
      (.init overtakenStart_atRest) hs
  refine ⟨s, hreach, ended_of_run (by decide) hs h0 h1, hrecord, hrow, ?_⟩
  rintro ⟨row, hnode, hequal, -⟩
  rw [Nat.cast_one] at hnode
  rw [hnode] at hrow
  have hrow : row.columns.lastSeen = some 11 := Option.some.inj hrow
  have hcolumns := hequal.lastSeen
  rw [hrow, hlast] at hcolumns
  exact absurd hcolumns (by decide)

lemma orderedRun_noRead : ∀ action ∈ orderedRun, ∀ s : SaveState, NoReadBetween s action := by
  simp only [orderedRun, List.forall_mem_cons]
  refine ⟨?_, ?_, ?_, ?_, ?_, ?_, by simp⟩ <;> intro s <;> rintro _ ⟨⟩

/-- The disconnect save reads after the registration's commit, and the row equals the record. -/
theorem orderedRun_row_follows :
    ∃ s, runSaves (orderedRun ++ [.read 1, .write 1 false]) = some s ∧
      s.record.lastSeen = 12 ∧ RowEqual 1 s := by
  have hfinal : (runSaves (orderedRun ++ [.read 1, .write 1 false])).map
      (fun s => (s.phase 0, s.phase 1, s.record.lastSeen)) = some (.done, .done, 12) := by
    decide +kernel
  obtain ⟨s, hs, hfinal⟩ := map_eq_some_iff.mp hfinal
  obtain ⟨h0, h1, hrecord⟩ := by simpa only [Prod.mk.injEq] using hfinal
  have hended := ended_of_run (by decide) hs h0 h1
  have hmachine : (runSaves orderedRun).map (·.machine) = some none := by decide +kernel
  obtain ⟨mid, hmid, hmachine⟩ := map_eq_some_iff.mp hmachine
  have hstart : (nodeSaves plainCodec 1 (AtRest 1)).ReachableBy
      (fun s action _ => NoReadBetween s action) mid :=
    System.ReachableBy.foldlM (fun _ _ _ _ h => h) (fun a ha s _ => orderedRun_noRead a ha s)
      (.init overtakenStart_atRest) hmid
  -- at the read nobody holds the guard, so no registration waits for the lock
  have hread : NoReadBetween mid (.read 1) := by
    intro _ _ _ other live hlive
    have hlocked := locked_of_reachable (fun s hs => hs.idle) hstart
    rw [hlocked.machine other (by rw [hlive]; rfl)] at hmachine
    cases hmachine
  have hrest := hs
  unfold runSaves at hrest hmid
  rw [List.foldlM_append, hmid] at hrest
  replace hrest : [.read 1, .write 1 false].foldlM (apply plainCodec 1) mid = some s := hrest
  obtain ⟨read, hreads, hrest⟩ := bind_eq_some_iff.mp hrest
  obtain ⟨written, hwritten, hrest⟩ := bind_eq_some_iff.mp hrest
  cases hrest
  have hreach := (hstart.step hreads hread).step hwritten (by rintro _ ⟨⟩)
  exact ⟨_, hs, hrecord, savedRow_follows_record hreach hended⟩

end Overtaken

end Headscale.Node
