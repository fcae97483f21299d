import Headscale.Db.AuthKeyRegistration
import Headscale.Lib.Machine

/-!
# Registrations that share keys

Registrations run concurrently: each looks its key up, checks the captured copy, and later runs one
write transaction. Transactions are serialized, and everything else may happen in between, also the
deletion of keys. A one-shot key that is not deleted is spent at most once, because the claim is an
update of an unused row in the transaction that saves the node.
-/

namespace Headscale.Db

open Machine List

/-! ## Registrations -/

/-- The checks a registration makes on the captured key. -/
inductive Checks where
  /-- Those of `register_auth_key`: nothing is asked of the key of a node that only refreshes. -/
  | register (refresh : Bool)
  /-- Those of the commit functions that are given a candidate. -/
  | captured (requireFresh : Bool)
deriving DecidableEq, Repr

/-- The write transaction of a registration. -/
inductive Write where
  | newWithAssociations (node : NewNodeRegistration)
  | newWithKey (node : NewNodeRegistration)
  | cachedWithKey (prior : NodeRow) (registration : CachedNodeRegistration)
  | cached (prior : NodeRow) (registration : CachedNodeRegistration)
  | sql (expected : Option NodeRow) (params : CreateParams) (requireFresh : Bool)
deriving DecidableEq, Repr

namespace Write

def prior : Write → Option NodeRow
  | newWithAssociations _ => none
  | newWithKey _ => none
  | cachedWithKey prior _ => some prior
  | cached prior _ => some prior
  | sql expected _ _ => expected

/-- The write creates a node. -/
def creates (write : Write) : Bool := write.prior.isNone

def params : Write → CreateParams
  | newWithAssociations node => node.params
  | newWithKey node => node.params
  | cachedWithKey _ registration => registration.params
  | cached _ registration => registration.params
  | sql _ params _ => params

/-- Whether the write itself claims the key as one that has to be fresh. -/
def claimsFresh (write : Write) (material : PreauthKeyRow) (fresh : Bool) (now : Int) : Bool :=
  match write with
  | newWithAssociations _ => true
  | newWithKey _ => true
  | cachedWithKey _ _ => false
  | cached _ _ => fresh
  | sql expected params requireFresh => needsFreshKey expected material params requireFresh now

def run (write : Write) (refusals : Refusals) (db : Database) (material : PreauthKeyRow)
    (fresh : Bool) (now : Int) (givenName : String) : Outcome :=
  let key := captureVerifiedKey material
  match write with
  | newWithAssociations node =>
    commitNewSqliteWithAssociations refusals db key node material givenName
  | newWithKey node => commitNewSqliteWithKey refusals db key node givenName
  | cachedWithKey prior registration => commitCachedSqliteWithKey refusals db key prior registration
  | cached prior registration => commitCachedSqlite refusals db key prior registration fresh
  | sql expected params requireFresh =>
    commitSqliteWithCapturedAssociations refusals db key expected params material requireFresh now
      givenName

end Write

/-- The checks on the captured row; the result says whether they asked for a fresh key. -/
def Checks.run (checks : Checks) (write : Write) (material : PreauthKeyRow) (now : Int) :
    Except RegistrationError Bool :=
  match checks with
  | .register true => .ok false
  | .register false => (validateLiveKey material now).map fun _ => true
  | .captured requireFresh =>
    validateCapturedRegistrationKey write.prior material write.params requireFresh now

/-! ## The system -/

/-- How far a registration has come. Its captured used mark is its own, so that until the transaction
it is the one of the row it read. -/
inductive Phase where
  | idle
  | looked (material : PreauthKeyRow)
  | checked (write : Write) (material : PreauthKeyRow) (fresh : Bool)
  /-- `spent` says that a node was created or a fresh key asked for. -/
  | committed (write : Write) (key : Int) (spent : Bool)
  | failed (error : RegistrationError)
deriving DecidableEq, Repr

structure ClaimState where
  db : Database
  phase : Nat → Phase

inductive ClaimAction where
  | lookup (task : Nat) (row : PreauthKeyRow)
  | check (task : Nat) (checks : Checks) (write : Write) (now : Int)
  | commit (task : Nat) (refusals : Refusals) (now : Int) (givenName : String)
  | destroy (key : Int)

namespace ClaimState

def setPhase (s : ClaimState) (task : Nat) (phase : Phase) : ClaimState :=
  { s with phase := Function.update s.phase task phase }

def lookup (s : ClaimState) (task : Nat) (row : PreauthKeyRow) : Option ClaimState :=
  if s.phase task = .idle ∧ row ∈ s.db.keys then some (s.setPhase task (.looked row)) else none

def check (s : ClaimState) (task : Nat) (checks : Checks) (write : Write) (now : Int) :
    Option ClaimState :=
  match s.phase task with
  | .looked material =>
    match checks.run write material now with
    | .ok fresh => some (s.setPhase task (.checked write material fresh))
    | .error error => some (s.setPhase task (.failed error))
  | _ => none

def commit (s : ClaimState) (task : Nat) (refusals : Refusals) (now : Int) (givenName : String) :
    Option ClaimState :=
  match s.phase task with
  | .checked write material fresh =>
    match (write.run refusals s.db material fresh now givenName).1 with
    | .ok db =>
      some { s.setPhase task (.committed write material.id
        (write.creates || fresh || write.claimsFresh material fresh now)) with db := db }
    | .error error => some (s.setPhase task (.failed error))
  | _ => none

def apply (s : ClaimState) : ClaimAction → Option ClaimState
  | .lookup task row => s.lookup task row
  | .check task checks write now => s.check task checks write now
  | .commit task refusals now givenName => s.commit task refusals now givenName
  | .destroy key => some { s with db := s.db.destroyKey key }

lemma setPhase_self (s : ClaimState) (task : Nat) (phase : Phase) :
    (s.setPhase task phase).phase task = phase := by simp [setPhase]

lemma setPhase_other (s : ClaimState) {task other : Nat} (phase : Phase) (h : other ≠ task) :
    (s.setPhase task phase).phase other = s.phase other := by simp [setPhase, h]

end ClaimState

/-- Registrations and deletions of keys on a database. -/
def registrations (db : Database) : System ClaimState ClaimAction where
  init s := s = { db := db, phase := fun _ => .idle }
  step s action s' := s.apply action = some s'

/-- Ids of keys are assigned from one on, and each once. -/
structure Database.WellFormed (db : Database) : Prop where
  distinct : (db.keys.map PreauthKeyRow.id).Nodup
  positive : ∀ row ∈ db.keys, row.id ≠ 0

/-! ## What a write does to the keys -/

/-- The key has a row that is marked used. -/
def UsedKey (db : Database) (k : Int) : Prop := ∃ row ∈ db.keys, row.id = k ∧ row.used = true

lemma markUsed_row (row : PreauthKeyRow) (k : Int) :
    (if row.id = k ∧ row.used = false then { row with used := true } else row) =
      { row with used := row.used || decide (row.id = k) } := by
  by_cases hid : row.id = k
  · cases hused : row.used with
    | false => simp [hid]
    | true => simp [← hused]
  · simp [hid]

variable {j : Int} {mid : Database} {fresh : Bool} {now : Int} {row : PreauthKeyRow}

open Database

lemma mem_markUsed {db : Database} {k : Int} :
    row ∈ (db.markUsed k).1.keys ↔
      ∃ before ∈ db.keys, { before with used := before.used || decide (before.id = k) } = row := by
  simp only [markUsed, markUsed_row, mem_map]

lemma markUsed_ids (db : Database) (k : Int) :
    (db.markUsed k).1.keys.map PreauthKeyRow.id = db.keys.map PreauthKeyRow.id := by
  simp only [markUsed, markUsed_row, List.map_map]
  rfl

lemma exists_unused_of_markUsed {db : Database} {k : Int} (h : (db.markUsed k).2 ≠ 0) :
    ∃ row ∈ db.keys, row.id = k ∧ row.used = false := by
  obtain ⟨row, hrow⟩ := exists_mem_of_length_pos (Nat.pos_of_ne_zero h)
  obtain ⟨hmem, hrow⟩ := mem_filter.mp hrow
  exact ⟨row, hmem, of_decide_eq_true hrow⟩

lemma usedKey_markUsed {db : Database} {k : Int} (h : (db.markUsed k).2 ≠ 0) :
    UsedKey (db.markUsed k).1 k := by
  obtain ⟨row, hrow, hid, -⟩ := exists_unused_of_markUsed h
  exact ⟨_, mem_markUsed.mpr ⟨row, hrow, rfl⟩, hid, by simp [hid]⟩

variable {write : Write} {action : ClaimAction} {material : PreauthKeyRow}

/-- Saving the captured key leaves its row alone, or inserts it where there is none. -/
theorem saveSqliteKey_spec (db : Database) (hpos : material.id ≠ 0) (key : CapturedAuthKey) :
    (saveSqliteKey db material key).2.id = material.id ∧
      ((saveSqliteKey db material key).1.keys = db.keys ∨
        (db.hasKey material.id = false ∧ ∃ row : PreauthKeyRow, row.id = material.id ∧
          (saveSqliteKey db material key).1.keys = db.keys ++ [row])) := by
  unfold saveSqliteKey insertKey
  split
  · exact ⟨rfl, .inl rfl⟩
  rename_i hconflict
  refine ⟨rfl, .inr ⟨?_, { material with
    reusable := key.reusable
    used := key.used
    key := some (material.key.getD "")
    keyPrefix := some (material.keyPrefix.getD "") }, rfl, rfl⟩⟩
  by_contra hpresent
  obtain ⟨other, hother, hid⟩ := hasKey_iff.mp ((Bool.not_eq_false _).mp hpresent)
  exact hconflict (any_eq_true.mpr ⟨other, hother, by simp [hpos, hid]⟩)

/-- The keys a committed write claimed its key among: those of the database, or with the captured
row inserted for a new node. -/
inductive SavedKeys (write : Write) (db : Database) (k : Int) : List PreauthKeyRow → Prop where
  | kept : SavedKeys write db k db.keys
  | inserted {row : PreauthKeyRow} (hid : row.id = k) (habsent : db.hasKey k = false)
      (hcreates : write.creates = true) : SavedKeys write db k (db.keys ++ [row])

variable {givenName : String}

lemma savedKeys_of_create {db : Database} {node : NewNodeRegistration} {key : CapturedAuthKey}
    (hcreates : write.creates = true) (hpos : material.id ≠ 0)
    (h : savingNode ((createNewRegistrationWithAssociations db node material key givenName).map Prod.fst) = .ok mid)
    :
    SavedKeys write db material.id mid.keys := by
  unfold savingNode at h
  split at h <;> cases h
  rename_i saved hsaved
  obtain ⟨⟨_, row⟩, hrow, rfl⟩ := Option.map_eq_some_iff.mp hsaved
  obtain ⟨-, hkeys, -⟩ := insertNode_eq hrow
  obtain ⟨-, hsame | ⟨habsent, inserted, hid, hinserted⟩⟩ := saveSqliteKey_spec db hpos key
  · simp only [hkeys, hsame]
    exact .kept
  · simp only [hkeys, hinserted]
    exact .inserted hid habsent hcreates

lemma savedKeys_of_kept {db : Database} {k : Int} {saved : Option Database}
    (hkept : ∀ db', saved = some db' → db'.keys = db.keys) (h : savingNode saved = .ok mid) :
    SavedKeys write db k mid.keys := by
  unfold savingNode at h
  split at h <;> cases h
  rw [hkept _ rfl]
  exact .kept

/-- A write that commits has saved the node, and has claimed the key unless the claim was skipped. -/
theorem Write.run_ok {refusals : Refusals} {db db' : Database} (hpos : material.id ≠ 0)
    (h : (write.run refusals db material fresh now givenName).1 = .ok db') :
    ∃ mid : Database, SavedKeys write db material.id mid.keys ∧
      (((captureVerifiedKey material).skipsClaim (write.claimsFresh material fresh now) = true ∧
          db' = mid) ∨
        ((captureVerifiedKey material).skipsClaim (write.claimsFresh material fresh now) = false ∧
          (mid.markUsed material.id).2 ≠ 0 ∧ db' = (mid.markUsed material.id).1)) := by
  have hclaimed := (saveSqliteKey_spec db hpos (captureVerifiedKey material)).1
  cases write with
  | newWithAssociations node =>
    simp only [run, commitNewSqliteWithAssociations] at h
    split at h
    · cases h
    obtain ⟨mid, hmid, hclaim⟩ := transact_ok (Prod.ext h rfl)
    refine ⟨mid, savedKeys_of_create rfl hpos hmid, ?_⟩
    simp only [hclaimed] at hclaim
    exact hclaim
  | newWithKey node =>
    simp only [run, commitNewSqliteWithKey] at h
    split at h
    · cases h
    obtain ⟨mid, hmid, hclaim⟩ := transact_ok (Prod.ext h rfl)
    refine ⟨mid, savedKeys_of_kept (fun saved hsaved => ?_) hmid, hclaim⟩
    obtain ⟨⟨_, row⟩, hrow, rfl⟩ := Option.map_eq_some_iff.mp hsaved
    exact (insertNode_eq hrow).2.1
  | cachedWithKey prior registration | cached prior registration =>
    simp only [run, commitCachedSqliteWithKey, commitCachedSqlite] at h
    split at h
    · cases h
    obtain ⟨mid, hmid, hclaim⟩ := transact_ok (Prod.ext h rfl)
    exact ⟨mid, savedKeys_of_kept (fun _ => updateNode_keys) hmid, hclaim⟩
  | sql expected params requireFresh =>
    simp only [run, commitSqliteWithCapturedAssociations] at h
    split at h
    · cases h
    cases expected with
    | some expected =>
      obtain ⟨mid, hmid, hclaim⟩ := transact_ok (Prod.ext h rfl)
      refine ⟨mid, ?_, hclaim⟩
      split at hmid
      · cases hmid
      split at hmid
      · refine savedKeys_of_kept (fun saved hsaved => ?_) hmid
        unfold updateFromAuthPath at hsaved
        split at hsaved
        · exact updateNode_keys hsaved
        · cases hsaved
      · cases hmid
    | none =>
      obtain ⟨mid, hmid, hclaim⟩ := transact_ok (Prod.ext h rfl)
      refine ⟨mid, savedKeys_of_create rfl hpos hmid, ?_⟩
      simp only [hclaimed] at hclaim
      exact hclaim

/-- Checks that ask for a fresh key let no used one-shot key through. -/
theorem Checks.unused_of_fresh {checks : Checks} (h : checks.run write material now = .ok true) :
    material.isUsed = false := by
  have hlive : ∀ {result : Unit}, validateLiveKey material now = .ok result →
      material.isUsed = false := by
    intro _ hlive
    unfold validateLiveKey at hlive
    split at hlive
    · cases hlive
    split at hlive
    · cases hlive
    · rename_i hunused
      exact Bool.eq_false_iff.mpr hunused
  unfold run at h
  split at h
  · cases h
  · cases hresult : validateLiveKey material now with
    | ok result => exact hlive hresult
    | error error => simp [hresult, Except.map] at h
  simp only [validateCapturedRegistrationKey, bind, Except.bind, pure, Except.pure] at h
  split at h
  · cases h
  split at h
  · cases h
  split at h
  · split at h
    · cases h
    · rename_i hresult
      exact hlive hresult
  · rename_i hfresh
    simp only [Except.ok.injEq] at h
    exact absurd h hfresh

/-! ## Steps -/

/-- The row a registration has in hand until it commits. -/
def Phase.captured : Phase → Option PreauthKeyRow
  | .looked material => some material
  | .checked _ material _ => some material
  | _ => none

/-- What a step does, by its kind. A registration that fails changes nothing but its own phase. -/
inductive ClaimStep (s : ClaimState) : ClaimAction → ClaimState → Prop where
  | lookup {task : Nat} {row : PreauthKeyRow} (hidle : s.phase task = .idle)
      (hrow : row ∈ s.db.keys) : ClaimStep s (.lookup task row) (s.setPhase task (.looked row))
  | check {task : Nat} {checks : Checks} {write : Write} {now : Int} {material : PreauthKeyRow}
      {fresh : Bool} (hlooked : s.phase task = .looked material)
      (hchecks : checks.run write material now = .ok fresh) :
      ClaimStep s (.check task checks write now) (s.setPhase task (.checked write material fresh))
  | commit {task : Nat} {refusals : Refusals} {now : Int} {givenName : String} {write : Write}
      {material : PreauthKeyRow} {fresh : Bool} {db : Database}
      (hchecked : s.phase task = .checked write material fresh)
      (hrun : (write.run refusals s.db material fresh now givenName).1 = .ok db) :
      ClaimStep s (.commit task refusals now givenName)
        { s.setPhase task (.committed write material.id
          (write.creates || fresh || write.claimsFresh material fresh now)) with db := db }
  | fail {action : ClaimAction} {task : Nat} {error : RegistrationError}
      (hpending : (s.phase task).captured ≠ none) :
      ClaimStep s action (s.setPhase task (.failed error))
  | destroy {key : Int} : ClaimStep s (.destroy key) { s with db := s.db.destroyKey key }

lemma ClaimState.apply_step {s s' : ClaimState} (h : s.apply action = some s') :
    ClaimStep s action s' := by
  cases action with
  | lookup task row =>
    simp only [apply, lookup] at h
    split at h <;> cases h
    rename_i hguard
    exact .lookup hguard.1 hguard.2
  | check task checks write now =>
    simp only [apply, check] at h
    split at h
    · rename_i material hlooked
      split at h <;> cases h
      · exact .check hlooked ‹_›
      · exact .fail (by rw [hlooked]; nofun)
    · cases h
  | commit task refusals now givenName =>
    simp only [apply, commit] at h
    split at h
    · rename_i write material fresh hchecked
      split at h <;> cases h
      · exact .commit hchecked ‹_›
      · exact .fail (by rw [hchecked]; nofun)
    · cases h
  | destroy key =>
    cases h
    exact .destroy

open ClaimState

/-- A registration is in hand of a row after a step only if it was before, or looked the row up. -/
theorem ClaimStep.captured_cases {s s' : ClaimState} (h : ClaimStep s action s') {task : Nat}
    (hcaptured : (s'.phase task).captured = some material) :
    (s.phase task).captured = some material ∨ (s'.db = s.db ∧ material ∈ s.db.keys) := by
  cases h with
  | @lookup looker row _ hrow =>
    by_cases htask : task = looker
    · subst htask
      rw [setPhase_self] at hcaptured
      cases hcaptured
      exact .inr ⟨rfl, hrow⟩
    · exact .inl (by rwa [setPhase_other _ _ htask] at hcaptured)
  | @check checker _ _ _ _ _ hlooked _ =>
    by_cases htask : task = checker
    · subst htask
      rw [setPhase_self] at hcaptured
      exact .inl (by rw [hlooked]; exact hcaptured)
    · exact .inl (by rwa [setPhase_other _ _ htask] at hcaptured)
  | @commit committer _ _ _ write row fresh _ _ _ =>
    by_cases htask : task = committer
    · subst htask
      simp only [setPhase_self] at hcaptured
      cases hcaptured
    · exact .inl (by simpa only [setPhase_other _ _ htask] using hcaptured)
  | @fail _ failing =>
    by_cases htask : task = failing
    · subst htask
      rw [setPhase_self] at hcaptured
      cases hcaptured
    · exact .inl (by rwa [setPhase_other _ _ htask] at hcaptured)
  | destroy => exact .inl hcaptured

/-! ## Well-formed keys -/

lemma Database.WellFormed.eq_of_id {db : Database} (h : db.WellFormed) {other : PreauthKeyRow}
    (hrow : row ∈ db.keys) (hother : other ∈ db.keys) (hid : row.id = other.id) : row = other :=
  inj_on_of_nodup_map h.distinct hrow hother hid

lemma Database.WellFormed.saved {db : Database} (h : db.WellFormed) (hpos : j ≠ 0)
    (hsaved : SavedKeys write db j mid.keys) : mid.WellFormed := by
  generalize hkeys : mid.keys = keys at hsaved
  cases hsaved with
  | kept => exact ⟨by rw [hkeys]; exact h.distinct, by rw [hkeys]; exact h.positive⟩
  | @inserted row hid habsent _ =>
    constructor
    · rw [hkeys, map_append, map_singleton]
      refine nodup_append.mpr ⟨h.distinct, nodup_singleton _, ?_⟩
      intro id hmem id' hmem' heq
      obtain ⟨other, hother, rfl⟩ := mem_map.mp hmem
      rw [mem_singleton.mp hmem', hid] at heq
      rw [hasKey_iff.mpr ⟨other, hother, heq⟩] at habsent
      cases habsent
    · intro other hother
      rw [hkeys, mem_append, mem_singleton] at hother
      obtain hother | rfl := hother
      · exact h.positive other hother
      · exact hid ▸ hpos

lemma Database.WellFormed.markUsed {db : Database} (h : db.WellFormed) (j : Int) :
    (db.markUsed j).1.WellFormed := by
  refine ⟨by rw [markUsed_ids]; exact h.distinct, fun row hrow => ?_⟩
  obtain ⟨before, hbefore, rfl⟩ := mem_markUsed.mp hrow
  exact h.positive before hbefore

lemma Database.WellFormed.destroyKey {db : Database} (h : db.WellFormed) (j : Int) :
    (db.destroyKey j).WellFormed :=
  ⟨(filter_sublist.map _).nodup h.distinct,
    fun row hrow => h.positive row (mem_of_mem_filter hrow)⟩

/-- The keys are well-formed, and so are the copies that registrations have in hand. -/
structure WellCaptured (s : ClaimState) : Prop where
  wellFormed : s.db.WellFormed
  positive : ∀ task material, (s.phase task).captured = some material → material.id ≠ 0

lemma WellCaptured.apply {s s' : ClaimState} (h : WellCaptured s)
    (hstep : ClaimStep s action s') : WellCaptured s' where
  wellFormed := by
    cases hstep with
    | lookup | check | fail => exact h.wellFormed
    | @commit task _ _ _ _ material _ _ hchecked hrun =>
      have hpos := h.positive task material (by rw [hchecked]; rfl)
      obtain ⟨mid, hsaved, ⟨-, rfl⟩ | ⟨-, -, rfl⟩⟩ := Write.run_ok hpos hrun
      · exact h.wellFormed.saved hpos hsaved
      · exact (h.wellFormed.saved hpos hsaved).markUsed _
    | @destroy j => exact h.wellFormed.destroyKey j
  positive task material hcaptured := by
    obtain hcaptured | ⟨-, hrow⟩ := hstep.captured_cases hcaptured
    · exact h.positive task material hcaptured
    · exact h.wellFormed.positive material hrow

lemma wellCaptured_of_reachable {db : Database} (hwf : db.WellFormed)
    {allowed : ClaimState → ClaimAction → ClaimState → Prop} {s : ClaimState}
    (h : (registrations db).ReachableBy allowed s) : WellCaptured s := by
  refine h.invariant ?_ fun s action s' hinv hstep _ => hinv.apply (apply_step hstep)
  rintro s rfl
  exact ⟨hwf, fun _ _ => nofun⟩

/-! ## One-shot keys -/

/-- A database with well-formed keys and a one-shot key. -/
structure OneShotKey (db : Database) (k : Int) : Prop where
  wellFormed : db.WellFormed
  present : db.hasKey k = true
  oneShot : ∀ row ∈ db.keys, row.id = k → row.reusable = false

/-- Saving another key's row, or the key's own row while it is there, adds no row of the key. -/
theorem SavedKeys.mem {db : Database} {k : Int} {keys : List PreauthKeyRow}
    (hsaved : SavedKeys write db j keys) (hpresent : db.hasKey k = true) (hid : row.id = k) :
    row ∈ keys ↔ row ∈ db.keys := by
  cases hsaved with
  | kept => exact Iff.rfl
  | @inserted added hadded habsent _ =>
    rw [mem_append, mem_singleton, or_iff_left]
    rintro rfl
    rw [← hid, hadded, habsent] at hpresent
    cases hpresent

namespace OneShotKey

variable {db : Database} {k : Int}

lemma saved {write : Write} {mid : Database} {j : Int} (h : OneShotKey db k) (hpos : j ≠ 0)
    (hsaved : SavedKeys write db j mid.keys) : OneShotKey mid k := by
  refine ⟨h.wellFormed.saved hpos hsaved, ?_, fun row hrow hid => ?_⟩
  · obtain ⟨row, hrow, hid⟩ := hasKey_iff.mp h.present
    exact hasKey_iff.mpr ⟨row, (hsaved.mem h.present hid).mpr hrow, hid⟩
  · exact h.oneShot row ((hsaved.mem h.present hid).mp hrow) hid

lemma markUsed (h : OneShotKey db k) (j : Int) : OneShotKey (db.markUsed j).1 k := by
  refine ⟨h.wellFormed.markUsed j, ?_, fun row hrow hid => ?_⟩
  · obtain ⟨row, hrow, hid⟩ := hasKey_iff.mp h.present
    exact hasKey_iff.mpr ⟨_, mem_markUsed.mpr ⟨row, hrow, rfl⟩, hid⟩
  · obtain ⟨before, hbefore, rfl⟩ := mem_markUsed.mp hrow
    exact h.oneShot before hbefore hid

lemma destroyKey {j : Int} (h : OneShotKey db k) (hother : j ≠ k) :
    OneShotKey (db.destroyKey j) k := by
  refine ⟨h.wellFormed.destroyKey j, ?_, fun row hrow => h.oneShot row (mem_of_mem_filter hrow)⟩
  obtain ⟨row, hrow, hid⟩ := hasKey_iff.mp h.present
  exact hasKey_iff.mpr ⟨row, mem_filter.mpr ⟨hrow, by simp [hid, hother.symm]⟩, hid⟩

end OneShotKey

namespace UsedKey

variable {db : Database} {k : Int}

lemma saved {write : Write} {mid : Database} {j : Int} (h : UsedKey db k)
    (hsaved : SavedKeys write db j mid.keys) : UsedKey mid k := by
  obtain ⟨row, hrow, hid, hused⟩ := h
  have hpresent := hasKey_iff.mpr ⟨row, hrow, hid⟩
  exact ⟨row, (hsaved.mem hpresent hid).mpr hrow, hid, hused⟩

lemma markUsed (h : UsedKey db k) (j : Int) : UsedKey (db.markUsed j).1 k := by
  obtain ⟨row, hrow, hid, hused⟩ := h
  exact ⟨_, mem_markUsed.mpr ⟨row, hrow, rfl⟩, hid, by simp [hused]⟩

lemma destroyKey {j : Int} (h : UsedKey db k) (hother : j ≠ k) : UsedKey (db.destroyKey j) k := by
  obtain ⟨row, hrow, hid, hused⟩ := h
  exact ⟨row, mem_filter.mpr ⟨hrow, by simp [hid, hother.symm]⟩, hid, hused⟩

/-- A used key cannot be claimed. -/
theorem not_claimed (h : UsedKey db k) (hwf : db.WellFormed) : (db.markUsed k).2 = 0 := by
  by_contra hclaimed
  obtain ⟨row, hrow, hid, hunused⟩ := exists_unused_of_markUsed hclaimed
  obtain ⟨other, hother, hid', hused⟩ := h
  rw [hwf.eq_of_id hrow hother (hid.trans hid'.symm), hused] at hunused
  cases hunused

end UsedKey

/-- A write that creates a node claims the key as a fresh one. -/
theorem Write.claimsFresh_of_creates (h : write.creates = true) (material : PreauthKeyRow)
    (fresh : Bool) (now : Int) : write.claimsFresh material fresh now = true := by
  cases write with
  | newWithAssociations | newWithKey => rfl
  | cachedWithKey | cached => cases h
  | sql expected params requireFresh =>
    obtain rfl := Option.isNone_iff_eq_none.mp h
    simp [claimsFresh, needsFreshKey]

/-- A registration that creates a node or needs a fresh key does not skip the claim of a one-shot
key. -/
theorem Write.not_skips
    (hspent : (write.creates || fresh || write.claimsFresh material fresh now) = true)
    (honeShot : material.reusable = false) (hunused : fresh = true → material.isUsed = false) :
    (captureVerifiedKey material).skipsClaim (write.claimsFresh material fresh now) = false := by
  simp only [CapturedAuthKey.skipsClaim, captureVerifiedKey, honeShot]
  by_cases hclaims : write.claimsFresh material fresh now = true
  · simp [hclaims]
  -- then the checks asked for a fresh key, and found the captured one unused
  have hcreates : write.creates = false :=
    Bool.eq_false_iff.mpr fun hcreates => hclaims (claimsFresh_of_creates hcreates material fresh now)
  have hfresh : fresh = true := by simpa [hcreates, hclaims] using hspent
  have hused : material.used = false := by
    simpa [PreauthKeyRow.isUsed, honeShot] using hunused hfresh
  simp [hused]

/-- What holds of a one-shot key in every run that does not delete it. -/
structure SpentOnce (k : Int) (s : ClaimState) : Prop extends WellCaptured s where
  key : OneShotKey s.db k
  oneShot : ∀ task material, (s.phase task).captured = some material → material.id = k →
    material.reusable = false
  fresh : ∀ task write material, s.phase task = .checked write material true →
    material.isUsed = false
  used : ∀ task write, s.phase task = .committed write k true → UsedKey s.db k
  once : ∀ task task' write write', s.phase task = .committed write k true →
    s.phase task' = .committed write' k true → task = task'

namespace SpentOnce

variable {k : Int} {s s' : ClaimState}

/-- A commit that spends the key finds it unused and leaves it used. -/
theorem commit {task : Nat} {refusals : Refusals} {now : Int} {givenName : String} {write : Write}
    {material : PreauthKeyRow} {fresh : Bool} {db : Database} (h : SpentOnce k s)
    (hchecked : s.phase task = .checked write material fresh)
    (hrun : (write.run refusals s.db material fresh now givenName).1 = .ok db) :
    OneShotKey db k ∧ (UsedKey s.db k → UsedKey db k) ∧
      (material.id = k →
        (write.creates || fresh || write.claimsFresh material fresh now) = true →
        ¬ UsedKey s.db k ∧ UsedKey db k) := by
  have hcaptured : (s.phase task).captured = some material := by rw [hchecked]; rfl
  have hpos := h.positive task material hcaptured
  obtain ⟨mid, hsaved, ⟨hskips, rfl⟩ | ⟨hskips, hclaimed, rfl⟩⟩ := Write.run_ok hpos hrun
  · refine ⟨h.key.saved hpos hsaved, fun hused => hused.saved hsaved, fun hid hspent => ?_⟩
    have hunused : fresh = true → material.isUsed = false := by
      rintro rfl
      exact h.fresh task write material hchecked
    rw [Write.not_skips hspent (h.oneShot task material hcaptured hid) hunused] at hskips
    cases hskips
  · have hkey := h.key.saved hpos hsaved
    refine ⟨hkey.markUsed _, fun hused => (hused.saved hsaved).markUsed _, ?_⟩
    rintro rfl -
    exact ⟨fun hused => hclaimed ((hused.saved hsaved).not_claimed hkey.wellFormed),
      usedKey_markUsed hclaimed⟩

variable {action : ClaimAction}

/-- No step but the deletion of the key takes it or its used mark away. -/
theorem key_kept (h : SpentOnce k s) (hstep : ClaimStep s action s') (hkept : action ≠ .destroy k) :
    OneShotKey s'.db k ∧ (UsedKey s.db k → UsedKey s'.db k) := by
  cases hstep with
  | lookup | check | fail => exact ⟨h.key, id⟩
  | commit hchecked hrun =>
    obtain ⟨hkey, hused, -⟩ := h.commit hchecked hrun
    exact ⟨hkey, hused⟩
  | @destroy j =>
    have hother : j ≠ k := fun heq => hkept (by rw [heq])
    exact ⟨h.key.destroyKey hother, fun hused => hused.destroyKey hother⟩

/-- Only the registration's own check brings it to its commit. -/
theorem fresh_kept (h : SpentOnce k s) (hstep : ClaimStep s action s') {task : Nat}
    {write : Write} {material : PreauthKeyRow}
    (hphase : s'.phase task = .checked write material true) : material.isUsed = false := by
  cases hstep with
  | @lookup other | @fail _ other | @commit other =>
    by_cases htask : task = other
    · subst htask
      simp only [setPhase_self] at hphase
      cases hphase
    · simp only [setPhase_other _ _ htask] at hphase
      exact h.fresh task write material hphase
  | @check other _ _ _ _ _ hlooked hchecks =>
    by_cases htask : task = other
    · subst htask
      rw [setPhase_self] at hphase
      cases hphase
      exact Checks.unused_of_fresh hchecks
    · rw [setPhase_other _ _ htask] at hphase
      exact h.fresh task write material hphase
  | destroy => exact h.fresh task write material hphase

/-- A registration that has spent the key did so before, or just now and as the first. -/
theorem committed_cases (h : SpentOnce k s) (hstep : ClaimStep s action s') {task : Nat}
    {write : Write} (hphase : s'.phase task = .committed write k true) :
    s.phase task = .committed write k true ∨
      (¬ UsedKey s.db k ∧ UsedKey s'.db k ∧ ∀ other, other ≠ task → s'.phase other = s.phase other) := by
  cases hstep with
  | @lookup other | @fail _ other | @check other =>
    by_cases htask : task = other
    · subst htask
      rw [setPhase_self] at hphase
      cases hphase
    · rw [setPhase_other _ _ htask] at hphase
      exact .inl hphase
  | @commit committer _ _ _ _ material fresh _ hchecked hrun =>
    by_cases htask : task = committer
    · subst htask
      simp only [setPhase_self, Phase.committed.injEq] at hphase
      obtain ⟨-, hid, hspent⟩ := hphase
      obtain ⟨hunused, hused⟩ := (h.commit hchecked hrun).2.2 hid hspent
      exact .inr ⟨hunused, hused, fun other hother => setPhase_other _ _ hother⟩
    · simp only [setPhase_other _ _ htask] at hphase
      exact .inl hphase
  | destroy => exact .inl hphase

lemma apply (h : SpentOnce k s) (hstep : ClaimStep s action s') (hkept : action ≠ .destroy k) :
    SpentOnce k s' where
  toWellCaptured := h.toWellCaptured.apply hstep
  key := (h.key_kept hstep hkept).1
  oneShot task material hcaptured hid := by
    obtain hcaptured | ⟨-, hrow⟩ := hstep.captured_cases hcaptured
    · exact h.oneShot task material hcaptured hid
    · exact h.key.oneShot material hrow hid
  fresh task write material hphase := h.fresh_kept hstep hphase
  used task write hphase := by
    obtain hphase | ⟨-, hused, -⟩ := h.committed_cases hstep hphase
    · exact (h.key_kept hstep hkept).2 (h.used task write hphase)
    · exact hused
  once task task' write write' hphase hphase' := by
    -- a registration that spends the key now finds it unused, so that none has spent it before
    obtain hbefore | ⟨hunused, -, hothers⟩ := h.committed_cases hstep hphase
    · obtain hbefore' | ⟨hunused, -, -⟩ := h.committed_cases hstep hphase'
      · exact h.once task task' write write' hbefore hbefore'
      · exact absurd (h.used task write hbefore) hunused
    · by_contra hne
      rw [hothers task' (Ne.symm hne)] at hphase'
      exact hunused (h.used task' write' hphase')

end SpentOnce

lemma spentOnce_of_reachable {db : Database} {k : Int} (hkey : OneShotKey db k) {s : ClaimState}
    (h : (registrations db).ReachableBy (fun _ action _ => action ≠ .destroy k) s) :
    SpentOnce k s := by
  refine h.invariant ?_ fun s action s' hinv hstep hkept => hinv.apply (apply_step hstep) hkept
  rintro s rfl
  exact
    { wellFormed := hkey.wellFormed
      positive := fun _ _ => nofun
      key := hkey
      oneShot := fun _ _ => nofun
      fresh := fun _ _ _ => nofun
      used := fun _ _ => nofun
      once := fun _ _ _ _ => nofun }

/-- The registration that takes the step. -/
def ClaimAction.task : ClaimAction → Option Nat
  | .lookup task _ => some task
  | .check task _ _ _ => some task
  | .commit task _ _ _ => some task
  | .destroy _ => none

/-- A registration writes to the database in the step that commits it and in no other. -/
theorem ClaimStep.db_eq {s s' : ClaimState} (h : ClaimStep s action s') {task : Nat}
    (htask : action.task = some task)
    (hopen : ∀ write key spent, s'.phase task ≠ .committed write key spent) : s'.db = s.db := by
  cases h with
  | lookup | check | fail => rfl
  | commit =>
    cases htask
    exact absurd (setPhase_self _ _ _) (hopen _ _ _)
  | destroy => cases htask

/-- In every run that does not delete a one-shot key, at most one registration that creates a node or
needs a fresh key commits with it, the key is then marked used, and a registration that fails has
written nothing. -/
theorem registrations_spend_once {db : Database} {k : Int} (hkey : OneShotKey db k) {s : ClaimState}
    (h : (registrations db).ReachableBy (fun _ action _ => action ≠ .destroy k) s) :
    (∀ task task' write write', s.phase task = .committed write k true →
      s.phase task' = .committed write' k true → task = task') ∧
    (∀ task write, s.phase task = .committed write k true → UsedKey s.db k) ∧
    ∀ action s' task, s.apply action = some s' → action.task = some task →
      (∀ write key spent, s'.phase task ≠ .committed write key spent) → s'.db = s.db := by
  have hspent := spentOnce_of_reachable hkey h
  exact ⟨hspent.once, hspent.used, fun action s' task hstep htask hopen =>
    (apply_step hstep).db_eq htask hopen⟩

section Race

/-- A one-shot key and a reusable one. -/
def twoKeys : Database :=
  { keys := [{ id := 1, keyPrefix := some "a", userId := some 7 },
      { id := 2, keyPrefix := some "b", userId := some 7, reusable := true }]
    lastKey := 2 }

lemma twoKeys_oneShot : OneShotKey twoKeys 1 :=
  ⟨⟨by decide, by decide⟩, by decide, by decide⟩

/-- The write of a new node of user 7 with a key. -/
def newNode (machineKey : String) (k : Int) : Write :=
  .newWithAssociations
    { columns := { machineKey := machineKey, userId := some 7 }, authKeyId := some k }

/-- A registration up to its commit. -/
def upToCommit (task : Nat) (machineKey : String) (row : PreauthKeyRow) : List ClaimAction :=
  [.lookup task row, .check task (.register false) (newNode machineKey row.id) 10]

/-- Two registrations look the one-shot key up before either commits. -/
def raceRun : List ClaimAction :=
  upToCommit 1 "m1" { id := 1, keyPrefix := some "a", userId := some 7 } ++
    upToCommit 2 "m2" { id := 1, keyPrefix := some "a", userId := some 7 } ++
    [.commit 1 {} 11 "first", .commit 2 {} 12 "second"]

def runClaims (actions : List ClaimAction) : Option ClaimState :=
  actions.foldlM apply { db := twoKeys, phase := fun _ => .idle }

lemma reachable_of_runClaims {allowed : ClaimState → ClaimAction → ClaimState → Prop}
    {actions : List ClaimAction} (hallowed : ∀ a ∈ actions, ∀ s s', allowed s a s') {s : ClaimState}
    (h : runClaims actions = some s) : (registrations twoKeys).ReachableBy allowed s :=
  System.ReachableBy.foldlM (fun _ _ _ _ => id) hallowed (.init rfl) h

/-- The first of the two registrations spends the key, and the second is refused. -/
theorem raceRun_spends_once :
    ∃ s, runClaims raceRun = some s ∧ s.phase 1 = .committed (newNode "m1" 1) 1 true ∧
      s.phase 2 = .failed (.credential .alreadyUsed) ∧ UsedKey s.db 1 ∧
      ∀ task write, s.phase task = .committed write 1 true → task = 1 := by
  have hsome : (runClaims raceRun).isSome = true := by decide
  have hfirst : (runClaims raceRun).map (·.phase 1) = some (.committed (newNode "m1" 1) 1 true) := by
    decide
  have hsecond : (runClaims raceRun).map (·.phase 2) =
      some (.failed (.credential .alreadyUsed)) := by decide
  obtain ⟨s, hs⟩ := Option.isSome_iff_exists.mp hsome
  rw [hs] at hfirst hsecond
  have hreach : (registrations twoKeys).ReachableBy (fun _ action _ => action ≠ .destroy 1) s :=
    reachable_of_runClaims (by simp [raceRun, upToCommit]) hs
  obtain ⟨honce, hused, -⟩ := registrations_spend_once twoKeys_oneShot hreach
  have hphase := Option.some.inj hfirst
  exact ⟨s, hs, hphase, Option.some.inj hsecond, hused 1 _ hphase,
    fun task write htask => honce task 1 write _ htask hphase⟩

end Race

end Headscale.Db
