import Headscale.Auth.SshAction

/-!
# What the calls do

What is proved of every call here rests on what all of them keep: an entry that was made stays, with its
id and what it was made for, and the verdict it once has; approvals are stamped with the policy they are
recorded under. A call that takes an entry out of the map owes it a verdict, and has paid when it returns.
-/

namespace Headscale.Auth

open Std Node TreeMap Threads List Option

/-- A section of a call that was run. -/
abbrev CallStep (cfg : WireConfig) := Taken (WireState cfg) (Choice cfg)

abbrev Condition (cfg : WireConfig) := Assertion (WireState cfg) (Choice cfg)

variable {cfg : WireConfig} {s s' : WireState cfg} {c : Choice cfg} {e : Nat}

/-! ## What all calls keep -/

/-- An entry may be used, get its verdict, and have that consumed. -/
structure RegistrationEntry.Grows (entry entry' : RegistrationEntry) : Prop where
  sshBinding : entry'.sshBinding = entry.sshBinding
  outcome : ∀ verdict, entry.outcome = some verdict → entry'.outcome = some verdict
  consumed : entry.sshVerdictConsumed = true → entry'.sshVerdictConsumed = true

variable (entry : RegistrationEntry)

lemma RegistrationEntry.Grows.refl : entry.Grows entry :=
  ⟨rfl, fun _ h => h, id⟩

lemma RegistrationEntry.Grows.trans {entry entry' entry'' : RegistrationEntry}
    (h : entry.Grows entry') (h' : entry'.Grows entry'') : entry.Grows entry'' :=
  ⟨h'.sshBinding.trans h.sshBinding, fun v hv => h'.outcome v (h.outcome v hv),
    fun hc => h'.consumed (h.consumed hc)⟩

lemma RegistrationEntry.grows_settle (verdict : RegistrationOutcome) :
    entry.Grows (entry.settle verdict) :=
  ⟨rfl, fun v hv => by simp [settle, hv], id⟩

lemma RegistrationEntry.grows_touch (lastUsed : Nat) : entry.Grows (entry.touch lastUsed) :=
  ⟨rfl, fun _ h => h, id⟩

lemma RegistrationEntry.grows_consumed : entry.Grows { entry with sshVerdictConsumed := true } :=
  ⟨rfl, fun _ h => h, fun _ => rfl⟩

namespace WireState

structure Keeps (s s' : WireState cfg) : Prop where
  cells : ∀ (e : Nat) cell, s.cells[e]? = some cell →
    ∃ cell', s'.cells[e]? = some cell' ∧ cell'.id = cell.id ∧ cell.entry.Grows cell'.entry
  epoch : s.policy.sshAuthEpoch ≤ s'.policy.sshAuthEpoch
  /-- A new approval is stamped with the policy of its time. -/
  approvals : ∀ pair record stamp, s'.lastSshAuth pair = some record →
    record.policyStamp = some stamp →
    s.lastSshAuth pair = some record ∨ s.policy.sshAuthEpoch ≤ stamp.epoch

lemma Keeps.refl (s : WireState cfg) : s.Keeps s :=
  ⟨fun _ cell h => ⟨cell, h, rfl, .refl _⟩, Nat.le_refl _, fun _ _ _ h _ => .inl h⟩

lemma Keeps.trans {t u : WireState cfg} (h : s.Keeps t) (h' : t.Keeps u) : s.Keeps u := by
  refine ⟨fun e cell hcell => ?_, Nat.le_trans h.epoch h'.epoch, fun pair record stamp hr hstamp => ?_⟩
  · obtain ⟨cell₁, hcell₁, hid₁, hgrows₁⟩ := h.cells e cell hcell
    obtain ⟨cell₂, hcell₂, hid₂, hgrows₂⟩ := h'.cells e cell₁ hcell₁
    exact ⟨cell₂, hcell₂, hid₂.trans hid₁, hgrows₁.trans hgrows₂⟩
  · obtain hold | hnew := h'.approvals pair record stamp hr hstamp
    · exact h.approvals pair record stamp hold hstamp
    · exact .inr (Nat.le_trans h.epoch hnew)

structure Valid (s : WireState cfg) : Prop where
  mapped : ∀ (id : String) e, s.inner[id]? = some e → ∃ cell, s.cells[e]? = some cell ∧ cell.id = id
  stamped : ∀ pair record stamp, s.lastSshAuth pair = some record → record.policyStamp = some stamp →
    stamp.epoch ≤ s.policy.sshAuthEpoch

end WireState

/-- An approval that the step has recorded has its time and the stamp of the policy. -/
def Stamps (step : CallStep cfg) : Prop :=
  ∀ pair record stamp, step.after.lastSshAuth pair = some record →
    step.before.lastSshAuth pair ≠ some record → record.policyStamp = some stamp →
    stamp = step.before.sshPolicyStamp ∧ record.recordedAt = step.choice.now

lemma stamps_of_eq (h : s'.lastSshAuth = s.lastSshAuth) : Stamps ⟨s, c, s'⟩ :=
  fun pair _ _ hrecord hnew _ => absurd ((congrFun h pair).symm.trans hrecord) hnew

open WireState

def discipline (cfg : WireConfig) : Discipline (WireState cfg) (Choice cfg) where
  inv := WireState.Valid
  each := Stamps
  keeps := WireState.Keeps
  refl := .refl
  trans := .trans

/-! ## Steps -/

section Steps

variable {own : CallStep cfg → Prop}

lemma step_refl (hs : s.Valid) (hown : own ⟨s, c, s⟩) : (discipline cfg).Step own ⟨s, c, s⟩ :=
  ⟨hs, stamps_of_eq rfl, .refl s, hown⟩

lemma step_inner (hs : s.Valid) {inner : ExtTreeMap String Nat}
    (hinner : ∀ (id : String) e, inner[id]? = some e →
      s.inner[id]? = some e ∨ ∃ cell, s.cells[e]? = some cell ∧ cell.id = id)
    (hown : own ⟨s, c, { s with inner := inner }⟩) :
    (discipline cfg).Step own ⟨s, c, { s with inner := inner }⟩ where
  inv := ⟨fun id e he => (hinner id e he).elim (hs.mapped id e) fun h => h, hs.stamped⟩
  each := stamps_of_eq rfl
  keeps := { WireState.Keeps.refl s with }
  own := hown

lemma getElem?_modifyEntry (s : WireState cfg) (e i : Nat)
    (f : RegistrationEntry → RegistrationEntry) :
    (s.modifyEntry e f).cells[i]? =
      if e = i then s.cells[i]?.map fun cell => { cell with entry := f cell.entry } else s.cells[i]? := by
  rw [modifyEntry, getElem?_modify]
  split <;> simp

lemma step_modifyEntry (hs : s.Valid) {f : RegistrationEntry → RegistrationEntry}
    (hf : ∀ entry : RegistrationEntry, entry.Grows (f entry)) (hown : own ⟨s, c, s.modifyEntry e f⟩) :
    (discipline cfg).Step own ⟨s, c, s.modifyEntry e f⟩ := by
  have hcells : ∀ (i : Nat) cell, s.cells[i]? = some cell → ∃ cell', (s.modifyEntry e f).cells[i]? = some cell' ∧
      cell'.id = cell.id ∧ cell.entry.Grows cell'.entry := by
    intro i cell hcell
    rw [getElem?_modifyEntry, hcell]
    split
    · exact ⟨_, rfl, rfl, hf _⟩
    · exact ⟨_, rfl, rfl, .refl _⟩
  refine ⟨⟨fun id i hi => ?_, hs.stamped⟩, stamps_of_eq rfl,
    ⟨hcells, Nat.le_refl _, fun _ _ _ h _ => .inl h⟩, hown⟩
  obtain ⟨cell, hcell, hid⟩ := hs.mapped id i hi
  obtain ⟨cell', hcell', hid', -⟩ := hcells i cell hcell
  exact ⟨cell', hcell', hid'.trans hid⟩

lemma step_newCell (hs : s.Valid) (cell : Cell)
    (hown : own ⟨s, c, { s with cells := s.cells ++ [cell] }⟩) :
    (discipline cfg).Step own ⟨s, c, { s with cells := s.cells ++ [cell] }⟩ := by
  have hcells : ∀ (i : Nat) old, s.cells[i]? = some old → (s.cells ++ [cell])[i]? = some old :=
    fun i old hold => by
      rw [getElem?_append_left (List.getElem?_eq_some_iff.mp hold).1, hold]
  refine ⟨⟨fun id i hi => ?_, hs.stamped⟩, stamps_of_eq rfl,
    ⟨fun i old hold => ⟨old, hcells i old hold, rfl, .refl _⟩, Nat.le_refl _, fun _ _ _ h _ => .inl h⟩,
    hown⟩
  obtain ⟨old, hold, hid⟩ := hs.mapped id i hi
  exact ⟨old, hcells i old hold, hid⟩

/-- An approval that is recorded with the stamp of the policy, or without any. -/
theorem step_recordAuth (hs : s.Valid) (pair : SshCheckPair) {record : SshAuthRecord}
    (hstamp : ∀ stamp, record.policyStamp = some stamp →
      stamp = s.sshPolicyStamp ∧ record.recordedAt = c.now)
    (hown : own ⟨s, c, s.recordAuth pair record⟩) :
    (discipline cfg).Step own ⟨s, c, s.recordAuth pair record⟩ := by
  have hcases : ∀ other found, (s.recordAuth pair record).lastSshAuth other = some found →
      s.lastSshAuth other = some found ∨ found = record := by
    intro other found hfound
    simp only [recordAuth] at hfound
    split at hfound
    · exact .inr (Option.some.inj hfound).symm
    · exact .inl hfound
  refine ⟨⟨hs.mapped, fun other found stamp hfound hstamped => ?_⟩,
    fun other found stamp hfound hnew hstamped => ?_,
    ⟨(WireState.Keeps.refl s).cells, Nat.le_refl _, fun other found stamp hfound hstamped => ?_⟩, hown⟩
  · obtain hold | rfl := hcases other found hfound
    · exact hs.stamped other found stamp hold hstamped
    · exact (hstamp stamp hstamped).1 ▸ Nat.le_refl _
  · obtain hold | rfl := hcases other found hfound
    · exact absurd hold hnew
    · exact hstamp stamp hstamped
  · obtain hold | rfl := hcases other found hfound
    · exact .inl hold
    · exact .inr ((hstamp stamp hstamped).1 ▸ Nat.le_refl _)

/-- A change of the policy after which no stamp is used again. -/
theorem step_policy (hs : s.Valid) {policy : PolicyState cfg}
    (hepoch : s.policy.sshAuthEpoch ≤ policy.sshAuthEpoch) (hown : own ⟨s, c, { s with policy := policy }⟩) :
    (discipline cfg).Step own ⟨s, c, { s with policy := policy }⟩ where
  inv := ⟨hs.mapped, fun pair record stamp hrecord hstamp =>
    Nat.le_trans (hs.stamped pair record stamp hrecord hstamp) hepoch⟩
  each := stamps_of_eq rfl
  keeps := ⟨(WireState.Keeps.refl s).cells, hepoch, fun _ _ _ h _ => .inl h⟩
  own := hown

lemma step_clearSshAuth (hs : s.Valid) (hown : own ⟨s, c, { s with lastSshAuth := fun _ => none }⟩) :
    (discipline cfg).Step own ⟨s, c, { s with lastSshAuth := fun _ => none }⟩ where
  inv := ⟨hs.mapped, fun _ _ _ h _ => by cases h⟩
  each := fun _ _ _ h _ _ => by cases h
  keeps := ⟨(WireState.Keeps.refl s).cells, Nat.le_refl _, fun _ _ _ h _ => by cases h⟩
  own := hown

end Steps

/-! ## Conditions -/

/-- The entry was made for the id. -/
def Made (e : Nat) (id : String) (s : WireState cfg) : Prop :=
  ∃ cell, s.cells[e]? = some cell ∧ cell.id = id

def HasOutcome (e : Nat) (verdict : RegistrationOutcome) (s : WireState cfg) : Prop :=
  (s.entry e).bind (·.outcome) = some verdict

def Bound (e : Nat) (binding : SshCheckBinding) (s : WireState cfg) : Prop :=
  (s.entry e).bind (·.sshBinding) = some binding

lemma lasting_made (e : Nat) (id : String) :
    (discipline cfg).Lasting fun _ s => Made e id s := by
  refine .of_state fun s s' hs ⟨cell, hcell, hid⟩ => ?_
  obtain ⟨cell', hcell', hid', -⟩ := hs.cells e cell hcell
  exact ⟨cell', hcell', hid'.trans hid⟩

lemma WireState.entry_eq_some {entry : RegistrationEntry} :
    s.entry e = some entry ↔ ∃ cell, s.cells[e]? = some cell ∧ cell.entry = entry := by
  rw [WireState.entry, map_eq_some_iff]

lemma keeps_entry (hs : s.Keeps s') {entry : RegistrationEntry} (h : s.entry e = some entry) :
    ∃ entry', s'.entry e = some entry' ∧ entry.Grows entry' := by
  obtain ⟨cell, hcell, rfl⟩ := entry_eq_some.mp h
  obtain ⟨cell', hcell', -, hgrows⟩ := hs.cells e cell hcell
  exact ⟨cell'.entry, entry_eq_some.mpr ⟨cell', hcell', rfl⟩, hgrows⟩

lemma keeps_outcome {verdict : RegistrationOutcome} (hs : s.Keeps s') (h : HasOutcome e verdict s) :
    HasOutcome e verdict s' := by
  obtain ⟨entry, hentry, hverdict⟩ := bind_eq_some_iff.mp h
  obtain ⟨entry', hentry', hgrows⟩ := keeps_entry hs hentry
  exact bind_eq_some_iff.mpr ⟨entry', hentry', hgrows.outcome verdict hverdict⟩

lemma lasting_bound (e : Nat) (binding : SshCheckBinding) :
    (discipline cfg).Lasting fun _ s => Bound e binding s := by
  refine .of_state fun s s' hs h => ?_
  obtain ⟨entry, hentry, hbinding⟩ := bind_eq_some_iff.mp h
  obtain ⟨entry', hentry', hgrows⟩ := keeps_entry hs hentry
  exact bind_eq_some_iff.mpr ⟨entry', hentry', hgrows.sshBinding.trans hbinding⟩

/-- The step takes the entry out of the map. -/
def Removes (e : Nat) (step : CallStep cfg) : Prop :=
  (∃ id : String, step.before.inner[id]? = some e) ∧ ∀ id : String, step.after.inner[id]? ≠ some e

/-- All entries that the call took out of the map have their verdict, but for some that it still holds. -/
def Owes (owed : List Nat) : Condition cfg := fun hist s =>
  ∀ step ∈ hist, ∀ e, Removes e step →
    (∃ verdict, HasOutcome e verdict s) ∨ e ∈ owed ∧ ∃ id, Made e id s

lemma stable_owes (owed : List Nat) : (discipline cfg).Stable (Owes owed) := by
  intro hist s s' hs h step hstep e hremoves
  obtain ⟨verdict, hverdict⟩ | ⟨howed, id, hmade⟩ := h step hstep e hremoves
  · exact .inl ⟨verdict, keeps_outcome hs hverdict⟩
  · exact .inr ⟨howed, id, (lasting_made e id).stable hist s s' hs hmade⟩

/-- A step owes what it takes out of the map. -/
theorem Owes.step {owed owed' : List Nat} {hist : History (WireState cfg) (Choice cfg)}
    (h : Owes owed hist s) (hinv : s.Valid) (hs : s.Keeps s')
    (hsub : ∀ e ∈ owed, e ∈ owed' ∨ ∃ verdict, HasOutcome e verdict s')
    (hremoved : ∀ e, Removes e ⟨s, c, s'⟩ → e ∈ owed') : Owes owed' (⟨s, c, s'⟩ :: hist) s' := by
  intro step hstep e hremoves
  obtain rfl | hstep := mem_cons.mp hstep
  · obtain ⟨id, hid⟩ := hremoves.1
    refine .inr ⟨hremoved e hremoves, id, ?_⟩
    exact (lasting_made e id).stable hist s s' hs (hinv.mapped id e hid)
  · obtain hverdict | ⟨howed, hmade⟩ := stable_owes owed hist s s' hs h step hstep e hremoves
    · exact .inl hverdict
    · exact (hsub e howed).elim (fun howed' => .inr ⟨howed', hmade⟩) .inl

/-- The step leaves every other entry as it is, and in the map. -/
def OnlyEntry (e : Nat) (step : CallStep cfg) : Prop :=
  ∀ i, i ≠ e → step.after.cells[i]? = step.before.cells[i]? ∧
    ∀ id : String, step.before.inner[id]? = some i → step.after.inner[id]? = some i

lemma onlyEntry_erase {id : String} (h : s.inner[id]? = some e) :
    OnlyEntry e ⟨s, c, { s with inner := s.inner.erase id }⟩ := by
  intro i hi
  refine ⟨rfl, fun id' hid' => ?_⟩
  simp only [ExtTreeMap.getElem?_erase]
  split
  · next heq =>
    obtain rfl := Std.compare_eq_iff_eq.mp heq
    exact absurd (Option.some.inj (hid'.symm.trans h)) hi
  · exact hid'

/-- Only the entry under the id is taken out. -/
theorem Removes.eq_of_erase {id : String} (h : s.inner[id]? = some e) {i : Nat}
    (hremoves : Removes i ⟨s, c, { s with inner := s.inner.erase id }⟩) : i = e := by
  by_contra hne
  obtain ⟨⟨id', hid'⟩, hgone⟩ := hremoves
  exact hgone id' ((onlyEntry_erase (c := c) h i hne).2 id' hid')

lemma not_removes_of_inner (h : s'.inner = s.inner) : ¬ Removes e ⟨s, c, s'⟩ :=
  fun ⟨⟨id, hid⟩, hgone⟩ => hgone id ((congrArg (·[id]?) h).trans hid)

/-- The step consumes the verdict of the entry. -/
def Consumes (e : Nat) (step : CallStep cfg) : Prop :=
  ¬ (step.before.entry e).any (·.sshVerdictConsumed) = true ∧
    (step.after.entry e).any (·.sshVerdictConsumed) = true

/-! ## Calls -/

section Calls

variable {own : CallStep cfg → Prop} {owed : List Nat} {α β : Type}
  {pre mid pre' : Condition cfg} {result : α → Condition cfg}

/-- The call owes nothing when it returns. -/
def Returns (own : CallStep cfg → Prop) (pre : Condition cfg)
    (p : Call cfg α) (result : α → Condition cfg) : Prop :=
  Triple (discipline cfg) own (fun hist s => Owes [] hist s ∧ pre hist s) p
    fun a hist s => Owes [] hist s ∧ result a hist s

namespace Returns

lemma pure {a : α} (h : ∀ hist s, pre hist s → result a hist s) :
    Returns own pre (pure a : Call cfg α) result :=
  Triple.pure fun hist s hs => ⟨hs.1, h hist s hs.2⟩

variable {p : Call cfg α} {f : Choice cfg → WireState cfg → α × WireState cfg}
  {result' : β → Condition cfg}

lemma bind {f : α → Call cfg β} (hp : Returns own pre p result)
    (hf : ∀ a, Returns own (result a) (f a) result') : Returns own pre (p >>= f) result' :=
  Triple.bind hp hf

lemma frame {P : Condition cfg} (hP : (discipline cfg).Lasting P) (h : Returns own pre p result) :
    Returns own (fun hist s => pre hist s ∧ P hist s) p fun a hist s => result a hist s ∧ P hist s :=
  (Triple.frame hP h).consequence (fun _ _ hs => ⟨⟨hs.1, hs.2.1⟩, hs.2.2⟩)
    fun _ _ _ hs => ⟨hs.1.1, hs.1.2, hs.2⟩

lemma consequence {result' : α → Condition cfg} (hpre : ∀ hist s, pre hist s → pre' hist s)
    (hresult : ∀ a hist s, result' a hist s → result a hist s) (h : Returns own pre' p result') :
    Returns own pre p result :=
  Triple.consequence (fun hist s hs => ⟨hs.1, hpre hist s hs.2⟩)
    (fun a hist s hs => ⟨hs.1, hresult a hist s hs.2⟩) h

/-- A section that leaves the map as it is. -/
theorem run (hpre : (discipline cfg).Stable pre) (hinner : ∀ c s, (f c s).2.inner = s.inner)
    (hstep : ∀ c s, s.Valid → (discipline cfg).Step own ⟨s, c, (f c s).2⟩)
    (hresult : ∀ hist c s, s.Valid → pre hist s →
      result (f c s).1 (⟨s, c, (f c s).2⟩ :: hist) (f c s).2) : Returns own pre (.run f) result := by
  refine Triple.run ((stable_owes []).and hpre) fun hist s c hinv ⟨howes, hs⟩ => ?_
  have hkept := hstep c s hinv
  refine ⟨hkept, howes.step hinv hkept.keeps (fun _ h => .inl h) fun e hremoves => ?_,
    hresult hist c s hinv hs⟩
  exact absurd hremoves (not_removes_of_inner (hinner c s))

lemma read {f : Choice cfg → WireState cfg → α} (hpre : (discipline cfg).Stable pre)
    (hown : ∀ c s, own ⟨s, c, s⟩)
    (hresult : ∀ hist c s, s.Valid → pre hist s → result (f c s) (⟨s, c, s⟩ :: hist) s) :
    Returns own pre (.read f) result :=
  run hpre (fun _ _ => rfl) (fun c s hs => step_refl hs (hown c s)) hresult

/-- A section that takes entries out of the map, which are then given their verdict. -/
theorem takeOut {p : α → Call cfg β} (taken : α → List Nat) (hpre : (discipline cfg).Stable pre)
    (hstep : ∀ hist c s, s.Valid → pre hist s → (discipline cfg).Step own ⟨s, c, (f c s).2⟩)
    (htaken : ∀ c s e, Removes e ⟨s, c, (f c s).2⟩ → e ∈ taken (f c s).1)
    (hp : ∀ a, Triple (discipline cfg) own (Owes (taken a)) (p a) fun b hist s =>
      Owes [] hist s ∧ result' b hist s) : Returns own pre (.run f >>= p) result' := by
  have hrun : Triple (discipline cfg) own (fun hist s => Owes [] hist s ∧ pre hist s) (.run f)
      fun a => Owes (taken a) := by
    refine Triple.run ((stable_owes []).and hpre) fun hist s c hinv ⟨howes, hs⟩ => ?_
    have hkept := hstep hist c s hinv hs
    refine ⟨hkept, howes.step hinv hkept.keeps (fun _ h => absurd h not_mem_nil) ?_⟩
    exact htaken c s
  exact Triple.bind hrun hp

end Returns

/-- A call that may do any step, in any state. -/
abbrev Gives (p : Call cfg α) (result : α → Condition cfg) : Prop :=
  Returns (fun _ => True) (fun _ _ => True) p result

/-- A call of which no more is said than that it pays. -/
abbrev Pays (p : Call cfg α) : Prop := Gives p fun _ _ _ => True

variable {p : Call cfg α}

lemma Returns.pays (h : Gives p result) : Pays p :=
  h.consequence (fun _ _ h => h) fun _ _ _ _ => trivial

lemma Returns.forget (h : Returns own (fun _ _ => True) p result) : Returns own pre p result :=
  h.consequence (fun _ _ _ => trivial) fun _ _ _ h => h

lemma Pays.pure (a : α) : Pays (pure a : Call cfg α) := Returns.pure fun _ _ h => h

lemma Pays.read (f : Choice cfg → WireState cfg → α) : Pays (.read f : Call cfg α) :=
  Returns.read (fun _ _ _ _ h => h) (fun _ _ => trivial) fun _ _ _ _ h => h

lemma Pays.bind {f : α → Call cfg β} (hp : Pays p) (hf : ∀ a, Pays (f a)) : Pays (p >>= f) :=
  Returns.bind hp hf

/-! ## Entries -/

variable {verdict : RegistrationOutcome}

lemma settle_pays (hown : ∀ c s, own ⟨s, c, s.modifyEntry e (·.settle verdict)⟩) :
    Triple (discipline cfg) own (Owes (e :: owed)) (settle e verdict) fun _ => Owes owed := by
  refine Triple.run (stable_owes _) fun hist s c hinv howes => ?_
  have hstep := step_modifyEntry hinv (fun entry => entry.grows_settle verdict) (hown c s)
  refine ⟨hstep, fun step hmem i hremoves => ?_⟩
  obtain rfl | hmem := mem_cons.mp hmem
  · exact absurd hremoves (not_removes_of_inner rfl)
  obtain ⟨old, hold⟩ | ⟨hmem, id, cell, hcell, hid⟩ := howes step hmem i hremoves
  · exact .inl ⟨old, keeps_outcome hstep.keeps hold⟩
  by_cases hi : e = i
  · -- whether it had a verdict or not, it has one now
    left
    rw [← hi] at hcell ⊢
    have hentry : (s.modifyEntry e (·.settle verdict)).entry e = some (cell.entry.settle verdict) := by
      rw [entry, getElem?_modifyEntry, if_pos rfl, hcell]
      rfl
    cases hold : cell.entry.outcome with
    | none =>
      exact ⟨verdict, bind_eq_some_iff.mpr ⟨_, hentry, by simp [RegistrationEntry.settle, hold]⟩⟩
    | some old =>
      exact ⟨old, bind_eq_some_iff.mpr ⟨_, hentry, by simp [RegistrationEntry.settle, hold]⟩⟩
  · refine .inr ⟨(mem_cons.mp hmem).resolve_left fun h => hi h.symm, id, cell, ?_, hid⟩
    have hsame := getElem?_modifyEntry s e i (·.settle verdict)
    rw [if_neg hi, hcell] at hsame
    exact hsame

lemma expireAll_pays (entries : List Nat) :
    Triple (discipline cfg) (fun _ => True) (Owes entries) (entries.forM expire) fun _ => Owes [] :=
  .forM (fun _ _ => settle_pays fun _ _ => trivial) entries

lemma returns_settle (hown : ∀ c s, own ⟨s, c, s.modifyEntry e (·.settle verdict)⟩) :
    Returns own (fun _ _ => True) (settle e verdict : Call cfg Unit) fun _ _ _ => True :=
  .run (fun _ _ _ _ h => h) (fun _ _ => rfl)
    (fun c s hs => step_modifyEntry hs (fun entry => entry.grows_settle verdict) (hown c s))
    fun _ _ _ _ h => h

lemma pays_nextAccess : Pays (nextAccess : Call cfg Nat) := by
  refine Returns.run (fun _ _ _ _ h => h) (fun _ _ => rfl) (fun _ s hs => ?_) fun _ _ _ _ h => h
  exact ⟨⟨hs.mapped, hs.stamped⟩, stamps_of_eq rfl, { WireState.Keeps.refl s with }, trivial⟩

lemma pays_touch (e lastUsed : Nat) : Pays (touch e lastUsed : Call cfg Unit) :=
  Returns.run (fun _ _ _ _ h => h) (fun _ _ => rfl)
    (fun _ _ hs => step_modifyEntry hs (fun entry => entry.grows_touch lastUsed) trivial)
    fun _ _ _ _ h => h

lemma returns_outcome :
    Gives (outcome e : Call cfg (Option RegistrationOutcome))
      fun verdict _ s => ∀ v, verdict = some v → HasOutcome e v s :=
  .read (fun _ _ _ _ h => h) (fun _ _ => trivial) fun _ _ _ _ _ _ h => h

/-- A call that finds the verdict unconsumed has consumed it. -/
theorem returns_swapConsumed {id : String} {P : WireState cfg → Prop}
    (hP : (discipline cfg).Lasting fun _ s => P s) :
    Returns (fun _ => True) (fun _ s => Made e id s ∧ P s) (swapConsumed e : Call cfg Bool)
      fun consumed hist _ => consumed = false → ∃ step ∈ hist, Consumes e step ∧ P step.before := by
  refine .run ((lasting_made e id).and hP).stable (fun _ _ => rfl) (fun _ _ hs => ?_)
    fun hist c s hinv ⟨⟨cell, hcell, _⟩, hs⟩ hunused => ?_
  · exact step_modifyEntry hs (fun entry => entry.grows_consumed) trivial
  · refine ⟨_, mem_cons_self, ⟨by simpa using hunused, ?_⟩, hs⟩
    simp [entry, getElem?_modifyEntry, hcell]

/-! ## The map -/

lemma pays_pruneExpired : Pays (pruneExpired : Call cfg Nat) := by
  refine Returns.takeOut (fun expired => expired) (fun _ _ _ _ h => h) (fun _ c s hinv _ => ?_)
    (fun c s e hremoves => ?_) fun expired => ?_
  · refine step_inner hinv (fun id e he => .inl ?_) trivial
    rw [getElem?_foldl_erase] at he
    split at he
    · cases he
    · exact he
  · obtain ⟨⟨id, hid⟩, hgone⟩ := hremoves
    have hdropped := hgone id
    simp only [getElem?_foldl_erase] at hdropped
    split at hdropped
    · next hmem =>
      obtain ⟨⟨id', e'⟩, hentry, rfl⟩ := List.mem_map.mp hmem
      have hin := ExtTreeMap.mem_toList_iff_getElem?_eq_some.mp (mem_filter.mp hentry).1
      cases hid.symm.trans hin
      exact List.mem_map.mpr ⟨_, hentry, rfl⟩
    · exact absurd hid hdropped
  · exact .bind (expireAll_pays expired) fun _ => .pure fun _ _ h => ⟨h, trivial⟩

variable (rounds : Nat) (id : String)

lemma returns_getEntry :
    Gives (getEntry id : Call cfg (Option Nat))
      fun found _ s => ∀ e, found = some e → Made e id s := by
  have hread : Gives (.read fun _ s => s.inner[id]? : Call cfg (Option Nat))
      fun found _ s => ∀ e, found = some e → Made e id s :=
    .read (fun _ _ _ _ h => h) (fun _ _ => trivial) fun _ _ _ hs _ e he => hs.mapped id e he
  refine .bind pays_pruneExpired fun _ => .bind hread fun found => ?_
  cases found with
  | none => exact .pure fun _ _ h => h
  | some e =>
    have htouch : Gives (do touch e (← nextAccess); return some e : Call cfg (Option Nat)) fun found _ _ => found = some e :=
      .bind pays_nextAccess fun used => .bind (pays_touch e used) fun _ => .pure fun _ _ _ => rfl
    refine (htouch.frame (lasting_made e id)).consequence (fun _ _ h => ⟨trivial, h e rfl⟩) ?_
    rintro found _ s ⟨rfl, hmade⟩ e' he'
    exact Option.some.inj he' ▸ hmade

lemma returns_expireIfCurrent (hrefl : ∀ c s, own ⟨s, c, s⟩)
    (hremove : ∀ c s, s.inner[id]? = some e → own ⟨s, c, { s with inner := s.inner.erase id }⟩)
    (hexpire : ∀ c s, own ⟨s, c, s.modifyEntry e (·.settle .expired)⟩) :
    Returns own (fun _ _ => True) (expireIfCurrent id e : Call cfg Bool) fun _ _ _ => True := by
  refine .takeOut (fun removed => if removed then [e] else []) (fun _ _ _ _ h => h)
    (fun _ c s hinv _ => ?_) (fun c s i hremoves => ?_) fun removed => ?_
  · split
    · next hcurrent =>
      exact step_inner hinv (fun id' i hi => .inl (getElem?_of_erase hi).2) (hremove c s hcurrent)
    · exact step_refl hinv (hrefl c s)
  · split at hremoves
    · next hcurrent =>
      rw [if_pos hcurrent]
      exact mem_singleton.mpr (hremoves.eq_of_erase hcurrent)
    · exact absurd hremoves (not_removes_of_inner rfl)
  · cases removed with
    | true => exact .bind (settle_pays hexpire) fun _ => .pure fun _ _ h => ⟨h, trivial⟩
    | false => exact .pure fun _ _ h => ⟨h, trivial⟩

lemma returns_insertEntry (e : Nat) :
    Returns (fun _ => True) (fun _ s => Made e id s) (insertEntry id e : Call cfg Unit)
      fun _ _ _ => True := by
  refine .takeOut (fun expired => expired) (lasting_made e id).stable (fun _ c s hinv hmade => ?_)
    (fun c s i hremoves => ?_) fun expired => ?_
  · refine step_inner hinv (fun id' i hi => ?_) trivial
    rw [getElem?_foldl_erase] at hi
    split at hi
    · cases hi
    · obtain ⟨rfl, rfl⟩ | ⟨-, hi⟩ := getElem?_of_insert hi
      · exact .inr hmade
      · exact .inl hi
  · obtain ⟨⟨id', hid'⟩, hgone⟩ := hremoves
    have hdropped := hgone id'
    simp only [insertSection, getElem?_foldl_erase] at hdropped ⊢
    refine mem_append.mpr ?_
    split at hdropped
    · next hmem => exact .inr (mem_filterMap.mpr ⟨id', hmem, hid'⟩)
    rw [ExtTreeMap.getElem?_insert] at hdropped
    split at hdropped
    · next heq =>
      obtain rfl := Std.compare_eq_iff_eq.mp heq
      exact .inl (mem_toList.mpr hid')
    · exact absurd hid' hdropped
  · exact (expireAll_pays expired).consequence (fun _ _ h => h) fun _ _ _ h => ⟨h, trivial⟩

lemma returns_newCell (entry : RegistrationEntry) :
    Gives (newCell id entry : Call cfg Nat)
      fun e _ s => Made e id s := by
  refine .run (fun _ _ _ _ h => h) (fun _ _ => rfl) (fun _ s hs => step_newCell hs _ trivial) ?_
  intro hist c s hinv _
  exact ⟨_, getElem?_concat_length, rfl⟩

lemma pays_insert (entry : Nat → RegistrationEntry) :
    Pays (do
      let _ ← pruneExpired
      let used ← nextAccess
      let e ← newCell id (entry used)
      insertEntry id e : Call cfg Unit) :=
  pays_pruneExpired.bind fun _ => pays_nextAccess.bind fun used =>
    Returns.bind (returns_newCell id (entry used)) fun e => returns_insertEntry id e

/-- An entry that was taken out, and the verdict it is then given. -/
theorem pays_takeRegistration {p : Option Nat → Call cfg α} (hnone : Pays (p none))
    (hsome : ∀ e, Triple (discipline cfg) (fun _ => True) (Owes [e]) (p (some e)) fun _ => Owes []) :
    Pays (takeRegistration id >>= p) := by
  refine Returns.takeOut Option.toList (fun _ _ _ _ h => h) (fun _ c s hinv _ => ?_)
    (fun c s e hremoves => ?_) fun taken => ?_
  · split
    · split
      · exact step_inner hinv (fun id' i hi => .inl (getElem?_of_erase hi).2) trivial
      · exact step_refl hinv trivial
    · exact step_refl hinv trivial
  · split at hremoves
    · next current hcurrent =>
      split at hremoves
      · next hrecord =>
        simp only [hrecord]
        exact mem_singleton.mpr (hremoves.eq_of_erase hcurrent)
      · exact absurd hremoves (not_removes_of_inner rfl)
    · exact absurd hremoves (not_removes_of_inner rfl)
  · cases taken with
    | none => exact Triple.consequence (fun _ _ h => ⟨h, trivial⟩) (fun _ _ _ h => h) hnone
    | some e => exact (hsome e).consequence (fun _ _ h => h) fun _ _ _ h => ⟨h, trivial⟩

/-! ## Verdicts and waiters -/

lemma pays_settleById (verdict : RegistrationOutcome) :
    Pays (settleById id verdict : Call cfg Bool) := by
  refine (returns_getEntry id).pays.bind fun found => ?_
  cases found with
  | none => exact .pure _
  | some e => exact Pays.bind (returns_settle fun _ _ => trivial) fun _ => .pure _

lemma pays_remove : Pays (remove id : Call cfg (Option MachineRecord)) := by
  refine pays_takeRegistration id (.pure _) fun e => .bind (settle_pays fun _ _ => trivial) fun _ => ?_
  exact Triple.consequence (fun _ _ h => ⟨h, trivial⟩) (fun _ _ _ h => h.1) (Pays.read _)

lemma pays_complete (registered : MachineRecord) :
    Pays (complete id registered : Call cfg Bool) :=
  pays_takeRegistration id (.pure _) fun _ => .bind (settle_pays fun _ _ => trivial) fun _ =>
    .pure fun _ _ h => h

lemma pays_pendingRegistrationCompletion :
    Pays (pendingRegistrationCompletion id : Call cfg (Option RegistrationCompletion)) := by
  refine (returns_getEntry id).pays.bind fun found => ?_
  cases found with
  | none => exact .pure _
  | some e =>
    refine returns_outcome.pays.bind fun verdict => ?_
    cases verdict with
    | some verdict => exact .pure _
    | none =>
      refine (Pays.read _).bind fun hasRecord => ?_
      cases hasRecord with
      | true | false => exact .pure _

/-- By induction on the rounds. -/
theorem returns_awaitOutcome (e rounds : Nat) :
    Gives (awaitOutcome id e rounds : Call cfg (Option RegistrationOutcome))
      fun verdict _ s => ∀ v, verdict = some v → HasOutcome e v s := by
  induction rounds with
  | zero => exact .pure fun _ _ _ v hv => by cases hv
  | succ rounds ih =>
    refine .bind returns_outcome fun verdict => ?_
    cases verdict with
    | some verdict => exact .pure fun _ _ h => h
    | none =>
      refine Returns.forget (.bind (Pays.read _) fun expired => ?_)
      cases expired with
      | true =>
        exact .bind (returns_expireIfCurrent id (fun _ _ => trivial) (fun _ _ _ => trivial)
          fun _ _ => trivial) fun _ => ih
      | false => exact ih

lemma pays_waitForRegistration :
    Pays (waitForRegistration rounds id : Call cfg (Waited RegistrationWaitOutcome)) := by
  refine (returns_getEntry id).pays.bind fun found => ?_
  cases found with
  | none => exact .pure _
  | some e => exact (returns_awaitOutcome id e rounds).pays.bind fun _ => .pure _

/-- A waiter that returns a verdict has consumed it, and the entry was made for the id. -/
def Consumed (id : String) (waited : Waited AuthWaitOutcome) : Condition cfg := fun hist s =>
  ∀ result, waited.result = some result → result ≠ .missing →
    ∃ e, waited.entry = some e ∧ Made e id s ∧ ∃ step ∈ hist, Consumes e step ∧
      ∃ verdict, HasOutcome e verdict step.before ∧ AuthWaitOutcome.ofOutcome verdict = result

lemma returns_waitForSshAuth :
    Gives (waitForSshAuth rounds id : Call cfg (Waited AuthWaitOutcome)) (Consumed id) := by
  refine .bind (returns_getEntry id) fun found => ?_
  cases found with
  | none => exact .pure fun _ _ _ result hresult hfound => absurd (Option.some.inj hresult).symm hfound
  | some e =>
    have hwait : Returns (fun _ => True) (fun _ s => ∀ i, some e = some i → Made i id s)
        (awaitOutcome id e rounds : Call cfg (Option RegistrationOutcome)) fun verdict _ s =>
        (∀ v, verdict = some v → HasOutcome e v s) ∧ Made e id s :=
      ((returns_awaitOutcome id e rounds).frame (lasting_made e id)).consequence
        (fun _ _ h => ⟨trivial, h e rfl⟩) fun _ _ _ h => h
    refine .bind hwait fun verdict => ?_
    cases verdict with
    | none => exact .pure fun _ _ _ result hresult => by cases hresult
    | some verdict =>
      have hswap : Returns (fun _ => True)
          (fun _ s => (∀ v, some verdict = some v → HasOutcome e v s) ∧ Made e id s)
          (swapConsumed e : Call cfg Bool) fun consumed hist s => (consumed = false →
            ∃ step ∈ hist, Consumes e step ∧ HasOutcome e verdict step.before) ∧ Made e id s :=
        ((returns_swapConsumed (.of_state fun _ _ => keeps_outcome)).frame (lasting_made e id)).consequence
          (fun _ _ h => ⟨⟨h.2, h.1 verdict rfl⟩, h.2⟩) fun _ _ _ h => h
      refine .bind hswap fun consumed => ?_
      cases consumed with
      | true =>
        refine .pure fun _ _ _ result hresult hfound => ?_
        exact absurd (Option.some.inj hresult).symm hfound
      | false =>
        refine .pure fun hist s ⟨hconsumed, hmade⟩ result hresult _ => ?_
        obtain ⟨step, hstep, hconsumes, hverdict⟩ := hconsumed rfl
        exact ⟨e, rfl, hmade, step, hstep, hconsumes, verdict, hverdict, Option.some.inj hresult⟩

lemma pays_waitForAuth : Pays (waitForAuth rounds id : Call cfg (Waited AuthWaitOutcome)) := by
  refine (returns_getEntry id).pays.bind fun found => ?_
  cases found with
  | none => exact .pure _
  | some e =>
    refine (returns_awaitOutcome id e rounds).pays.bind fun verdict => ?_
    cases verdict with
    | none | some => exact .pure _

/-! ## Completions -/

lemma onlyEntry_modifyEntry (f : RegistrationEntry → RegistrationEntry) (c : Choice cfg)
    (s : WireState cfg) : OnlyEntry e ⟨s, c, s.modifyEntry e f⟩ := by
  intro i hi
  refine ⟨?_, fun _ h => h⟩
  rw [getElem?_modifyEntry, if_neg hi.symm]

lemma returns_finishRegistration (completion : RegistrationCompletion) (registered : MachineRecord) :
    Returns (OnlyEntry completion.entry) (fun _ _ => True)
      (finishRegistration completion registered : Call cfg Unit) fun _ _ _ => True := by
  refine .bind (returns_settle (onlyEntry_modifyEntry _)) fun _ => ?_
  exact .bind (returns_expireIfCurrent completion.registrationId (fun _ _ _ _ => ⟨rfl, fun _ h => h⟩)
    (fun _ _ h => onlyEntry_erase h) (onlyEntry_modifyEntry _)) fun _ => .pure fun _ _ h => h

end Calls

end Headscale.Auth
