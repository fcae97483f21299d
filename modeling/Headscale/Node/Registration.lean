import Headscale.Node.Persistence

/-!
# Registering an existing node

Which stored node of a machine a registration takes over, and what becomes of that node's record and
row. A node is owned by a user or by its tags, never by both.
-/

namespace Headscale.Node

open Db List

/-! ## Selecting the node -/

/-- What the scan over the machine's nodes has found. -/
structure Candidates where
  sameOwner : Option NodeRow := none
  tagged : Option NodeRow := none
  userOwned : List NodeRow := []
deriving DecidableEq, Repr

section Selection

-- the decoding of the stored tags
variable (tryTagList : NodeRow → Except MachineAdminError (List String)) (userId : Option Int)
  (allowUnscopedOwner authKeyPath taggedRegistration : Bool)

def ambiguousOwnership : MachineAdminError :=
  .badRequest "machine key maps to ambiguous node ownership"

variable {rest rows' : List NodeRow} (row : NodeRow)

/-- The untagged row counts as owned by some user. -/
def countsAsOwned : Bool :=
  row.columns.userId.any (· ≠ 0) || (row.columns.userId.isNone && allowUnscopedOwner)

def hasOwner : Bool :=
  row.columns.userId = userId && (userId.isSome || allowUnscopedOwner)

/-- `Option::replace` where a value that is replaced is an error. -/
def replaceOnce (slot : Option NodeRow) (row : NodeRow) : Except MachineAdminError (Option NodeRow) :=
  if slot.isSome then .error ambiguousOwnership else .ok (some row)

def scanRow (found : Candidates) (row : NodeRow) : Except MachineAdminError Candidates := do
  let tags ← tryTagList row
  if tags.isEmpty then
    let userOwned := found.userOwned ++ if countsAsOwned allowUnscopedOwner row then [row] else []
    let sameOwner ←
      if hasOwner userId allowUnscopedOwner row then replaceOnce found.sameOwner row
      else .ok found.sameOwner
    return { found with sameOwner := sameOwner, userOwned := userOwned }
  else
    let tagged ← replaceOnce found.tagged row
    return { found with tagged := tagged }

/-- The choice among what the scan has found. -/
def chooseNode (found : Candidates) : Except MachineAdminError (Option NodeRow) :=
  if !authKeyPath && found.tagged.isSome && !found.userOwned.isEmpty then .error ambiguousOwnership
  else
    match found.sameOwner.or found.tagged with
    | some node => .ok (some node)
    | none =>
      if authKeyPath && taggedRegistration && userId.isNone then
        if found.userOwned.length > 1 then .error ambiguousOwnership else .ok found.userOwned.getLast?
      else .ok none

def selectAuthPathNode (rows : List NodeRow) : Except MachineAdminError (Option NodeRow) := do
  if authKeyPath && userId.isNone && !taggedRegistration && !allowUnscopedOwner then return none
  let found ← rows.foldlM (scanRow tryTagList userId allowUnscopedOwner) {}
  chooseNode userId authKeyPath taggedRegistration found

/-! ### What the scan finds -/

/-- The stored tags, where they can be read. -/
def tagsOf : List String := (tryTagList row).toOption.getD []

/-- The scan has read all rows and found exactly these; at most one has the given owner and at most
one is tagged. -/
structure Scanned (rows : List NodeRow) (found : Candidates) : Prop where
  readable : ∀ row ∈ rows, (tryTagList row).isOk = true
  sameOwner : found.sameOwner.toList = rows.filter fun row =>
    (tagsOf tryTagList row).isEmpty && hasOwner userId allowUnscopedOwner row
  tagged : found.tagged.toList = rows.filter fun row => !(tagsOf tryTagList row).isEmpty
  userOwned : found.userOwned = rows.filter fun row =>
    (tagsOf tryTagList row).isEmpty && countsAsOwned allowUnscopedOwner row

variable {tryTagList userId allowUnscopedOwner authKeyPath taggedRegistration}
variable {rows : List NodeRow} {found found' : Candidates}

lemma replaceOnce_iff {slot slot' : Option NodeRow} {row : NodeRow} :
    replaceOnce slot row = .ok slot' ↔ slot'.toList = slot.toList ++ [row] := by
  cases slot with
  | none =>
    cases slot' with
    | none => simp [replaceOnce]
    | some other => simpa [replaceOnce] using eq_comm
  | some row' => cases slot' <;> simp [replaceOnce]

lemma scanRow_iff (h : Scanned tryTagList userId allowUnscopedOwner rows found) (row : NodeRow) :
    scanRow tryTagList userId allowUnscopedOwner found row = .ok found' ↔
      Scanned tryTagList userId allowUnscopedOwner (rows ++ [row]) found' := by
  cases htags : tryTagList row with
  | error error =>
    constructor
    · intro h
      simp [scanRow, htags, bind, Except.bind] at h
    · intro h
      have hread := h.readable row (by simp)
      rw [htags] at hread
      cases hread
  | ok tags =>
    have hof : tagsOf tryTagList row = tags := by simp [tagsOf, htags, Except.toOption]
    have hread : ∀ other ∈ rows ++ [row], (tryTagList other).isOk = true := by
      intro other hother
      obtain hother | hother := mem_append.mp hother
      · exact h.readable other hother
      · rw [mem_singleton.mp hother, htags]
        rfl
    have hfilter : ∀ p : NodeRow → Bool,
        (rows ++ [row]).filter p = rows.filter p ++ if p row then [row] else [] := by
      intro p
      by_cases hp : p row = true <;> simp [hp]
    -- the three accumulators grow by the row or by nothing
    have hgrow : Scanned tryTagList userId allowUnscopedOwner (rows ++ [row]) found' ↔
        found'.sameOwner.toList = found.sameOwner.toList ++
            (if tags.isEmpty && hasOwner userId allowUnscopedOwner row then [row] else []) ∧
          found'.tagged.toList = found.tagged.toList ++ (if !tags.isEmpty then [row] else []) ∧
          found'.userOwned = found.userOwned ++
            (if tags.isEmpty && countsAsOwned allowUnscopedOwner row then [row] else []) := by
      rw [h.sameOwner, h.tagged, h.userOwned, ← hof]
      constructor
      · intro h
        exact ⟨h.sameOwner.trans (hfilter _), h.tagged.trans (hfilter _), h.userOwned.trans (hfilter _)⟩
      · rintro ⟨hsame, htagged, howned⟩
        exact ⟨hread, hsame.trans (hfilter _).symm, htagged.trans (hfilter _).symm,
          howned.trans (hfilter _).symm⟩
    rw [hgrow, scanRow, htags]
    obtain ⟨sameOwner, tagged, userOwned⟩ := found
    obtain ⟨sameOwner', tagged', userOwned'⟩ := found'
    cases hempty : tags.isEmpty with
    | false =>
      simp only [bind, Except.bind, pure, Except.pure, hempty, Bool.false_and, Bool.not_false, if_true,
        Bool.false_eq_true, if_false, append_nil, Collection.toList_inj, ← replaceOnce_iff]
      cases replaceOnce tagged row with
      | error => simp
      | ok slot =>
        simp only [Except.ok.injEq]
        constructor <;> rintro ⟨rfl, rfl, rfl⟩ <;> simp
    | true =>
      simp only [bind, Except.bind, pure, Except.pure, hempty, Bool.true_and, Bool.not_true,
        Bool.false_eq_true, if_false, append_nil, Collection.toList_inj]
      cases hasOwner userId allowUnscopedOwner row with
      | false =>
        simp only [Bool.false_eq_true, if_false, append_nil, Collection.toList_inj]
        constructor <;> rintro ⟨rfl, rfl, rfl⟩ <;> simp
      | true =>
        simp only [if_true, ← replaceOnce_iff]
        cases replaceOnce sameOwner row with
        | error => simp
        | ok slot =>
          simp only [Except.ok.injEq]
          constructor <;> rintro ⟨rfl, rfl, rfl⟩ <;> simp

/-- What a scan of more rows has found, a scan of the first ones has found in part. -/
theorem Scanned.exists_of_append
    (h : Scanned tryTagList userId allowUnscopedOwner (rows ++ rest) found) :
    ∃ before, Scanned tryTagList userId allowUnscopedOwner rows before := by
  obtain ⟨sameOwner, hsame⟩ :=
    Collection.exists_toList_of_append (h.sameOwner.trans (filter_append ..))
  obtain ⟨tagged, htagged⟩ :=
    Collection.exists_toList_of_append (h.tagged.trans (filter_append ..))
  exact ⟨⟨sameOwner, tagged, _⟩, fun row hrow => h.readable row (mem_append_left _ hrow), hsame,
    htagged, rfl⟩

lemma foldlM_scanRow_iff (h : Scanned tryTagList userId allowUnscopedOwner rows found) :
    rest.foldlM (scanRow tryTagList userId allowUnscopedOwner) found = .ok found' ↔
      Scanned tryTagList userId allowUnscopedOwner (rows ++ rest) found' := by
  induction rest generalizing rows found with
  | nil =>
    simp only [append_nil]
    constructor
    · rintro ⟨⟩
      exact h
    · intro h'
      have hsame := Collection.toList_inj.mp (h.sameOwner.trans h'.sameOwner.symm)
      have htagged := Collection.toList_inj.mp (h.tagged.trans h'.tagged.symm)
      have howned := h.userOwned.trans h'.userOwned.symm
      cases found
      cases found'
      simp_all [pure, Except.pure]
  | cons row rest ih =>
    rw [foldlM_cons, ← singleton_append, ← append_assoc]
    cases hrow : scanRow tryTagList userId allowUnscopedOwner found row with
    | ok mid => exact ih ((scanRow_iff h row).mp hrow)
    | error error =>
      -- then no scan gets past the row
      constructor
      · nofun
      · intro h'
        obtain ⟨mid, hmid⟩ := h'.exists_of_append
        rw [(scanRow_iff h row).mpr hmid] at hrow
        cases hrow

lemma scan_iff :
    rows.foldlM (scanRow tryTagList userId allowUnscopedOwner) {} = .ok found ↔
      Scanned tryTagList userId allowUnscopedOwner rows found := by
  have hnil : Scanned tryTagList userId allowUnscopedOwner [] {} := by constructor <;> simp
  simpa using foldlM_scanRow_iff hnil

/-- The order of the rows shows only in the order of the owned ones. -/
theorem Scanned.perm (hperm : rows.Perm rows')
    (h : Scanned tryTagList userId allowUnscopedOwner rows found) :
    ∃ userOwned, userOwned.Perm found.userOwned ∧
      Scanned tryTagList userId allowUnscopedOwner rows' { found with userOwned := userOwned } := by
  refine ⟨_, ?_, fun row hrow => h.readable row (hperm.mem_iff.mpr hrow), ?_, ?_, rfl⟩
  · rw [h.userOwned]
    exact (hperm.filter _).symm
  · exact (Collection.eq_toList_of_perm (h.sameOwner ▸ hperm.filter _)).symm
  · exact (Collection.eq_toList_of_perm (h.tagged ▸ hperm.filter _)).symm

lemma chooseNode_perm {userOwned : List NodeRow} (hperm : userOwned.Perm found.userOwned) :
    (chooseNode userId authKeyPath taggedRegistration { found with userOwned := userOwned }).toOption =
      (chooseNode userId authKeyPath taggedRegistration found).toOption := by
  have hempty : userOwned.isEmpty = found.userOwned.isEmpty := by
    rw [Bool.eq_iff_iff, List.isEmpty_iff, List.isEmpty_iff]
    exact ⟨fun h => nil_perm.mp (h ▸ hperm), fun h => perm_nil.mp (h ▸ hperm)⟩
  unfold chooseNode
  simp only [hempty, hperm.length_eq]
  split
  · rfl
  split
  · rfl
  split
  · split
    · rfl
    rename_i hlength
    -- at most one row is owned, and it is the same one
    obtain ⟨a, ha⟩ := Collection.exists_toList_of_length (Nat.le_of_not_gt hlength)
    rw [← ha] at hperm ⊢
    rw [Collection.eq_toList_of_perm hperm.symm]
  · rfl

/-- The selected node does not depend on the order in which the machine's nodes are listed. -/
theorem selectAuthPathNode_perm (hperm : rows.Perm rows') :
    (selectAuthPathNode tryTagList userId allowUnscopedOwner authKeyPath taggedRegistration
      rows).toOption =
    (selectAuthPathNode tryTagList userId allowUnscopedOwner authKeyPath taggedRegistration
      rows').toOption := by
  unfold selectAuthPathNode
  split
  · rfl
  cases hscan : rows.foldlM (scanRow tryTagList userId allowUnscopedOwner) {} with
  | ok found =>
    obtain ⟨userOwned, howned, hscanned⟩ := (scan_iff.mp hscan).perm hperm
    rw [scan_iff.mpr hscanned]
    exact (chooseNode_perm howned).symm
  | error error =>
    cases hscan' : rows'.foldlM (scanRow tryTagList userId allowUnscopedOwner) {} with
    | ok found =>
      obtain ⟨_, -, hscanned⟩ := (scan_iff.mp hscan').perm hperm.symm
      rw [scan_iff.mpr hscanned] at hscan
      cases hscan
    | error error' => rfl

/-- The untagged rows with an owner other than zero. -/
def ownedRows (tryTagList : NodeRow → Except MachineAdminError (List String)) (rows : List NodeRow) :
    List NodeRow :=
  rows.filter fun row => (tagsOf tryTagList row).isEmpty && row.columns.userId.any (· ≠ 0)

/-- Where no untagged row has the given absent owner, the owned rows are those of some user. -/
theorem Scanned.ownedRows_eq (h : Scanned tryTagList none allowUnscopedOwner rows found)
    (hnone : found.sameOwner = none) : found.userOwned = ownedRows tryTagList rows := by
  rw [h.userOwned]
  refine filter_congr fun row hrow => ?_
  have hother : ((tagsOf tryTagList row).isEmpty && hasOwner none allowUnscopedOwner row) = false := by
    have hfilter := h.sameOwner
    rw [hnone, Option.toList_none, eq_comm, filter_eq_nil_iff] at hfilter
    exact Bool.eq_false_iff.mpr (hfilter row hrow)
  cases hempty : (tagsOf tryTagList row).isEmpty with
  | false => rfl
  | true =>
    rw [hempty, Bool.true_and] at hother
    cases huser : row.columns.userId with
    | none => simpa [hasOwner, countsAsOwned, huser] using hother
    | some id => simp [countsAsOwned, huser]

/-- The node a registration takes over is tagged, or has exactly the given owner, or the registration
is by auth key, tagged and without owner, and the node is the machine's only one owned by a user. -/
theorem selectAuthPathNode_some {node : NodeRow}
    (h : selectAuthPathNode tryTagList userId allowUnscopedOwner authKeyPath taggedRegistration rows =
      .ok (some node)) :
    node ∈ rows ∧
      (tagsOf tryTagList node ≠ [] ∨ node.columns.userId = userId ∨
        (authKeyPath = true ∧ taggedRegistration = true ∧ userId = none ∧
          ownedRows tryTagList rows = [node])) := by
  unfold selectAuthPathNode at h
  split at h
  · cases h
  cases hscan : rows.foldlM (scanRow tryTagList userId allowUnscopedOwner) {} with
  | error error =>
    rw [hscan] at h
    cases h
  | ok found =>
    rw [hscan] at h
    have hscanned := scan_iff.mp hscan
    change chooseNode userId authKeyPath taggedRegistration found = .ok (some node) at h
    unfold chooseNode at h
    split at h
    · cases h
    split at h
    · rename_i other hother
      cases h
      obtain hsame | ⟨-, htagged⟩ := Option.or_eq_some_iff.mp hother
      · have hmem : node ∈ found.sameOwner.toList := by simp [hsame]
        rw [hscanned.sameOwner, mem_filter] at hmem
        simp only [hasOwner, Bool.and_eq_true, decide_eq_true_eq] at hmem
        exact ⟨hmem.1, .inr (.inl hmem.2.2.1)⟩
      · have hmem : node ∈ found.tagged.toList := by simp [htagged]
        rw [hscanned.tagged, mem_filter] at hmem
        exact ⟨hmem.1, .inl (by simpa using hmem.2)⟩
    · rename_i hnone
      split at h
      · rename_i hpath
        split at h
        · cases h
        rename_i hlength
        simp only [Bool.and_eq_true, Option.isNone_iff_eq_none] at hpath
        obtain ⟨⟨hpath, htagged⟩, rfl⟩ := hpath
        have howned := hscanned.ownedRows_eq (Option.or_eq_none_iff.mp hnone).1
        have hlast := Except.ok.inj h
        obtain ⟨a, ha⟩ := Collection.exists_toList_of_length (Nat.le_of_not_gt hlength)
        have hone : found.userOwned = [node] := by
          rw [← ha] at hlast ⊢
          cases a with
          | none => cases hlast
          | some row => rw [Option.toList_some, ← Option.some.inj hlast]; rfl
        rw [howned] at hone
        refine ⟨?_, .inr (.inr ⟨hpath, htagged, rfl, hone⟩)⟩
        have hmem : node ∈ ownedRows tryTagList rows := by rw [hone]; exact mem_singleton_self _
        exact mem_of_mem_filter hmem
      · cases h

end Selection

end Headscale.Node
