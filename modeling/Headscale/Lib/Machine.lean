/-!
# Labelled transition systems

A system has initial states and labelled steps. A run may be restricted to steps of some kind; what
holds initially and is kept by every such step holds in every state the run reaches.
-/

namespace Machine

/-- A system over states `σ` with steps labelled by `α`. -/
structure System (σ α : Type) where
  init : σ → Prop
  step : σ → α → σ → Prop

variable {σ α : Type}

/-- The states reached by runs all of whose steps are allowed. -/
inductive System.ReachableBy (m : System σ α) (allowed : σ → α → σ → Prop) : σ → Prop where
  | init {s : σ} (h : m.init s) : ReachableBy m allowed s
  | step {s s' : σ} {a : α} (h : ReachableBy m allowed s) (hstep : m.step s a s')
      (hallowed : allowed s a s') : ReachableBy m allowed s'

/-- The states reached by any run. -/
abbrev System.Reachable (m : System σ α) : σ → Prop := m.ReachableBy fun _ _ _ => True

namespace System

variable {m : System σ α} {allowed : σ → α → σ → Prop}

/-- The invariant rule. -/
theorem ReachableBy.invariant {I : σ → Prop} (hinit : ∀ s, m.init s → I s)
    (hstep : ∀ s a s', I s → m.step s a s' → allowed s a s' → I s') {s : σ}
    (h : m.ReachableBy allowed s) : I s := by
  induction h with
  | init h => exact hinit _ h
  | step _ hs ha ih => exact hstep _ _ _ ih hs ha

/-- The invariant rule where an invariant that is known already may be used. -/
theorem ReachableBy.invariant_of {I J : σ → Prop} (hJ : ∀ s, m.ReachableBy allowed s → J s)
    (hinit : ∀ s, m.init s → I s)
    (hstep : ∀ s a s', J s → I s → m.step s a s' → allowed s a s' → I s') {s : σ}
    (h : m.ReachableBy allowed s) : I s := by
  induction h with
  | init h => exact hinit _ h
  | step hprev hs ha ih => exact hstep _ _ _ (hJ _ hprev) ih hs ha

/-- The same steps from a given state. -/
def startingAt (m : System σ α) (s : σ) : System σ α := { m with init := (· = s) }

/-- A run that goes on from a state it has reached. -/
theorem ReachableBy.trans {s s' : σ} (h : m.ReachableBy allowed s)
    (h' : (m.startingAt s).ReachableBy allowed s') : m.ReachableBy allowed s' := by
  induction h' with
  | init heq => exact heq ▸ h
  | step _ hs ha ih => exact .step ih hs ha

/-- A sequence of steps that a function carries out. -/
theorem ReachableBy.foldlM {apply : σ → α → Option σ} {actions : List α}
    (hsteps : ∀ a ∈ actions, ∀ s s', apply s a = some s' → m.step s a s')
    (hallowed : ∀ a ∈ actions, ∀ s s', allowed s a s') {s s' : σ} (h : m.ReachableBy allowed s)
    (hrun : actions.foldlM apply s = some s') : m.ReachableBy allowed s' := by
  induction actions generalizing s with
  | nil =>
    cases hrun
    exact h
  | cons a rest ih =>
    obtain ⟨hstep, hsteps⟩ := List.forall_mem_cons.mp hsteps
    obtain ⟨ha, hrest⟩ := List.forall_mem_cons.mp hallowed
    obtain ⟨mid, hmid, hrun⟩ := Option.bind_eq_some_iff.mp hrun
    exact ih hsteps hrest (.step h (hstep s mid hmid) (ha s mid)) hrun

end System

end Machine
