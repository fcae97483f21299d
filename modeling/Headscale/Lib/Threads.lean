import Headscale.Lib.Machine

/-!
# Threads over a shared state

A program is a sequence of atomic sections, with anything that other threads do in between. What is
proved of one program relies on what every step of every thread keeps; the conditions on the state are
therefore the ones that stay true under such steps. The steps of a thread are recorded, so that a
condition may also speak of what the thread itself has done.
-/

namespace Threads

open List

variable {σ χ α β ω ι : Type}

/-! ## Programs -/

/-- A section may read and change the shared state. What it does may depend on a choice of the
environment, such as the time of day. -/
inductive Program (σ χ α : Type) where
  | done (result : α)
  | atomic (update : χ → σ → σ) (next : χ → σ → Program σ χ α)

namespace Program

protected def bind : Program σ χ α → (α → Program σ χ β) → Program σ χ β
  | .done a, f => f a
  | .atomic update next, f => .atomic update fun c s => (next c s).bind f

instance : Monad (Program σ χ) where
  pure := .done
  bind := Program.bind

/-- One section. -/
def run (f : χ → σ → α × σ) : Program σ χ α :=
  .atomic (fun c s => (f c s).2) fun c s => .done (f c s).1

/-- A section that only reads. -/
def read (f : χ → σ → α) : Program σ χ α := run fun c s => (f c s, s)

/-- A section that only writes. -/
def write (f : χ → σ → σ) : Program σ χ Unit := run fun c s => ((), f c s)

end Program

/-! ## What holds of a program -/

/-- A section that was run. -/
structure Taken (σ χ : Type) where
  before : σ
  choice : χ
  after : σ

/-- The steps of a thread, the last one first. -/
abbrev History (σ χ : Type) := List (Taken σ χ)

/-- A condition on what a thread has done and on the current state. -/
abbrev Assertion (σ χ : Type) := History σ χ → σ → Prop

/-- What holds in every state, what every step of every thread does, and what is kept by any number of
steps. -/
structure Discipline (σ χ : Type) where
  inv : σ → Prop
  each : Taken σ χ → Prop
  keeps : σ → σ → Prop
  refl : ∀ s, keeps s s
  trans : ∀ {s t u}, keeps s t → keeps t u → keeps s u

variable {d : Discipline σ χ} {own : Taken σ χ → Prop} {pre pre' : Assertion σ χ}
  {post post' mid : α → Assertion σ χ} {hist : History σ χ} {s s' : σ}

namespace Discipline

/-- No step of another thread makes the condition false. -/
def Stable (d : Discipline σ χ) (P : Assertion σ χ) : Prop :=
  ∀ hist s s', d.keeps s s' → P hist s → P hist s'

/-- The condition is stable, and whatever the thread does next does not make it false either. -/
structure Lasting (d : Discipline σ χ) (P : Assertion σ χ) : Prop where
  stable : d.Stable P
  grows : ∀ hist s c s', d.keeps s s' → P hist s → P (⟨s, c, s'⟩ :: hist) s'

theorem Stable.and {d : Discipline σ χ} {P Q : Assertion σ χ} (hP : d.Stable P) (hQ : d.Stable Q) :
    d.Stable fun hist s => P hist s ∧ Q hist s :=
  fun hist s s' hs h => ⟨hP hist s s' hs h.1, hQ hist s s' hs h.2⟩

/-- A condition on the state alone. -/
theorem Lasting.of_state {d : Discipline σ χ} {P : σ → Prop} (h : ∀ s s', d.keeps s s' → P s → P s') :
    d.Lasting fun _ s => P s :=
  ⟨fun _ s s' hs hP => h s s' hs hP, fun _ s _ s' hs hP => h s s' hs hP⟩

/-- That the thread has taken some step. -/
theorem Lasting.of_step {d : Discipline σ χ} {event : Taken σ χ → Prop} :
    d.Lasting fun hist _ => ∃ step ∈ hist, event step :=
  ⟨fun _ _ _ _ h => h, fun _ _ _ _ _ ⟨step, hmem, h⟩ => ⟨step, mem_cons_of_mem _ hmem, h⟩⟩

theorem Lasting.and {d : Discipline σ χ} {P Q : Assertion σ χ} (hP : d.Lasting P) (hQ : d.Lasting Q) :
    d.Lasting fun hist s => P hist s ∧ Q hist s :=
  ⟨hP.stable.and hQ.stable,
    fun hist s c s' hs h => ⟨hP.grows hist s c s' hs h.1, hQ.grows hist s c s' hs h.2⟩⟩

theorem Lasting.exists {d : Discipline σ χ} {P : ι → Assertion σ χ} (hP : ∀ i, d.Lasting (P i)) :
    d.Lasting fun hist s => ∃ i, P i hist s :=
  ⟨fun hist s s' hs ⟨i, h⟩ => ⟨i, (hP i).stable hist s s' hs h⟩,
    fun hist s c s' hs ⟨i, h⟩ => ⟨i, (hP i).grows hist s c s' hs h⟩⟩

/-- A step that a thread may take. Beside what all keep it may have promised something on its own. -/
structure Step (d : Discipline σ χ) (own : Taken σ χ → Prop) (step : Taken σ χ) : Prop where
  inv : d.inv step.after
  each : d.each step
  keeps : d.keeps step.before step.after
  own : own step

end Discipline

/-- Whatever the others do, the program takes only steps that it may take, and its result meets the
condition. -/
def Holds (d : Discipline σ χ) (own : Taken σ χ → Prop) (post : α → Assertion σ χ) :
    Program σ χ α → History σ χ → σ → Prop
  | .done a, hist, s => post a hist s
  | .atomic update next, hist, s => ∀ s' c, d.keeps s s' → d.inv s' →
      d.Step own ⟨s', c, update c s'⟩ ∧
        Holds d own post (next c s') (⟨s', c, update c s'⟩ :: hist) (update c s')

namespace Holds

variable {p : Program σ χ α}

theorem later (hpost : ∀ a, d.Stable (post a)) (h : Holds d own post p hist s) (hs : d.keeps s s') :
    Holds d own post p hist s' := by
  cases p with
  | done a => exact hpost a hist s s' hs h
  | atomic update next => exact fun t c ht hinv => h t c (d.trans hs ht) hinv

theorem mono (hpost : ∀ a hist s, post a hist s → post' a hist s) (h : Holds d own post p hist s) :
    Holds d own post' p hist s := by
  induction p generalizing hist s with
  | done a => exact hpost a hist s h
  | atomic update next ih =>
    intro s' c hs hinv
    exact ⟨(h s' c hs hinv).1, ih c s' (h s' c hs hinv).2⟩

theorem bind {f : α → Program σ χ β} {post : β → Assertion σ χ} (hinv : d.inv s)
    (h : Holds d own mid p hist s)
    (hf : ∀ a hist s, d.inv s → mid a hist s → Holds d own post (f a) hist s) :
    Holds d own post (p >>= f) hist s := by
  induction p generalizing hist s with
  | done a => exact hf a hist s hinv h
  | atomic update next ih =>
    intro s' c hs hinv'
    obtain ⟨hstep, hrest⟩ := h s' c hs hinv'
    exact ⟨hstep, ih c s' hstep.inv hrest⟩

theorem frame {P : Assertion σ χ} (hP : d.Lasting P) (h : Holds d own post p hist s)
    (hs : P hist s) : Holds d own (fun a hist s => post a hist s ∧ P hist s) p hist s := by
  induction p generalizing hist s with
  | done a => exact ⟨h, hs⟩
  | atomic update next ih =>
    intro s' c hkeeps hinv
    obtain ⟨hstep, hrest⟩ := h s' c hkeeps hinv
    exact ⟨hstep, ih c s' hrest (hP.grows hist s' c _ hstep.keeps (hP.stable hist s s' hkeeps hs))⟩

end Holds

/-- Pre- and postcondition of a program. -/
def Triple (d : Discipline σ χ) (own : Taken σ χ → Prop) (pre : Assertion σ χ) (p : Program σ χ α)
    (post : α → Assertion σ χ) : Prop :=
  ∀ hist s, d.inv s → pre hist s → Holds d own post p hist s

namespace Triple

theorem pure {a : α} (h : ∀ hist s, pre hist s → post a hist s) :
    Triple d own pre (pure a : Program σ χ α) post :=
  fun hist s _ hpre => h hist s hpre

variable {p : Program σ χ α}

theorem bind {f : α → Program σ χ β} {post : β → Assertion σ χ} (hp : Triple d own pre p mid)
    (hf : ∀ a, Triple d own (mid a) (f a) post) : Triple d own pre (p >>= f) post :=
  fun hist s hinv hpre => (hp hist s hinv hpre).bind hinv fun a hist s => hf a hist s

theorem run {f : χ → σ → α × σ} (hpre : d.Stable pre)
    (h : ∀ hist s c, d.inv s → pre hist s →
      d.Step own ⟨s, c, (f c s).2⟩ ∧ post (f c s).1 (⟨s, c, (f c s).2⟩ :: hist) (f c s).2) :
    Triple d own pre (Program.run f) post :=
  fun hist s _ hs s' c hkeeps hinv => h hist s' c hinv (hpre hist s s' hkeeps hs)

/-- The frame rule. -/
theorem frame {P : Assertion σ χ} (hP : d.Lasting P) (h : Triple d own pre p post) :
    Triple d own (fun hist s => pre hist s ∧ P hist s) p fun a hist s => post a hist s ∧ P hist s :=
  fun hist s hinv hs => (h hist s hinv hs.1).frame hP hs.2

theorem consequence (hpre : ∀ hist s, pre hist s → pre' hist s)
    (hpost : ∀ a hist s, post' a hist s → post a hist s) (h : Triple d own pre' p post') :
    Triple d own pre p post :=
  fun hist s hinv hs => (h hist s hinv (hpre hist s hs)).mono hpost

/-- The rule for a loop over a list, with what holds while some of the list is left. -/
theorem forM {body : ι → Program σ χ PUnit} {left : List ι → Assertion σ χ}
    (hbody : ∀ x rest, Triple d own (left (x :: rest)) (body x) fun _ => left rest) (xs : List ι) :
    Triple d own (left xs) (xs.forM body) fun _ => left [] := by
  induction xs with
  | nil => exact .pure fun _ _ h => h
  | cons x rest ih => exact .bind (hbody x rest) fun _ => ih

end Triple

/-! ## Runs -/

/-- A call that was made, with what is left of its program and the steps it took. -/
structure Thread (ω σ χ α : Type) where
  op : ω
  program : Program σ χ α
  steps : History σ χ := []

/-- The thread after a section, with the rest of its program. -/
def Thread.advance (thread : Thread ω σ χ α) (step : Taken σ χ) (rest : Program σ χ α) :
    Thread ω σ χ α :=
  { thread with program := rest, steps := step :: thread.steps }

structure World (ω σ χ α : Type) where
  shared : σ
  threads : List (Thread ω σ χ α) := []

inductive Move (ω χ : Type) where
  | spawn (op : ω)
  | run (thread : Nat) (choice : χ)

variable {code : ω → Program σ χ α} {init : σ → Prop}

namespace World

def apply (code : ω → Program σ χ α) (w : World ω σ χ α) : Move ω χ → Option (World ω σ χ α)
  | .spawn op => some { w with threads := w.threads ++ [⟨op, code op, []⟩] }
  | .run i c =>
    match w.threads[i]? with
    | none => none
    | some thread =>
      match thread.program with
      | .done _ => none
      | .atomic update next =>
        let after := update c w.shared
        some ⟨after, w.threads.set i (thread.advance ⟨w.shared, c, after⟩ (next c w.shared))⟩

end World

/-- Any number of calls, each running the code of its operation, in any interleaving. -/
def running (code : ω → Program σ χ α) (init : σ → Prop) :
    Machine.System (World ω σ χ α) (Move ω χ) where
  init w := init w.shared ∧ w.threads = []
  step w move w' := w.apply code move = some w'

/-- What a step of the system does. -/
theorem World.apply_cases {w w' : World ω σ χ α} {move : Move ω χ} (h : w.apply code move = some w') :
    (∃ op, move = .spawn op ∧ w' = { w with threads := w.threads ++ [⟨op, code op, []⟩] }) ∨
    ∃ i c thread update next, move = .run i c ∧ w.threads[i]? = some thread ∧
      thread.program = .atomic update next ∧
      w' = ⟨update c w.shared,
        w.threads.set i (thread.advance ⟨w.shared, c, update c w.shared⟩ (next c w.shared))⟩ := by
  cases move with
  | spawn op => exact .inl ⟨op, rfl, (Option.some.inj h).symm⟩
  | run i c =>
    simp only [World.apply] at h
    split at h
    · cases h
    next thread hthread =>
    split at h
    · cases h
    · next update next hprogram =>
      exact .inr ⟨i, c, thread, update, next, rfl, hthread, hprogram, (Option.some.inj h).symm⟩

/-- What the operations promise: what their own steps do beside what all keep, and what holds when they
have returned. -/
structure Spec (d : Discipline σ χ) (code : ω → Program σ χ α) where
  own : ω → Taken σ χ → Prop
  post : ω → α → Assertion σ χ
  stable : ∀ op a, d.Stable (post op a)
  holds : ∀ op, Triple d (own op) (fun hist _ => hist = []) (code op) (post op)

/-- Where a thread is. -/
structure Thread.Sound (spec : Spec d code) (thread : Thread ω σ χ α) (s : σ) : Prop where
  holds : Holds d (spec.own thread.op) (spec.post thread.op) thread.program thread.steps s
  steps : ∀ step ∈ thread.steps,
    d.inv step.before ∧ d.Step (spec.own thread.op) step ∧ d.keeps step.after s

theorem Thread.Sound.later {spec : Spec d code} {thread : Thread ω σ χ α} (h : thread.Sound spec s)
    (hs : d.keeps s s') : thread.Sound spec s' where
  holds := h.holds.later (spec.stable thread.op) hs
  steps step hmem :=
    ⟨(h.steps step hmem).1, (h.steps step hmem).2.1, d.trans (h.steps step hmem).2.2 hs⟩

structure World.Sound (spec : Spec d code) (w : World ω σ χ α) : Prop where
  inv : d.inv w.shared
  threads : ∀ thread ∈ w.threads, thread.Sound spec w.shared

namespace World.Sound

variable {spec : Spec d code} {w w' : World ω σ χ α} {move : Move ω χ}

theorem keeps (h : w.Sound spec) (hstep : w.apply code move = some w') : d.keeps w.shared w'.shared := by
  obtain ⟨op, -, rfl⟩ | ⟨i, c, thread, update, next, -, hthread, hprogram, rfl⟩ := apply_cases hstep
  · exact d.refl _
  · have hholds := (h.threads thread (mem_of_getElem? hthread)).holds
    rw [hprogram] at hholds
    exact (hholds w.shared c (d.refl _) h.inv).1.keeps

theorem step (h : w.Sound spec) (hstep : w.apply code move = some w') : w'.Sound spec := by
  have hkeeps := h.keeps hstep
  obtain ⟨op, -, rfl⟩ | ⟨i, c, thread, update, next, -, hthread, hprogram, rfl⟩ := apply_cases hstep
  · refine ⟨h.inv, fun thread hmem => ?_⟩
    obtain hmem | hmem := mem_append.mp hmem
    · exact h.threads thread hmem
    · obtain rfl := mem_singleton.mp hmem
      exact ⟨spec.holds op [] w.shared h.inv rfl, fun _ hmem => absurd hmem not_mem_nil⟩
  · have hthreadSound := h.threads thread (mem_of_getElem? hthread)
    have hholds := hthreadSound.holds
    rw [hprogram] at hholds
    obtain ⟨hown, hrest⟩ := hholds w.shared c (d.refl _) h.inv
    refine ⟨hown.inv, fun other hmem => ?_⟩
    obtain hmem | rfl := mem_or_eq_of_mem_set hmem
    · exact (h.threads other hmem).later hkeeps
    · refine ⟨hrest, fun step hmem => ?_⟩
      obtain rfl | hmem := mem_cons.mp hmem
      · exact ⟨h.inv, hown, d.refl _⟩
      · exact (hthreadSound.later hkeeps).steps step hmem

end World.Sound

/-- The rule of rely and guarantee. -/
theorem sound_of_reachable (spec : Spec d code) (hinit : ∀ s, init s → d.inv s) {w : World ω σ χ α}
    (h : (running code init).Reachable w) : w.Sound spec := by
  refine h.invariant (fun w hw => ⟨hinit _ hw.1, fun thread hmem => ?_⟩) fun w move w' hw hstep _ =>
    hw.step hstep
  rw [hw.2] at hmem
  cases hmem

/-- What all keep is kept in a whole run. -/
theorem keeps_of_reachable (spec : Spec d code) {w w' : World ω σ χ α} (hw : w.Sound spec)
    (h : ((running code init).startingAt w).Reachable w') : w'.Sound spec ∧ d.keeps w.shared w'.shared := by
  induction h with
  | init heq =>
    obtain rfl : _ = w := heq
    exact ⟨hw, d.refl _⟩
  | step _ hstep _ ih => exact ⟨ih.1.step hstep, d.trans ih.2 (ih.1.keeps hstep)⟩

/-- The thread at the index has taken the step. -/
def World.Took (w : World ω σ χ α) (i : Nat) (step : Taken σ χ) : Prop :=
  ∃ thread, w.threads[i]? = some thread ∧ step ∈ thread.steps

/-- A new call has not done anything, and a thread that runs takes one step. -/
theorem World.took_apply {w w' : World ω σ χ α} {move : Move ω χ} (h : w.apply code move = some w') :
    (w'.shared = w.shared ∧ ∀ i step, w'.Took i step ↔ w.Took i step) ∨
    ∃ k c, ∀ i step, w'.Took i step ↔ w.Took i step ∨ i = k ∧ step = ⟨w.shared, c, w'.shared⟩ := by
  obtain ⟨op, -, rfl⟩ | ⟨k, c, thread, update, next, -, hthread, -, rfl⟩ := apply_cases h
  · refine .inl ⟨rfl, fun i step => ?_⟩
    by_cases hi : i < w.threads.length
    · simp [Took, getElem?_append_left hi]
    · cases hnew : i - w.threads.length <;> simp [Took, getElem?_append, hi, hnew]
  · refine .inr ⟨k, c, fun i step => ?_⟩
    obtain ⟨hk, rfl⟩ := List.getElem?_eq_some_iff.mp hthread
    by_cases hi : i = k
    · simp [Took, hi, hk, Thread.advance, or_comm]
    · simp [Took, getElem?_set_ne (Ne.symm hi), hi]

variable {w : World ω σ χ α}

/-- What holds in a state that a run has reached, but not at the beginning, some thread has made true. -/
theorem exists_step_of_reachable {P : σ → Prop} (hinit : ∀ s, init s → ¬ P s)
    (h : (running code init).Reachable w) :
    (P w.shared → ∃ i step, w.Took i step ∧ ¬ P step.before ∧ P step.after) ∧
    ∀ i step, w.Took i step → P step.before →
      ∃ i step, w.Took i step ∧ ¬ P step.before ∧ P step.after := by
  induction h with
  | init hw => exact ⟨fun hP => absurd hP (hinit _ hw.1), by simp [World.Took, hw.2]⟩
  | @step w w' _ _ hstep _ ih =>
    obtain ⟨hsame, htook⟩ | ⟨k, c, htook⟩ := World.took_apply hstep
    · simpa only [hsame, htook] using ih
    have hold : (∃ i step, w.Took i step ∧ ¬ P step.before ∧ P step.after) →
        ∃ i step, w'.Took i step ∧ ¬ P step.before ∧ P step.after :=
      fun ⟨i, step, htaken, hmade⟩ => ⟨i, step, (htook i step).mpr (.inl htaken), hmade⟩
    refine ⟨fun hP => ?_, fun i step htaken hP => ?_⟩
    · by_cases hbefore : P w.shared
      · exact hold (ih.1 hbefore)
      · exact ⟨k, _, (htook ..).mpr (.inr ⟨rfl, rfl⟩), hbefore, hP⟩
    · obtain htaken | ⟨-, rfl⟩ := (htook i step).mp htaken
      · exact hold (ih.2 i step htaken hP)
      · exact hold (ih.1 hP)

/-- What can happen once happens in one thread only. -/
theorem once_of_reachable (spec : Spec d code) (hinit : ∀ s, init s → d.inv s) (flag : σ → Prop)
    (hflag : ∀ s s', d.keeps s s' → flag s → flag s') (h : (running code init).Reachable w)
    {i j : Nat} {step step' : Taken σ χ} (htook : w.Took i step)
    (hraised : ¬ flag step.before ∧ flag step.after) (htook' : w.Took j step')
    (hraised' : ¬ flag step'.before ∧ flag step'.after) : i = j := by
  induction h with
  | init hw => simp [World.Took, hw.2] at htook
  | @step w w' _ hreach hstep _ ih =>
    have hsound := sound_of_reachable spec hinit hreach
    -- once raised, the flag is not raised again
    have hup : ∀ {j step}, w.Took j step → flag step.after → flag w.shared := by
      rintro j step ⟨other, hother, hmem⟩ hafter
      exact hflag _ _ ((hsound.threads other (mem_of_getElem? hother)).steps step hmem).2.2 hafter
    obtain ⟨-, hsteps⟩ | ⟨k, c, hsteps⟩ := World.took_apply hstep
    · exact ih ((hsteps ..).mp htook) ((hsteps ..).mp htook')
    obtain hold | ⟨hi, rfl⟩ := (hsteps ..).mp htook <;>
      obtain hold' | ⟨hj, rfl⟩ := (hsteps ..).mp htook'
    · exact ih hold hold'
    · exact absurd (hup hold hraised.2) hraised'.1
    · exact absurd (hup hold' hraised'.2) hraised.1
    · exact hi.trans hj.symm

end Threads
