/-
DelegatedEscrow/Proofs/Trace.lean

The history of a run, moment by moment.  A `Moment` is one thing that happened
and the ledger it happened to; the trace of a run lists them in order, with one
moment for each instruction of a batch that was tried.  Whatever is said about
the past of a ledger, about acceptances, credits or clock readings, is said
about its trace.

`Path l ms l'` says that the moments `ms` lead from `l` to `l'`, one step after
another.  It has no constructor for batches, which are taken apart once and for
all in `path_trace`; an argument about runs is an induction on the path, with
only single steps to look at.
-/
import DelegatedEscrow.Proofs.Submission

namespace DelegatedEscrow

namespace Ledger

/-- One thing that happened to a ledger, and the ledger it happened to. -/
structure Moment where
  before : Ledger
  step : Step

namespace Moment

/-- The ledger afterwards. -/
def after (m : Moment) : Ledger := m.before.step m.step

/-- The instruction that took effect at this moment, if one did. -/
def accepted? (m : Moment) : Option Signed :=
  match m.step with
  | .submit s =>
    match (m.before.submit s).2 with
    | .ok _ => some s
    | .error _ => none
  | _ => none

end Moment

/-- The instructions that took effect, in order. -/
def accepted (ms : List Moment) : List Signed := ms.filterMap Moment.accepted?

/-- The moments of a batch: one for each instruction tried. -/
def batchTrace (l : Ledger) : List Signed → List Moment
  | [] => []
  | s :: rest =>
    ⟨l, .submit s⟩ ::
      match l.submit s with
      | (_, .error _) => []
      | (l, .ok _) => l.batchTrace rest

/-- The moments of one step. -/
def moments (l : Ledger) : Step → List Moment
  | .submitAll batch => l.batchTrace batch
  | s => [⟨l, s⟩]

/-- The moments of a run, in order. -/
def trace (l : Ledger) : List Step → List Moment
  | [] => []
  | s :: steps => l.moments s ++ (l.step s).trace steps

theorem trace_append (l : Ledger) (steps more : List Step) :
    l.trace (steps ++ more) = l.trace steps ++ (l.run steps).trace more := by
  induction steps generalizing l with
  | nil => rfl
  | cons s steps ih =>
    show l.moments s ++ (l.step s).trace (steps ++ more) = _
    rw [ih, ← List.append_assoc]
    rfl

/-! ### Paths -/

/-- A step that is no batch. -/
def Step.Single : Step → Prop
  | .submitAll _ => False
  | _ => True

/-- The moments `ms` lead from one ledger to another. -/
inductive Path : Ledger → List Moment → Ledger → Prop
  | nil {l} : Path l [] l
  | cons {l l' s ms} (single : s.Single) (rest : Path (l.step s) ms l') :
      Path l (⟨l, s⟩ :: ms) l'

variable {l l' l'' : Ledger} {ms ns : List Moment} {m : Moment} {s : Step}

theorem Path.single (h : s.Single) : Path l [⟨l, s⟩] (l.step s) := .cons h .nil

theorem Path.append (p : Path l ms l') (q : Path l' ns l'') : Path l (ms ++ ns) l'' := by
  induction p with
  | nil => exact q
  | cons single _ ih => exact .cons single (ih q)

theorem Path.single_of_mem (p : Path l ms l') (h : m ∈ ms) : m.step.Single := by
  induction p with
  | nil => cases h
  | cons single _ ih =>
    rcases List.mem_cons.1 h with rfl | later
    · exact single
    · exact ih later

/-! Batches, one instruction at a time. -/

theorem submitAll_cons_of_ok {i : Signed} {rest : List Signed} {r : Receipt}
    (h : l.submit i = (l', .ok r)) :
    (l.submitAll (i :: rest)).1 = (l'.submitAll rest).1 := by
  rw [submitAll, h]
  dsimp only
  rcases l'.submitAll rest with ⟨_, ⟨_, _⟩ | _⟩ <;> rfl

/-- Positions are counted from the front of the batch. -/
theorem answer_cons_of_ok {i : Signed} {rest : List Signed} {r : Receipt}
    (h : l.submit i = (l', .ok r)) :
    (l.submitAll (i :: rest)).2 =
      ((l'.submitAll rest).2.mapError fun e => (e.1 + 1, e.2)).map (r :: ·) := by
  rw [submitAll, h]
  dsimp only
  rcases l'.submitAll rest with ⟨_, ⟨_, _⟩ | _⟩ <;> rfl

theorem submitAll_cons_of_error {i : Signed} {rest : List Signed} {f : Fault}
    (h : l.submit i = (l', .error f)) : l.submitAll (i :: rest) = (l', .error (0, f)) := by
  rw [submitAll, h]

theorem batchTrace_cons_of_ok {i : Signed} {rest : List Signed} {r : Receipt}
    (h : l.submit i = (l', .ok r)) :
    l.batchTrace (i :: rest) = ⟨l, .submit i⟩ :: l'.batchTrace rest := by
  rw [batchTrace, h]

theorem batchTrace_cons_of_error {i : Signed} {rest : List Signed} {f : Fault}
    (h : l.submit i = (l', .error f)) : l.batchTrace (i :: rest) = [⟨l, .submit i⟩] := by
  rw [batchTrace, h]

theorem path_batchTrace (l : Ledger) (batch : List Signed) :
    Path l (l.batchTrace batch) (l.submitAll batch).1 := by
  induction batch generalizing l with
  | nil => exact .nil
  | cons i rest ih =>
    rcases e : l.submit i with ⟨next, f | r⟩
    · -- The batch ends where an instruction is refused.
      have here : l.step (.submit i) = next := congrArg Prod.fst e
      rw [batchTrace_cons_of_error e, submitAll_cons_of_error e, ← here]
      exact .single trivial
    · -- It goes on from where the instruction has left the ledger.
      have here : l.step (.submit i) = next := congrArg Prod.fst e
      rw [batchTrace_cons_of_ok e, submitAll_cons_of_ok e, ← here]
      exact .cons trivial (ih _)

theorem step_of_mem_batchTrace {batch : List Signed} (h : m ∈ l.batchTrace batch) :
    ∃ i, m.step = .submit i := by
  induction batch generalizing l with
  | nil => simp [batchTrace] at h
  | cons i rest ih =>
    rcases e : l.submit i with ⟨next, f | r⟩
    · rw [batchTrace_cons_of_error e, List.mem_singleton] at h
      exact ⟨i, h ▸ rfl⟩
    · rw [batchTrace_cons_of_ok e] at h
      rcases List.mem_cons.1 h with rfl | later
      · exact ⟨i, rfl⟩
      · exact ih later

theorem path_moments (l : Ledger) (s : Step) : Path l (l.moments s) (l.step s) := by
  cases s with
  | submitAll batch => exact path_batchTrace l batch
  | _ => exact .single trivial

/-- A trace is a path from the start of its run to the end. -/
theorem path_trace (l : Ledger) (steps : List Step) : Path l (l.trace steps) (l.run steps) := by
  induction steps generalizing l with
  | nil => exact .nil
  | cons s steps ih => exact (path_moments l s).append (ih (l.step s))

/-- What no single step loses is true at the end of a path and at each of its
moments. -/
theorem Path.invariant {P : Ledger → Prop}
    (keeps : ∀ {l s}, Step.Single s → P l → P (l.step s)) (p : Path l ms l') (h : P l) :
    P l' ∧ ∀ m ∈ ms, P m.before := by
  induction p with
  | nil => exact ⟨h, by simp⟩
  | cons single _ ih =>
    obtain ⟨last, each⟩ := ih (keeps single h)
    refine ⟨last, fun m hm => ?_⟩
    rcases List.mem_cons.1 hm with rfl | later
    · exact h
    · exact each m later

/-- A path leads to each of its moments. -/
theorem Path.to_moment (p : Path l ms l') (h : m ∈ ms) :
    ∃ earlier, Path l earlier m.before ∧ ∀ n ∈ earlier, n ∈ ms := by
  induction p with
  | nil => cases h
  | @cons l l' s ms single _ ih =>
    rcases List.mem_cons.1 h with rfl | later
    · exact ⟨[], .nil, by simp⟩
    · obtain ⟨earlier, path, within⟩ := ih later
      refine ⟨⟨l, s⟩ :: earlier, .cons single path, fun n hn => ?_⟩
      rcases List.mem_cons.1 hn with rfl | hn
      · exact List.mem_cons_self
      · exact List.mem_cons_of_mem _ (within n hn)

/-- What is true of every step of a run and of every instruction is true of the
steps at its moments. -/
theorem forall_mem_trace {P : Step → Prop} {steps : List Step} (each : ∀ s ∈ steps, P s)
    (instructions : ∀ i, P (.submit i)) (l : Ledger) : ∀ m ∈ l.trace steps, P m.step := by
  induction steps generalizing l with
  | nil => simp [trace]
  | cons s steps ih =>
    intro m hm
    rcases List.mem_append.1 hm with here | later
    · cases s with
      | submitAll batch =>
        obtain ⟨i, hi⟩ := step_of_mem_batchTrace here
        exact hi ▸ instructions i
      | _ =>
        rw [moments, List.mem_singleton] at here
        · exact here ▸ each _ List.mem_cons_self
        · simp
    · exact ih (fun s hs => each s (List.mem_cons_of_mem _ hs)) _ m later

/-! ### Steps that are no instructions -/

theorem issue_kept (l : Ledger) (h : Holder) (mint : Mint) (a : Amount) :
    (l.issue h mint a).1 = { l with custody := (l.issue h mint a).1.custody } := by
  unfold issue
  rcases l.custody.issue h mint a with _ | _ <;> rfl

/-- Only instructions write records and events. -/
theorem step_kept (single : s.Single) (other : ∀ i, s ≠ .submit i) :
    (l.step s).escrows = l.escrows ∧ (l.step s).limits = l.limits ∧
      (l.step s).journal = l.journal := by
  cases s with
  | submit i => exact absurd rfl (other i)
  | submitAll batch => exact single.elim
  | issue h mint a =>
    rw [step, issue_kept]
    exact ⟨rfl, rfl, rfl⟩
  | _ => exact ⟨rfl, rfl, rfl⟩

theorem escrow?_step (single : s.Single) (other : ∀ i, s ≠ .submit i) (owner : Identity) :
    (l.step s).escrow? owner = l.escrow? owner := by
  rw [escrow?, (step_kept single other).1, escrow?]

theorem limits_step (single : s.Single) : (l.step s).limits = l.limits := by
  by_cases instruction : ∃ i, s = .submit i
  · obtain ⟨i, rfl⟩ := instruction
    exact limits_submit l i
  · exact (step_kept single fun i e => instruction ⟨i, e⟩).2.1

/-! ### Which instruction took effect -/

theorem Moment.accepted?_of_ok {i : Signed} {r : Receipt} (e : l.submit i = (l', .ok r)) :
    (⟨l, .submit i⟩ : Moment).accepted? = some i := by
  simp only [accepted?, e]

theorem Moment.accepted?_of_error {i : Signed} {f : Fault}
    (e : l.submit i = (l', .error f)) : (⟨l, .submit i⟩ : Moment).accepted? = none := by
  simp only [accepted?, e]

theorem Moment.accepted?_of_other (other : ∀ i, s ≠ .submit i) :
    (⟨l, s⟩ : Moment).accepted? = none := by
  cases s with
  | submit i => exact absurd rfl (other i)
  | _ => rfl

/-! ### Reading a trace moment by moment -/

/-- One moment more at the front. -/
theorem filterMap_cons_toList {α β : Type} (f : α → Option β) (x : α) (xs : List α) :
    (x :: xs).filterMap f = (f x).toList ++ xs.filterMap f := by
  rw [List.filterMap_cons]
  rcases f x with - | y <;> rfl

/-- One moment more at the end. -/
theorem filterMap_concat {α β : Type} (f : α → Option β) (xs : List α) (x : α) :
    (xs ++ [x]).filterMap f = xs.filterMap f ++ (f x).toList := by
  rw [List.filterMap_append, filterMap_cons_toList, List.filterMap_nil, List.append_nil]

theorem forall_accepted_cons {p : Signed → Prop} {ms : List Moment} :
    (∀ i ∈ accepted (m :: ms), p i) ↔
      (∀ i, m.accepted? = some i → p i) ∧ ∀ i ∈ accepted ms, p i := by
  rw [accepted, filterMap_cons_toList, List.forall_mem_append]
  simp only [Option.mem_toList, accepted]

/-! ### What a moment does -/

/-- What can happen at a moment: either nothing takes effect, and neither records nor
events are written; or an instruction was staged and settled, and is written. -/
inductive Moment.Outcome (m : Moment) : Prop
  | nothing (accepted : m.accepted? = none)
      (kept : m.after.escrows = m.before.escrows ∧ m.after.journal = m.before.journal)
  | effect (i : Signed) (t : Transition) (c : Custody) (submitted : m.step = .submit i)
      (accepted : m.accepted? = some i) (staged : m.before.stage i = .ok t)
      (settled : t.settle m.before.custody = (c, .ok ()))
      (after : m.after = m.before.written c t)

theorem Moment.outcome (single : m.step.Single) : m.Outcome := by
  obtain ⟨l, s⟩ := m
  by_cases instruction : ∃ i, s = .submit i
  · obtain ⟨i, rfl⟩ := instruction
    rcases submit_cases l i with ⟨_, -, e⟩ | ⟨_, c, _, -, -, e⟩ | ⟨t, c, staged, settled, e⟩
    · have after : (⟨l, .submit i⟩ : Moment).after = l := congrArg Prod.fst e
      refine .nothing (accepted?_of_error e) ?_
      rw [after]
      exact ⟨rfl, rfl⟩
    · have after : (⟨l, .submit i⟩ : Moment).after = { l with custody := c } :=
        congrArg Prod.fst e
      refine .nothing (accepted?_of_error e) ?_
      rw [after]
      exact ⟨rfl, rfl⟩
    · exact .effect i t c rfl (accepted?_of_ok e) staged settled (congrArg Prod.fst e)
  · have other : ∀ i, s ≠ .submit i := fun i e => instruction ⟨i, e⟩
    obtain ⟨escrows, -, journal⟩ := step_kept single other
    exact .nothing (accepted?_of_other other) ⟨escrows, journal⟩

end Ledger

end DelegatedEscrow
