/-
DelegatedEscrow/Proofs/Retention.lean

How much a journal keeps makes no difference to anything but the journal.  Ledgers that
run side by side with different capacities stay *twins*: the same but for the events
kept.  They give the same answer to every instruction, and announce the same events.

What a ledger of capacity `c` then has on file are the last `min n c` of the `n` events
announced so far, with the ids `1, …, n` in order, none missing and none given twice.
Only an instruction that takes effect uses up an id; the ids are what a word can count,
so this is for fewer than `2 ^ 64 - 1` of them.
-/
import DelegatedEscrow.Proofs.Announcements
import DelegatedEscrow.Proofs.Refusal

namespace DelegatedEscrow

namespace Ledger

/-- Two ledgers that differ in what their journals keep, and in nothing else. -/
def Twins (l l' : Ledger) : Prop :=
  ∃ j : Journal, j.nextId = l.journal.nextId ∧ l' = { l with journal := j }

/-- What can be seen of a moment from outside: which instruction took effect, and what
was announced. -/
def Moment.shown (m : Moment) : Option Signed × Option Event := (m.accepted?, m.announced?)

variable {l l' : Ledger} {ms ms' : List Moment} {s : Step} {i : Signed} {t : Transition}
variable {c : Custody} {f : Fault} {r : Receipt}

theorem shown_of_error (e : l.submit i = (l', .error f)) :
    (⟨l, .submit i⟩ : Moment).shown = (none, none) := by
  rw [Moment.shown, Moment.accepted?_of_error e, announced?_submit_of_error e]

theorem shown_of_written (e : l.submit i = (l.written c t, .ok r)) :
    (⟨l, .submit i⟩ : Moment).shown = (some i, some (l.announcement t)) := by
  rw [Moment.shown, Moment.accepted?_of_ok e, announced?_submit_of_ok e]

theorem shown_of_other (other : ∀ i, s ≠ .submit i) :
    (⟨l, s⟩ : Moment).shown = (none, none) := by
  have nothing : (⟨l, s⟩ : Moment).accepted? = none := Moment.accepted?_of_other other
  rw [Moment.shown, announced?_of_none nothing, nothing]

theorem accepted_congr (same : ms'.map Moment.shown = ms.map Moment.shown) :
    accepted ms' = accepted ms := by
  have read := congrArg (List.filterMap Prod.fst) same
  rwa [List.filterMap_map, List.filterMap_map] at read

theorem announced_congr (same : ms'.map Moment.shown = ms.map Moment.shown) :
    announced ms' = announced ms := by
  have read := congrArg (List.filterMap Prod.snd) same
  rwa [List.filterMap_map, List.filterMap_map] at read

/-! ### Side by side -/

namespace Twins

/-- A rule does not look at the journal. -/
theorem stage (h : l.Twins l') (i : Signed) : l'.stage i = l.stage i := by
  obtain ⟨j, -, rfl⟩ := h
  rfl

theorem custody (h : l.Twins l') : l'.custody = l.custody := by
  obtain ⟨j, -, rfl⟩ := h
  rfl

theorem with_custody (h : l.Twins l') (c : Custody) :
    Twins { l with custody := c } { l' with custody := c } := by
  obtain ⟨j, next, rfl⟩ := h
  exact ⟨j, next, rfl⟩

theorem announcement (h : l.Twins l') (t : Transition) :
    l'.announcement t = l.announcement t := by
  obtain ⟨j, next, rfl⟩ := h
  simp only [Ledger.announcement, next]

theorem receiptFor (h : l.Twins l') (t : Transition) : l'.receiptFor t = l.receiptFor t := by
  obtain ⟨j, next, rfl⟩ := h
  simp only [Ledger.receiptFor, next]

theorem written (h : l.Twins l') (c : Custody) (t : Transition) :
    (l.written c t).Twins (l'.written c t) := by
  obtain ⟨j, next, rfl⟩ := h
  refine ⟨(j.record l.now t.account.owner t.account.nonce t.payload).1, ?_, rfl⟩
  show j.nextId + 1 = l.journal.nextId + 1
  rw [next]

/-- Twins give the same answer, announce the same and remain twins. -/
theorem submit (h : l.Twins l') (i : Signed) :
    (l.submit i).1.Twins (l'.submit i).1 ∧ (l'.submit i).2 = (l.submit i).2 ∧
      (⟨l', .submit i⟩ : Moment).shown = (⟨l, .submit i⟩ : Moment).shown := by
  rcases submit_cases l i with ⟨f, unstaged, e⟩ | ⟨t, c, f, staged, unsettled, e⟩ |
    ⟨t, c, staged, settled, e⟩
  · have e' : l'.submit i = (l', .error f) := submit_of_unstaged ((h.stage i).trans unstaged)
    rw [shown_of_error e, shown_of_error e', e, e']
    exact ⟨h, rfl, rfl⟩
  · have e' : l'.submit i = ({ l' with custody := c }, .error (.custody f)) :=
      submit_of_unsettled ((h.stage i).trans staged) (h.custody ▸ unsettled)
    rw [shown_of_error e, shown_of_error e', e, e']
    exact ⟨h.with_custody c, rfl, rfl⟩
  · have e' : l'.submit i = (l'.written c t, .ok (l'.receiptFor t)) :=
      submit_of_settled ((h.stage i).trans staged) (h.custody ▸ settled)
    rw [shown_of_written e, shown_of_written e', e, e', h.receiptFor, h.announcement]
    exact ⟨h.written c t, rfl, rfl⟩

theorem submitAll (h : l.Twins l') (batch : List Signed) :
    (l.submitAll batch).1.Twins (l'.submitAll batch).1 ∧
      (l'.submitAll batch).2 = (l.submitAll batch).2 ∧
      (l'.batchTrace batch).map Moment.shown = (l.batchTrace batch).map Moment.shown := by
  induction batch generalizing l l' with
  | nil => exact ⟨h, rfl, rfl⟩
  | cons i rest ih =>
    obtain ⟨twins, answer, shown⟩ := h.submit i
    rcases e : l.submit i with ⟨next, f | r⟩
    · -- Both batches end here.
      rcases e' : l'.submit i with ⟨next', answer'⟩
      rw [e, e'] at twins answer
      obtain rfl : answer' = .error f := answer
      rw [submitAll_cons_of_error e, submitAll_cons_of_error e', batchTrace_cons_of_error e,
        batchTrace_cons_of_error e']
      exact ⟨twins, rfl, congrArg (fun x => [x]) shown⟩
    · -- Both go on.
      rcases e' : l'.submit i with ⟨next', answer'⟩
      rw [e, e'] at twins answer
      obtain rfl : answer' = .ok r := answer
      obtain ⟨twins, answers, later⟩ := ih twins
      refine ⟨?_, ?_, ?_⟩
      · rw [submitAll_cons_of_ok e, submitAll_cons_of_ok e']
        exact twins
      · rw [answer_cons_of_ok e, answer_cons_of_ok e', answers]
      · rw [batchTrace_cons_of_ok e, batchTrace_cons_of_ok e', List.map_cons, List.map_cons,
          shown, later]

theorem step (h : l.Twins l') (s : Step) :
    (l.step s).Twins (l'.step s) ∧
      (l'.moments s).map Moment.shown = (l.moments s).map Moment.shown := by
  have alone : ∀ {s : Step}, (∀ i, s ≠ .submit i) →
      [(⟨l', s⟩ : Moment)].map Moment.shown = [(⟨l, s⟩ : Moment)].map Moment.shown := by
    intro s other
    rw [List.map_singleton, List.map_singleton, shown_of_other other, shown_of_other other]
  cases s with
  | submit i =>
    obtain ⟨twins, -, shown⟩ := h.submit i
    exact ⟨twins, congrArg (fun x => [x]) shown⟩
  | submitAll batch =>
    obtain ⟨twins, -, shown⟩ := h.submitAll batch
    exact ⟨twins, shown⟩
  | issue holder mint a =>
    refine ⟨?_, alone (by simp)⟩
    obtain ⟨j, next, rfl⟩ := h
    show (l.issue holder mint a).1.Twins (issue { l with journal := j } holder mint a).1
    unfold issue
    dsimp only
    rcases l.custody.issue holder mint a with f | c
    · exact ⟨j, next, rfl⟩
    · exact ⟨j, next, rfl⟩
  | _ =>
    refine ⟨?_, alone (by simp)⟩
    obtain ⟨j, next, rfl⟩ := h
    exact ⟨j, next, rfl⟩

/-! ### Along a run -/

theorem run (h : l.Twins l') (steps : List Step) :
    (l.run steps).Twins (l'.run steps) ∧
      (l'.trace steps).map Moment.shown = (l.trace steps).map Moment.shown := by
  induction steps generalizing l l' with
  | nil => exact ⟨h, rfl⟩
  | cons s steps ih =>
    obtain ⟨twins, here⟩ := h.step s
    obtain ⟨twins, later⟩ := ih twins
    refine ⟨twins, ?_⟩
    rw [trace, trace, List.map_append, List.map_append, here, later]

/-- Ledgers that start side by side are twins. -/
theorem fresh (limits : Limits) (retention other : Nat) :
    (Ledger.fresh limits retention).Twins (Ledger.fresh limits other) :=
  ⟨.empty other, rfl, rfl⟩

end Twins

/-! ### Numbers -/

/-- The ids of a run are 1, 2, 3 and so on, for as long as a word can count them. -/
theorem Path.numbered {limits : Limits} {retention : Nat}
    (p : Path (Ledger.fresh limits retention) ms l)
    (few : (announced ms).length < UInt64.size - 1) :
    (announced ms).map (fun e => e.id.toNat) = List.range' 1 (announced ms).length ∧
      l.journal.nextId.toNat = (announced ms).length + 1 := by
  have count : ∀ k, k < UInt64.size - 1 → ((1 : UInt64) + UInt64.ofNat k).toNat = 1 + k := by
    intro k small
    rw [UInt64.toNat_add, UInt64.toNat_ofNat_of_lt' (by omega)]
    exact Nat.mod_eq_of_lt (by show 1 + k < UInt64.size; omega)
  obtain ⟨-, next, ids, -⟩ := p.extends
  constructor
  · have numbers := congrArg (List.map UInt64.toNat) ids
    rw [List.map_map, List.map_map] at numbers
    rw [List.range'_eq_map_range]
    refine numbers.trans (List.map_congr_left fun k small => ?_)
    rw [List.mem_range] at small
    exact count k (by omega)
  · rw [next, Nat.add_comm]
    exact count _ few

/-- A refused instruction announces nothing. -/
theorem journal_of_refused (refused : (l.submit i).2 = .error f) :
    (l.submit i).1.journal = l.journal :=
  (kept_of_refused refused).2.2

/-- **Retention makes no difference.**  Two ledgers with the same limits, whatever their
journals keep, come to the same records, custody and clock by the same run, and give the
same answer to any instruction and to any batch; the same events are announced.  On file
are the last of them, as many as are kept; they are numbered consecutively from 1, and a
receipt has the next number.  What is refused uses up none. -/
theorem retention_makes_no_difference (limits : Limits) (retention other : Nat)
    (steps : List Step) :
    let start := Ledger.fresh limits retention
    let start' := Ledger.fresh limits other
    let l := start.run steps
    let l' := start'.run steps
    let history := announced (start.trace steps)
    let n := (accepted (start.trace steps)).length
    (l'.escrows = l.escrows ∧ l'.custody = l.custody ∧ l'.now = l.now ∧ l'.limits = l.limits) ∧
      (∀ i, (l'.submit i).2 = (l.submit i).2) ∧
      (∀ batch, (l'.submitAll batch).2 = (l.submitAll batch).2) ∧
      accepted (start'.trace steps) = accepted (start.trace steps) ∧
      announced (start'.trace steps) = history ∧
      history.length = n ∧
      l.journal.events = history.drop (n - max 1 retention) ∧
      l.journal.events.length = min n (max 1 retention) ∧
      (∀ i f, (l.submit i).2 = .error f → (l.submit i).1.journal = l.journal) ∧
      (n < UInt64.size - 1 →
        history.map (fun e => e.id.toNat) = List.range' 1 n ∧
          l.journal.events.map (fun e => e.id.toNat) =
            List.range' (n - max 1 retention + 1) (min n (max 1 retention)) ∧
          ∀ i r, (l.submit i).2 = .ok r → r.eventId.toNat = n + 1) := by
  intro start start' l l' history n
  obtain ⟨twins, shown⟩ := (Twins.fresh limits retention other).run steps
  have path : Path start (start.trace steps) l := path_trace start steps
  have total : history.length = n := path.length_announced
  have kept : l.journal.events = history.drop (n - max 1 retention) := by
    rw [← total]
    exact path.journal.2
  refine ⟨?_, fun i => (twins.submit i).2.1, fun batch => (twins.submitAll batch).2.1,
    accepted_congr shown, announced_congr shown, total, kept, ?_,
    fun i f refused => journal_of_refused refused, fun few => ?_⟩
  · obtain ⟨j, -, same⟩ := twins
    rw [show l' = { l with journal := j } from same]
    exact ⟨rfl, rfl, rfl, rfl⟩
  · rw [kept, List.length_drop, total]
    omega
  · obtain ⟨ids, next⟩ := path.numbered (total ▸ few)
    rw [show (announced (start.trace steps)).length = n from total] at ids next
    refine ⟨ids, ?_, fun i r accepted => ?_⟩
    · rw [kept, List.map_drop, show history.map (fun e => e.id.toNat) = _ from ids,
        List.drop_range']
      congr 1
      · omega
      · omega
    · obtain ⟨t, c, -, -, -, rfl⟩ := submit_eq_ok (Prod.ext rfl accepted)
      exact next

/-- A run in which three instructions take effect, one of them in a batch that is cut
short, and two are refused. -/
def episode : List Step :=
  [.issue (.wallet (.ofSeed 1)) .usdc ⟨100⟩,
    .submit ⟨.ofSeed 1, .create .usdc 0 .unlimited⟩,
    .submitAll
      [⟨.ofSeed 1, .act (.ofSeed 1) (.deposit ⟨60⟩)⟩,
        ⟨.ofSeed 1, .act (.ofSeed 1) (.deposit ⟨60⟩)⟩,
        ⟨.ofSeed 1, .act (.ofSeed 1) .close⟩],
    .submit ⟨.ofSeed 2, .act (.ofSeed 1) .pause⟩,
    .submit ⟨.ofSeed 1, .act (.ofSeed 1) .pause⟩]

/-- A ledger asked to keep no event keeps the last one, and answers like one that keeps
two. -/
theorem episode_forgotten :
    let l := (Ledger.fresh .standard 0).run episode
    let l' := (Ledger.fresh .standard 2).run episode
    l.journal.events.map (fun e => e.id.toNat) = [3] ∧
      l'.journal.events.map (fun e => e.id.toNat) = [2, 3] ∧
      ∀ i, (l'.submit i).2 = (l.submit i).2 := by
  intro l l'
  have three : (accepted ((Ledger.fresh .standard 0).trace episode)).length = 3 := by
    decide +kernel
  have three' : (accepted ((Ledger.fresh .standard 2).trace episode)).length = 3 := by
    decide +kernel
  obtain ⟨-, answers, -, -, -, -, -, -, -, ids⟩ :=
    retention_makes_no_difference .standard 0 2 episode
  obtain ⟨-, -, -, -, -, -, -, -, -, ids'⟩ := retention_makes_no_difference .standard 2 0 episode
  refine ⟨?_, ?_, answers⟩
  · have numbers := (ids (by rw [three]; decide)).2.1
    rwa [three] at numbers
  · have numbers := (ids' (by rw [three']; decide)).2.1
    rwa [three'] at numbers

end Ledger

end DelegatedEscrow
