/-
DelegatedEscrow/Proofs/Polling.lean

What a subscriber learns by polling.  The ids on file increase, so that bisection finds
the first newer event, and

    since after  =  the events on file with an id greater than `after`.

A subscriber polls now and then with the last id it has seen.  An answer ends with the
newest event there is, as that is always kept; hence after a poll the subscriber has
caught up, and the next answer is the newest part of what was announced meanwhile,
as much of it as the journal keeps.  One that polls often enough is told everything.

The answers are compared with what was announced, and not with what is on file: that is
one event for each instruction which took effect, made from the transition it staged.
-/
import DelegatedEscrow.Proofs.Retention

namespace DelegatedEscrow

namespace Journal

variable {j : Journal} {after : EventId} {k k' : Nat}

/-- Whether the event at a position is no newer than `after`. -/
def seen (j : Journal) (after : EventId) (k : Nat) : Bool :=
  (j.events[k]?).any fun e => e.id ≤ after

theorem seen_iff (h : k < j.events.length) : j.seen after k ↔ j.events[k].id ≤ after := by
  simp only [seen, List.getElem?_eq_getElem h, Option.any_some, decide_eq_true_eq]

/-- If ids increase, what comes before a seen event was seen. -/
theorem seen_of_le (sorted : j.events.Pairwise (·.id < ·.id)) (le : k ≤ k')
    (old : j.seen after k') : j.seen after k := by
  rcases Nat.lt_or_ge k' j.events.length with h | h
  · rcases Nat.lt_or_eq_of_le le with lt | rfl
    · have earlier := List.pairwise_iff_getElem.1 sorted k k' (by omega) h lt
      rw [seen_iff h] at old
      rw [seen_iff (by omega)]
      exact UInt64.le_of_lt (UInt64.lt_of_lt_of_le earlier old)
    · exact old
  · simp only [seen, List.getElem?_eq_none h, Option.any_none, Bool.false_eq_true] at old

/-- If ids increase, the answer is all that is newer. -/
theorem since_eq_filter (sorted : j.events.Pairwise (·.id < ·.id)) (after : EventId) :
    j.since after = j.events.filter (after < ·.id) := by
  have closed : ∀ k k', k ≤ k' → j.seen after k' → j.seen after k := fun _ _ => seen_of_le sorted
  obtain ⟨-, within, before, here⟩ := bisect_boundary closed 0 j.events.length
  rw [Nat.zero_add] at within here
  show j.events.drop (bisect (j.seen after) 0 j.events.length) = _
  generalize bisect (j.seen after) 0 j.events.length = b at within before here ⊢
  have old : (j.events.take b).filter (after < ·.id) = [] := by
    rw [List.filter_eq_nil_iff]
    intro e he
    obtain ⟨k, h, rfl⟩ := List.mem_take_iff_getElem.1 he
    rw [decide_eq_true_eq, UInt64.not_lt]
    exact (seen_iff (by omega)).1 (before k (by omega) (by omega))
  have new : (j.events.drop b).filter (after < ·.id) = j.events.drop b := by
    rw [List.filter_eq_self]
    intro e he
    obtain ⟨k, h, rfl⟩ := List.mem_drop_iff_getElem.1 he
    rw [decide_eq_true_eq, ← UInt64.not_le, ← seen_iff (by omega)]
    intro later
    -- If an event from there on had been seen, so would have been the first of them.
    rw [closed b (b + k) (by omega) later] at here
    exact absurd (here (by omega)) (by decide)
  calc j.events.drop b
      = (j.events.take b).filter (after < ·.id) ++ (j.events.drop b).filter (after < ·.id) := by
        rw [old, new, List.nil_append]
    _ = j.events.filter (after < ·.id) := by
        rw [← List.filter_append, List.take_append_drop]

/-- Of events that are numbered consecutively from `k` the newer ones are those from a
position on. -/
theorem filter_newer {es : List Event}
    (ids : es.map (fun e => e.id.toNat) = List.range' k es.length) (after : EventId) :
    es.filter (after < ·.id) = es.drop (after.toNat + 1 - k) := by
  induction es generalizing k with
  | nil => rw [List.filter_nil, List.drop_nil]
  | cons e es ih =>
    rw [List.map_cons, List.length_cons, List.range'_succ, List.cons.injEq] at ids
    obtain ⟨rfl, ids⟩ := ids
    rw [List.filter_cons, ih ids]
    by_cases newer : after < e.id
    · -- Once an event is newer, so are all that follow.
      have lt := UInt64.lt_iff_toNat_lt.1 newer
      rw [if_pos (decide_eq_true newer), Nat.sub_eq_zero_of_le (by omega),
        Nat.sub_eq_zero_of_le (by omega), List.drop_zero, List.drop_zero]
    · have le := UInt64.le_iff_toNat_le.1 (UInt64.not_lt.1 newer)
      rw [if_neg (by simpa using newer),
        show after.toNat + 1 - e.id.toNat = after.toNat + 1 - (e.id.toNat + 1) + 1 by omega,
        List.drop_succ_cons]

theorem sorted_of_numbered {es : List Event}
    (ids : es.map (fun e => e.id.toNat) = List.range' k es.length) :
    es.Pairwise (·.id < ·.id) := by
  have increasing : (es.map fun e => e.id.toNat).Pairwise (· < ·) := by
    rw [ids]
    exact List.pairwise_lt_range'
  exact (List.pairwise_map.1 increasing).imp UInt64.lt_iff_toNat_lt.2

end Journal

namespace Ledger

variable {limits : Limits} {retention : Nat} {l : Ledger} {past : List Moment}
variable {stretches : List (List Step)} {seen : EventId}

/-- What a run from the start has on file is numbered consecutively. -/
theorem Path.sorted (p : Path (Ledger.fresh limits retention) past l)
    (few : (announced past).length < UInt64.size - 1) :
    l.journal.events.Pairwise (·.id < ·.id) := by
  rw [p.journal.2]
  exact (Journal.sorted_of_numbered (p.numbered few).1).sublist (List.drop_sublist _ _)

/-- Out of reach of an answer is what the subscriber has seen, and what was dropped. -/
theorem Path.since (p : Path (Ledger.fresh limits retention) past l)
    (few : (announced past).length < UInt64.size - 1) (after : EventId) :
    l.journal.since after =
      (announced past).drop (max ((announced past).length - max 1 retention) after.toNat) := by
  rw [Journal.since_eq_filter (p.sorted few), p.journal.2]
  have ids := congrArg (List.drop ((announced past).length - max 1 retention)) (p.numbered few).1
  rw [← List.map_drop, List.drop_range'] at ids
  rw [Journal.filter_newer (k := 1 + ((announced past).length - max 1 retention) * 1)
    (by rw [ids, List.length_drop]), List.drop_drop]
  congr 1
  omega

/-! ### A subscriber -/

/-- The last id that a subscriber has seen after one more answer. -/
def lastSeen (seen : EventId) (answer : List Event) : EventId :=
  (answer.getLast?.map Event.id).getD seen

/-- The answers to a subscriber who polls after each stretch of a run. -/
def polls (l : Ledger) (seen : EventId) : List (List Step) → List (List Event)
  | [] => []
  | stretch :: later =>
    let answer := (l.run stretch).journal.since seen
    answer :: (l.run stretch).polls (lastSeen seen answer) later

/-- What is announced in each stretch of a run. -/
def news (l : Ledger) : List (List Step) → List (List Event)
  | [] => []
  | stretch :: later => announced (l.trace stretch) :: (l.run stretch).news later

/-- How many instructions take effect in each stretch of a run. -/
def acceptances (l : Ledger) : List (List Step) → List Nat
  | [] => []
  | stretch :: later => (accepted (l.trace stretch)).length :: (l.run stretch).acceptances later

theorem flatten_news (l : Ledger) (stretches : List (List Step)) :
    (l.news stretches).flatten = announced (l.trace stretches.flatten) := by
  induction stretches generalizing l with
  | nil => rfl
  | cons stretch later ih =>
    rw [news, List.flatten_cons, List.flatten_cons, trace_append, announced_append, ih]

theorem map_length_news (l : Ledger) (stretches : List (List Step)) :
    (l.news stretches).map List.length = l.acceptances stretches := by
  induction stretches generalizing l with
  | nil => rfl
  | cons stretch later ih =>
    rw [news, acceptances, List.map_cons, (path_trace l stretch).length_announced, ih]

/-- One who has polled has caught up, whether or not events were missed. -/
theorem Path.lastSeen_since (p : Path (Ledger.fresh limits retention) past l)
    (few : (announced past).length < UInt64.size - 1)
    (known : seen.toNat ≤ (announced past).length) :
    (lastSeen seen (l.journal.since seen)).toNat = (announced past).length := by
  have ids := congrArg List.getLast? (p.numbered few).1
  rw [List.getLast?_map, List.getLast?_range'] at ids
  rw [lastSeen, p.since few, List.getLast?_drop]
  by_cases nothing : seen.toNat = (announced past).length
  · rw [if_pos (by omega)]
    exact nothing
  · -- There is something to tell, and the newest event is always on file.
    rw [if_neg (by omega)]
    rw [if_neg (by omega)] at ids
    obtain ⟨e, newest, number⟩ := Option.map_eq_some_iff.1 ids
    rw [newest, Option.map_some, Option.getD_some, number]
    omega

/-- One who has caught up is told the newest part of what comes next, and has then
caught up again. -/
theorem Path.polls_eq (p : Path (Ledger.fresh limits retention) past l)
    (caught : seen.toNat = (announced past).length)
    (few : (announced past).length + (announced (l.trace stretches.flatten)).length <
      UInt64.size - 1) :
    l.polls seen stretches =
      (l.news stretches).map fun es => es.drop (es.length - max 1 retention) := by
  induction stretches generalizing past l seen with
  | nil => rfl
  | cons stretch later ih =>
    have next := p.append (path_trace l stretch)
    have total : (announced (past ++ l.trace stretch)).length =
        (announced past).length + (announced (l.trace stretch)).length := by
      rw [announced_append, List.length_append]
    have split : (announced (l.trace (stretch :: later).flatten)).length =
        (announced (l.trace stretch)).length +
          (announced ((l.run stretch).trace later.flatten)).length := by
      rw [List.flatten_cons, trace_append, announced_append, List.length_append]
    have few' : (announced (past ++ l.trace stretch)).length < UInt64.size - 1 := by omega
    rw [polls, news, List.map_cons]
    congr 1
    · -- What was announced before the stretch has been seen, so the answer is a part of it.
      rw [next.since few', total, announced_append, caught, List.drop_append,
        List.drop_eq_nil_of_le (by omega), List.nil_append]
      congr 1
      omega
    · exact ih next (next.lastSeen_since few' (by omega)) (by omega)

/-- A part from each of some lists is found in what the lists are together. -/
theorem flatten_map_drop_sublist {α : Type} (f : List α → Nat) (xss : List (List α)) :
    (xss.map fun xs => xs.drop (f xs)).flatten.Sublist xss.flatten := by
  induction xss with
  | nil => exact .slnil
  | cons xs xss ih =>
    rw [List.map_cons, List.flatten_cons, List.flatten_cons]
    exact (List.drop_sublist _ _).append ih

/-- **Polling.**  One event is announced for each instruction that takes effect, about the
escrow it names, and numbered from 1.  An answer is what is on file with an id greater than
the one that was asked with; of all newer events that were announced it lacks just those
that have been dropped.  A subscriber who starts from nothing and always asks with the last
id seen is told the newest events of every stretch, none of them twice and all in order; and
if no stretch has more of them than the journal keeps, that is all that was announced. -/
theorem polling_misses_nothing (limits : Limits) (retention : Nat)
    (stretches : List (List Step))
    (few : (accepted ((Ledger.fresh limits retention).trace stretches.flatten)).length <
      UInt64.size - 1) :
    let start := Ledger.fresh limits retention
    let l := start.run stretches.flatten
    let room := max 1 retention
    let effects := accepted (start.trace stretches.flatten)
    let history := announced (start.trace stretches.flatten)
    let dropped := history.take (history.length - room)
    history.length = effects.length ∧
      history.map Event.escrow = effects.map Signed.target ∧
      history.map (fun e => e.id.toNat) = List.range' 1 effects.length ∧
      history = dropped ++ l.journal.events ∧
      history.Pairwise (·.id < ·.id) ∧
      (∀ after, l.journal.since after = l.journal.events.filter (after < ·.id)) ∧
      (∀ after, history.filter (after < ·.id) =
        dropped.filter (after < ·.id) ++ l.journal.since after) ∧
      (start.news stretches).flatten = history ∧
      (start.polls 0 stretches =
        (start.news stretches).map fun es => es.drop (es.length - room)) ∧
      (start.polls 0 stretches).flatten.Sublist history ∧
      ((∀ n ∈ start.acceptances stretches, n ≤ room) →
        (start.polls 0 stretches).flatten = history) := by
  intro start l room effects history dropped
  have path : Path start (start.trace stretches.flatten) l := path_trace start _
  have total : history.length = effects.length := path.length_announced
  have few : history.length < UInt64.size - 1 := by
    rw [total]
    exact few
  have parts : history = dropped ++ l.journal.events := by
    rw [path.journal.2]
    exact (List.take_append_drop _ _).symm
  have since := Journal.since_eq_filter (path.sorted few)
  have flat : (start.news stretches).flatten = history := flatten_news start stretches
  have told : start.polls 0 stretches =
      (start.news stretches).map fun es => es.drop (es.length - room) :=
    Path.nil.polls_eq rfl (by show 0 + history.length < _; omega)
  have numbers := (path.numbered few).1
  refine ⟨total, path.map_escrow_announced (Account.invariant_true limits), total ▸ numbers,
    parts, Journal.sorted_of_numbered numbers, since, fun after => ?_, flat, told, ?_,
    fun often => ?_⟩
  · rw [since, ← List.filter_append, ← parts]
  · rw [told, ← flat]
    exact flatten_map_drop_sublist _ _
  · have all : ∀ es ∈ start.news stretches, es.drop (es.length - room) = es := by
      intro es h
      have enough : es.length ≤ room :=
        often _ (map_length_news start stretches ▸ List.mem_map_of_mem h)
      rw [Nat.sub_eq_zero_of_le enough, List.drop_zero]
    rw [told, List.map_congr_left all, List.map_id', flat]

/-- A subscriber to a journal of one event, who polls after every acceptance. -/
def vigil : List (List Step) :=
  [[.issue (.wallet (.ofSeed 1)) .usdc ⟨100⟩,
      .submit ⟨.ofSeed 1, .create .usdc 0 .unlimited⟩],
    [.submit ⟨.ofSeed 2, .act (.ofSeed 1) .pause⟩],
    [.submitAll
      [⟨.ofSeed 1, .act (.ofSeed 1) (.deposit ⟨60⟩)⟩,
        ⟨.ofSeed 1, .act (.ofSeed 1) (.deposit ⟨60⟩)⟩]],
    [.submit ⟨.ofSeed 1, .act (.ofSeed 1) .pause⟩]]

theorem vigil_told :
    (Ledger.fresh .standard 1).acceptances vigil = [1, 0, 1, 1] ∧
      ((Ledger.fresh .standard 1).polls 0 vigil).flatten =
        announced ((Ledger.fresh .standard 1).trace vigil.flatten) := by
  have three : (accepted ((Ledger.fresh .standard 1).trace vigil.flatten)).length = 3 := by
    decide +kernel
  obtain ⟨-, -, -, -, -, -, -, -, -, -, told⟩ :=
    polling_misses_nothing .standard 1 vigil (by rw [three]; decide)
  have one : (Ledger.fresh .standard 1).acceptances vigil = [1, 0, 1, 1] := by decide +kernel
  exact ⟨one, told (by rw [one]; decide)⟩

end Ledger

end DelegatedEscrow
