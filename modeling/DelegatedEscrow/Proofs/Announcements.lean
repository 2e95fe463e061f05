/-
DelegatedEscrow/Proofs/Announcements.lean

What a run announces.  Every instruction that takes effect is announced by one
event, and nothing else is.  What the event says is settled before it is put on file:
it is made from the transition that was staged, and `announced` collects the events of
a run without a look at any journal.  The journal keeps the newest events only, and

    the journal  =  announced, without all but the last `capacity` events

at every moment of every run.  So a journal that never had to drop an event tells
everything, and one that had to still tells the newest part of it.

The law is carried by `Journal.Extends`, which says how a journal goes on when further
events are announced.  It composes, so it is proved for one moment and holds of every
path; events are numbered consecutively for the same reason.
-/
import DelegatedEscrow.Proofs.History

namespace DelegatedEscrow

namespace Journal

variable {j : Journal} {now : Timestamp} {escrow : Identity} {nonce : Nonce} {what : Payload}

/-- The newest event is always kept. -/
theorem getLast?_record :
    (j.record now escrow nonce what).1.events.getLast? =
      some ⟨j.nextId, now, escrow, nonce, what⟩ := by
  have room := j.capacity_pos
  show ((j.events ++ [_]).drop (j.events.length + 1 - j.capacity)).getLast? = _
  rw [List.getLast?_drop, if_neg (by simp; omega), List.getLast?_concat]

/-! ### How a journal goes on -/

/-- From `j` to `j'` the events `es` are announced: they get the next ids, one after the
other, and of old and new events together the newest are kept. -/
structure Extends (j j' : Journal) (es : List Event) : Prop where
  capacity : j'.capacity = j.capacity
  nextId : j'.nextId = j.nextId + UInt64.ofNat es.length
  ids : es.map Event.id = (List.range es.length).map fun k => j.nextId + UInt64.ofNat k
  events : j'.events = (j.events ++ es).drop ((j.events ++ es).length - j.capacity)

/-- To keep the last `n` of a list that grows, it is enough to have kept the last `n`
so far. -/
theorem drop_append_drop {α : Type} (xs ys : List α) (n : Nat) :
    (xs.drop (xs.length - n) ++ ys).drop ((xs.drop (xs.length - n) ++ ys).length - n) =
      (xs ++ ys).drop ((xs ++ ys).length - n) := by
  rw [← List.drop_append_of_le_length (by omega), List.drop_drop, List.length_drop,
    List.length_append]
  congr 1
  omega

namespace Extends

variable {j' j'' : Journal} {es fs : List Event}

theorem refl (j : Journal) : j.Extends j [] where
  capacity := rfl
  nextId := (UInt64.add_zero _).symm
  ids := rfl
  events := by rw [List.append_nil, Nat.sub_eq_zero_of_le j.length_le, List.drop_zero]

theorem trans (h : j.Extends j' es) (h' : j'.Extends j'' fs) : j.Extends j'' (es ++ fs) where
  capacity := h'.capacity.trans h.capacity
  nextId := by
    rw [h'.nextId, h.nextId, List.length_append, UInt64.ofNat_add, UInt64.add_assoc]
  ids := by
    rw [List.map_append, h.ids, h'.ids, h.nextId, List.length_append, List.range_add,
      List.map_append, List.map_map]
    congr 1
    refine List.map_congr_left fun k _ => ?_
    rw [Function.comp, UInt64.ofNat_add, UInt64.add_assoc]
  events := by
    rw [h'.events, h.capacity, h.events, drop_append_drop, List.append_assoc]

theorem record (j : Journal) (now : Timestamp) (escrow : Identity) (nonce : Nonce)
    (what : Payload) :
    j.Extends (j.record now escrow nonce what).1
      [⟨j.nextId, now, escrow, nonce, what⟩] where
  capacity := rfl
  nextId := rfl
  ids := congrArg (fun id => [id]) (UInt64.add_zero _).symm
  events := by
    rw [List.length_append]
    rfl

end Extends

end Journal

namespace Ledger

variable {l l' : Ledger} {ms past : List Moment} {m : Moment} {s : Step} {t : Transition}
variable {c : Custody} {limits : Limits} {retention : Nat} {P : Account → Prop}

/-- The event that announces a transition. -/
def announcement (l : Ledger) (t : Transition) : Event where
  id := l.journal.nextId
  time := l.now
  escrow := t.account.owner
  nonce := t.account.nonce
  payload := t.payload

/-- The event announced at a moment: that of the transition which was staged, if the
instruction took effect. -/
def Moment.announced? (m : Moment) : Option Event :=
  m.accepted?.bind fun i => (m.before.stage i).toOption.map m.before.announcement

/-- The events announced, in order. -/
def announced (ms : List Moment) : List Event := ms.filterMap Moment.announced?

theorem announced_append (ms ns : List Moment) :
    announced (ms ++ ns) = announced ms ++ announced ns := List.filterMap_append

theorem accepted_concat : accepted (past ++ [m]) = accepted past ++ m.accepted?.toList :=
  filterMap_concat _ _ _

theorem announced_concat : announced (past ++ [m]) = announced past ++ m.announced?.toList :=
  filterMap_concat _ _ _

theorem announced?_of_none (none : m.accepted? = none) : m.announced? = .none := by
  rw [Moment.announced?, none, Option.bind_none]

theorem announced?_of_staged {i : Signed} (accepted : m.accepted? = some i)
    (staged : m.before.stage i = .ok t) : m.announced? = some (m.before.announcement t) := by
  rw [Moment.announced?, accepted, Option.bind_some, staged]
  rfl

/-- The journal agrees: when an instruction has taken effect, the newest event on file is
the one that announces it. -/
theorem Moment.getLast?_after {i : Signed} (single : m.step.Single)
    (accepted : m.accepted? = some i) :
    m.after.journal.events.getLast? = m.announced? := by
  cases Moment.outcome single with
  | nothing none _ => cases accepted.symm.trans none
  | effect j t c _ accepted' staged _ after =>
    rw [announced?_of_staged accepted' staged, after]
    exact Journal.getLast?_record

theorem announced?_submit_of_error {i : Signed} {f : Fault} (e : l.submit i = (l', .error f)) :
    (⟨l, .submit i⟩ : Moment).announced? = none :=
  announced?_of_none (Moment.accepted?_of_error e)

/-- As the journal agrees, what is announced can be read off the ledger that was written. -/
theorem announced?_submit_of_ok {i : Signed} {r : Receipt}
    (e : l.submit i = (l.written c t, .ok r)) :
    (⟨l, .submit i⟩ : Moment).announced? = some (l.announcement t) := by
  have single : (⟨l, .submit i⟩ : Moment).step.Single := trivial
  have after : (⟨l, .submit i⟩ : Moment).after = l.written c t := congrArg Prod.fst e
  rw [← Moment.getLast?_after single (Moment.accepted?_of_ok e), after]
  exact Journal.getLast?_record

/-- A moment goes on with the journal by what it announces. -/
theorem Moment.extends (single : m.step.Single) :
    m.before.journal.Extends m.after.journal m.announced?.toList := by
  cases Moment.outcome single with
  | nothing none kept =>
    rw [announced?_of_none none, kept.2]
    exact .refl _
  | effect i t c _ accepted staged _ after =>
    rw [announced?_of_staged accepted staged, after]
    exact .record _ _ _ _ _

theorem Path.extends (p : Path l ms l') : l.journal.Extends l'.journal (announced ms) := by
  induction p with
  | nil => exact .refl _
  | @cons l l' s ms single _ ih =>
    have first : l.journal.Extends (l.step s).journal (⟨l, s⟩ : Moment).announced?.toList :=
      Moment.extends (m := ⟨l, s⟩) single
    rw [announced, filterMap_cons_toList]
    exact first.trans ih

/-- One event for each instruction that takes effect. -/
theorem Path.length_announced (p : Path l ms l') :
    (announced ms).length = (accepted ms).length := by
  induction p with
  | nil => rfl
  | @cons l l' s ms single _ ih =>
    have here : (⟨l, s⟩ : Moment).announced?.toList.length =
        (⟨l, s⟩ : Moment).accepted?.toList.length := by
      cases Moment.outcome (m := ⟨l, s⟩) single with
      | nothing none _ => rw [announced?_of_none none, none]; rfl
      | effect i t c _ accepted staged _ _ =>
        rw [announced?_of_staged accepted staged, accepted]
        rfl
    rw [announced, accepted, filterMap_cons_toList, filterMap_cons_toList, List.length_append,
      List.length_append, here]
    exact congrArg _ ih

/-- **The journal** of a run is the newest part of what was announced. -/
theorem Path.journal (p : Path (Ledger.fresh limits retention) past l) :
    l.journal.capacity = max 1 retention ∧
      l.journal.events =
        (announced past).drop ((announced past).length - max 1 retention) :=
  ⟨p.extends.capacity, p.extends.events⟩

/-- One event for each instruction that takes effect, and about the escrow that it
names. -/
theorem Path.map_escrow_announced (inv : Account.Invariant limits P)
    (p : Path (Ledger.fresh limits retention) past l) :
    (announced past).map Event.escrow = (accepted past).map Signed.target := by
  refine (Path.grow_records
    (Q := fun past _ => (announced past).map Event.escrow = (accepted past).map Signed.target)
    inv rfl ?_ p).2
  intro past l s single records matched
  have outcome : Moment.Outcome ⟨l, s⟩ := Moment.outcome single
  rw [announced_concat, accepted_concat, List.map_append, List.map_append, matched]
  cases outcome with
  | nothing none _ => rw [announced?_of_none none, none]; rfl
  | effect i t c _ accepted staged _ _ =>
    rw [announced?_of_staged accepted staged, accepted]
    show _ ++ [t.account.owner] = _ ++ [i.target]
    rw [records.target staged]

/-- A journal that had to drop nothing holds all that was announced. -/
theorem Path.journal_of_kept (inv : Account.Invariant limits P)
    (p : Path (Ledger.fresh limits retention) past l)
    (kept : (accepted past).length ≤ max 1 retention) : l.journal.events = announced past := by
  have matched := congrArg List.length (p.map_escrow_announced inv)
  rw [List.length_map, List.length_map] at matched
  rw [p.journal.2, matched, Nat.sub_eq_zero_of_le kept, List.drop_zero]

end Ledger

end DelegatedEscrow
