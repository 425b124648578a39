import Mathlib.Data.List.Pairwise
import Mathlib.Order.Basic

/-!
# Event queues

A discrete-event simulator keeps the events to come, each with the time at
which it is due and a number of its own. The event that runs next is the
earliest one and, among events due at the same time, the one that was scheduled
first. Whoever schedules an event gets a handle, which later cancels the event
or asks whether it is still to come.
-/

/-- Nanoseconds in some milliseconds. -/
def milliSeconds (ms : Nat) : Nat := ms * 1000000

/-- Whole milliseconds in some nanoseconds. -/
def getMilliSeconds (ns : Nat) : Nat := ns / 1000000

structure Event (α : Type) where
  uid : Nat
  ts : Nat
  action : α
  deriving DecidableEq, Repr

/-- The handle of an event. A handle that was never assigned is `none`. -/
abbrev EventId := Option Nat

@[ext] structure EventQueue (α : Type) where
  now : Nat
  nextUid : Nat
  pending : List (Event α)
  uid_lt : ∀ e ∈ pending, e.uid < nextUid
  uids_distinct : pending.Pairwise fun e e' => e.uid ≠ e'.uid
  now_le : ∀ e ∈ pending, now ≤ e.ts

namespace EventQueue

variable {α : Type}

def empty : EventQueue α where
  now := 0
  nextUid := 0
  pending := []
  uid_lt := fun _ he => absurd he List.not_mem_nil
  uids_distinct := .nil
  now_le := fun _ he => absurd he List.not_mem_nil

@[simp] theorem empty_pending : (empty : EventQueue α).pending = [] := rfl

/-- The handle that the next event will get. -/
def nextId (q : EventQueue α) : EventId := some q.nextUid

/-- Let an event be due after a delay. Its handle is `nextId`. -/
def schedule (q : EventQueue α) (delay : Nat) (action : α) : EventQueue α where
  now := q.now
  nextUid := q.nextUid + 1
  pending := q.pending ++ [⟨q.nextUid, q.now + delay, action⟩]
  uid_lt := by
    intro e he
    rcases List.mem_append.mp he with he | he
    · exact Nat.lt_succ_of_lt (q.uid_lt e he)
    · obtain rfl := List.mem_singleton.mp he
      exact Nat.lt_succ_self _
  uids_distinct := by
    refine List.pairwise_append.mpr ⟨q.uids_distinct, List.pairwise_singleton .., ?_⟩
    intro e he e' he'
    obtain rfl := List.mem_singleton.mp he'
    exact Nat.ne_of_lt (q.uid_lt e he)
  now_le := by
    intro e he
    rcases List.mem_append.mp he with he | he
    · exact q.now_le e he
    · obtain rfl := List.mem_singleton.mp he
      exact Nat.le_add_right ..

/-- Events that are still to come after some are dropped. -/
def keep (q : EventQueue α) (p : Event α → Bool) : EventQueue α where
  now := q.now
  nextUid := q.nextUid
  pending := q.pending.filter p
  uid_lt := fun e he => q.uid_lt e (List.mem_filter.mp he).1
  uids_distinct := q.uids_distinct.filter p
  now_le := fun e he => q.now_le e (List.mem_filter.mp he).1

/-- Drop the event of a handle, if it is still to come. -/
def cancel (q : EventQueue α) (id : EventId) : EventQueue α :=
  q.keep fun e => decide (some e.uid ≠ id)

/-- The event of this handle is not to come any more. -/
def isExpired (q : EventQueue α) (id : EventId) : Bool :=
  q.pending.all fun e => decide (some e.uid ≠ id)

/-- No event is due before this time. -/
def quietUntil (q : EventQueue α) (t : Nat) : Prop :=
  q.now ≤ t ∧ ∀ e ∈ q.pending, t ≤ e.ts

instance (q : EventQueue α) (t : Nat) : Decidable (q.quietUntil t) :=
  inferInstanceAs (Decidable (_ ∧ _))

/-- Let time pass, without an event. -/
def advance (q : EventQueue α) (t : Nat) (h : q.quietUntil t) : EventQueue α :=
  { q with now := t, now_le := h.2 }

/-- Let time pass up to `t`, but not past the next event. -/
def advance? (q : EventQueue α) (t : Nat) : Option (EventQueue α) :=
  if h : q.quietUntil t then some (q.advance t h) else none

/-- The order in which events run. -/
def runsBefore (e e' : Event α) : Bool :=
  decide (e.ts < e'.ts) || decide (e.ts = e'.ts) && decide (e.uid ≤ e'.uid)

/-- The event that runs next. -/
def next? (q : EventQueue α) : Option (Event α) :=
  q.pending.find? fun e => q.pending.all (runsBefore e)

theorem next?_mem {q : EventQueue α} {e : Event α} (h : q.next? = some e) : e ∈ q.pending :=
  List.mem_of_find?_eq_some h

theorem ts_le_of_runsBefore {e e' : Event α} (h : runsBefore e e' = true) : e.ts ≤ e'.ts := by
  simp only [runsBefore, Bool.or_eq_true, Bool.and_eq_true, decide_eq_true_eq] at h
  rcases h with h | h
  · exact Nat.le_of_lt h
  · exact Nat.le_of_eq h.1

theorem next?_quiet {q : EventQueue α} {e : Event α} (h : q.next? = some e) :
    q.quietUntil e.ts := by
  refine ⟨q.now_le e (next?_mem h), ?_⟩
  intro e' he'
  have hfirst := List.find?_some h
  exact ts_le_of_runsBefore (List.all_eq_true.mp hfirst e' he')

/-- Take the event that runs next out of the queue. -/
def pop (q : EventQueue α) : Option (Event α × EventQueue α) :=
  match h : q.next? with
  | none => none
  | some e => some (e, (q.advance e.ts (next?_quiet h)).cancel (some e.uid))

theorem runsBefore_iff {e e' : Event α} : runsBefore e e' = true ↔
    e.ts < e'.ts ∨ (e.ts = e'.ts ∧ e.uid ≤ e'.uid) := by
  simp [runsBefore]

theorem exists_first {l : List (Event α)} (h : l ≠ []) :
    ∃ e ∈ l, ∀ e' ∈ l, runsBefore e e' = true := by
  induction l with
  | nil => exact absurd rfl h
  | cons a l ih =>
      by_cases hl : l = []
      · subst hl
        refine ⟨a, List.mem_singleton_self a, ?_⟩
        intro e' he'
        obtain rfl := List.mem_singleton.mp he'
        exact runsBefore_iff.mpr (.inr ⟨rfl, Nat.le_refl _⟩)
      · obtain ⟨m, hm, hfirst⟩ := ih hl
        by_cases ham : runsBefore a m = true
        · refine ⟨a, List.mem_cons_self, ?_⟩
          intro e' he'
          rcases List.mem_cons.mp he' with rfl | he'
          · exact runsBefore_iff.mpr (.inr ⟨rfl, Nat.le_refl _⟩)
          · have hme := runsBefore_iff.mp (hfirst e' he')
            rw [runsBefore_iff] at ham ⊢
            omega
        · refine ⟨m, List.mem_cons_of_mem _ hm, ?_⟩
          intro e' he'
          rcases List.mem_cons.mp he' with rfl | he'
          · rw [runsBefore_iff] at ham ⊢
            omega
          · exact hfirst e' he'

/-- An event runs as long as one is to come. -/
theorem exists_pop {q : EventQueue α} (h : q.pending ≠ []) : ∃ e q', q.pop = some (e, q') := by
  obtain ⟨e, he, hfirst⟩ := exists_first h
  have hsome : q.next?.isSome = true :=
    List.find?_isSome.mpr ⟨e, he, List.all_eq_true.mpr hfirst⟩
  unfold pop
  split
  · rename_i hnone
    rw [hnone] at hsome
    exact absurd hsome Bool.false_ne_true
  · exact ⟨_, _, rfl⟩

/-! ## Pending events -/

@[simp] theorem mem_schedule {q : EventQueue α} {delay : Nat} {action : α} {e : Event α} :
    e ∈ (q.schedule delay action).pending ↔
      e ∈ q.pending ∨ e = ⟨q.nextUid, q.now + delay, action⟩ := by
  simp [schedule]

@[simp] theorem mem_cancel {q : EventQueue α} {id : EventId} {e : Event α} :
    e ∈ (q.cancel id).pending ↔ e ∈ q.pending ∧ some e.uid ≠ id := by
  simp [cancel, keep]

@[simp] theorem cancel_none (q : EventQueue α) : q.cancel none = q := by
  ext1
  · rfl
  · rfl
  · simp [cancel, keep]

@[simp] theorem advance_pending {q : EventQueue α} {t : Nat} (h : q.quietUntil t) :
    (q.advance t h).pending = q.pending := rfl

@[simp] theorem advance_now {q : EventQueue α} {t : Nat} (h : q.quietUntil t) :
    (q.advance t h).now = t := rfl

theorem advance?_eq_some {q q' : EventQueue α} {t : Nat} (h : q.advance? t = some q') :
    q'.pending = q.pending ∧ q'.now = t ∧ q'.nextUid = q.nextUid := by
  unfold advance? at h
  split at h
  · obtain rfl := Option.some.inj h
    exact ⟨rfl, rfl, rfl⟩
  · exact absurd h nofun

theorem le_of_advance? {q q' : EventQueue α} {t : Nat} (h : q.advance? t = some q') :
    q.now ≤ t := by
  unfold advance? at h
  split at h
  · rename_i hquiet
    exact hquiet.1
  · exact absurd h nofun

@[simp] theorem isExpired_iff {q : EventQueue α} {id : EventId} :
    q.isExpired id = true ↔ ∀ e ∈ q.pending, some e.uid ≠ id := by
  simp [isExpired]

theorem cancel_of_isExpired {q : EventQueue α} {id : EventId} (h : q.isExpired id = true) :
    q.cancel id = q := by
  rw [isExpired_iff] at h
  ext1
  · rfl
  · rfl
  · simpa [cancel, keep] using h

/-- A number belongs to one event. -/
theorem eq_of_uid {q : EventQueue α} {e e' : Event α} (he : e ∈ q.pending)
    (he' : e' ∈ q.pending) (h : e.uid = e'.uid) : e = e' := by
  by_contra hne
  have : Std.Symm fun e e' : Event α => e.uid ≠ e'.uid := ⟨fun _ _ hd => hd.symm⟩
  exact q.uids_distinct.forall he he' hne h

/-- A pending event does not have the next handle. -/
theorem uid_ne_nextId {q : EventQueue α} {e : Event α} (he : e ∈ q.pending) :
    some e.uid ≠ q.nextId := by
  intro h
  exact Nat.ne_of_lt (q.uid_lt e he) (Option.some.inj h)

/-- Popping takes out one event and leaves the others. -/
theorem pop_eq_some {q q' : EventQueue α} {e : Event α} (h : q.pop = some (e, q')) :
    e ∈ q.pending ∧ q'.now = e.ts ∧ ∀ e', e' ∈ q'.pending ↔ e' ∈ q.pending ∧ e' ≠ e := by
  unfold pop at h
  split at h
  · exact absurd h nofun
  · rename_i e₁ hnext
    obtain ⟨rfl, rfl⟩ := Prod.mk.inj (Option.some.inj h)
    have hmem := next?_mem hnext
    refine ⟨hmem, rfl, ?_⟩
    intro e'
    rw [mem_cancel, advance_pending]
    refine and_congr_right fun he' => not_congr ?_
    constructor
    · exact fun heq => eq_of_uid he' hmem (Option.some.inj heq)
    · exact fun heq => congrArg (fun e => some (Event.uid e)) heq

/-- Nothing is popped from an empty queue. -/
theorem pop_of_empty {q q' : EventQueue α} {e : Event α} (hempty : q.pending = []) :
    q.pop ≠ some (e, q') := by
  intro hpop
  have hmem := (pop_eq_some hpop).1
  rw [hempty] at hmem
  exact List.not_mem_nil hmem

theorem schedule_pending (q : EventQueue α) (delay : Nat) (action : α) :
    (q.schedule delay action).pending = q.pending ++ [⟨q.nextUid, q.now + delay, action⟩] :=
  rfl

/-- The last pending event runs. -/
theorem pop_singleton {q q' : EventQueue α} {e e' : Event α} (h : q.pending = [e])
    (hpop : q.pop = some (e', q')) : e' = e ∧ q'.now = e.ts ∧ q'.pending = [] := by
  obtain ⟨hmem, hnow, hrest⟩ := pop_eq_some hpop
  rw [h] at hmem
  obtain rfl := List.mem_singleton.mp hmem
  refine ⟨rfl, hnow, List.eq_nil_iff_forall_not_mem.mpr ?_⟩
  intro e hmem
  obtain ⟨hmem, hne⟩ := (hrest e).mp hmem
  rw [h] at hmem
  exact hne (List.mem_singleton.mp hmem)

@[simp] theorem schedule_nextUid (q : EventQueue α) (delay : Nat) (action : α) :
    (q.schedule delay action).nextUid = q.nextUid + 1 := rfl

@[simp] theorem cancel_nextUid (q : EventQueue α) (id : EventId) :
    (q.cancel id).nextUid = q.nextUid := rfl

theorem pop_nextUid {q q' : EventQueue α} {e : Event α} (h : q.pop = some (e, q')) :
    q'.nextUid = q.nextUid := by
  unfold pop at h
  split at h
  · exact absurd h nofun
  · obtain ⟨_, rfl⟩ := Prod.mk.inj (Option.some.inj h)
    rfl

/-! ## Handles -/

/-- An event with this action is to come. -/
def IsPending (q : EventQueue α) (action : α) : Prop :=
  ∃ e ∈ q.pending, e.action = action

/-- The handle is the one of an event with this action, or of none that is pending. -/
structure Refers (q : EventQueue α) (id : EventId) (action : α) : Prop where
  fresh : ∀ uid, id = some uid → uid < q.nextUid
  action_eq : ∀ e ∈ q.pending, some e.uid = id → e.action = action

/-- The handle is the one of the only pending event with this action, if there is
such an event, and of no other event. -/
structure Tracks (q : EventQueue α) (id : EventId) (action : α) : Prop where
  fresh : ∀ uid, id = some uid → uid < q.nextUid
  action_iff : ∀ e ∈ q.pending, e.action = action ↔ some e.uid = id

variable {q q' : EventQueue α} {id id' : EventId} {action action' : α} {delay : Nat}
  {e : Event α}

theorem Refers.none (q : EventQueue α) (action : α) : q.Refers none action where
  fresh := nofun
  action_eq := fun _ _ => nofun

theorem Refers.of_subset (h : q.Refers id action) (hnext : q.nextUid ≤ q'.nextUid)
    (hsub : ∀ e ∈ q'.pending, e ∈ q.pending) : q'.Refers id action where
  fresh := fun uid huid => Nat.lt_of_lt_of_le (h.fresh uid huid) hnext
  action_eq := fun e he => h.action_eq e (hsub e he)

theorem Refers.schedule (h : q.Refers id action) :
    (q.schedule delay action').Refers id action where
  fresh := fun uid huid => Nat.lt_succ_of_lt (h.fresh uid huid)
  action_eq := by
    intro e he huid
    rcases mem_schedule.mp he with he | rfl
    · exact h.action_eq e he huid
    · exact absurd (h.fresh _ huid.symm) (Nat.lt_irrefl _)

theorem Refers.of_schedule (q : EventQueue α) (delay : Nat) (action : α) :
    (q.schedule delay action).Refers q.nextId action where
  fresh := by
    rintro _ ⟨⟩
    exact Nat.lt_succ_self _
  action_eq := by
    intro e he huid
    rcases mem_schedule.mp he with he | rfl
    · exact absurd huid (uid_ne_nextId he)
    · rfl

/-- Cancelling a handle leaves events with another action. -/
theorem Refers.isPending_cancel (h : q.Refers id action) (hne : action' ≠ action) :
    (q.cancel id).IsPending action' ↔ q.IsPending action' := by
  constructor
  · rintro ⟨e, he, ha⟩
    exact ⟨e, (mem_cancel.mp he).1, ha⟩
  · rintro ⟨e, he, rfl⟩
    exact ⟨e, mem_cancel.mpr ⟨he, fun hid => hne (h.action_eq e he hid)⟩, rfl⟩

theorem Tracks.refers (h : q.Tracks id action) : q.Refers id action where
  fresh := h.fresh
  action_eq := fun e he => (h.action_iff e he).mpr

theorem Tracks.of_absent (h : ¬ q.IsPending action) : q.Tracks none action where
  fresh := nofun
  action_iff := fun e he => iff_of_false (fun ha => h ⟨e, he, ha⟩) nofun

theorem Tracks.isExpired_iff (h : q.Tracks id action) :
    q.isExpired id = true ↔ ¬ q.IsPending action := by
  rw [EventQueue.isExpired_iff]
  constructor
  · rintro hall ⟨e, he, ha⟩
    exact hall e he ((h.action_iff e he).mp ha)
  · intro hnone e he hid
    exact hnone ⟨e, he, (h.action_iff e he).mpr hid⟩

/-- Events that stay keep their handles. -/
theorem Tracks.of_subset (h : q.Tracks id action) (hnext : q.nextUid ≤ q'.nextUid)
    (hsub : ∀ e ∈ q'.pending, e ∈ q.pending) : q'.Tracks id action where
  fresh := fun uid huid => Nat.lt_of_lt_of_le (h.fresh uid huid) hnext
  action_iff := fun e he => h.action_iff e (hsub e he)

theorem Tracks.cancel (h : q.Tracks id action) : (q.cancel id').Tracks id action :=
  h.of_subset (Nat.le_refl _) fun _ he => (mem_cancel.mp he).1

theorem Tracks.pop (h : q.Tracks id action) (hpop : q.pop = some (e, q')) :
    q'.Tracks id action :=
  h.of_subset (Nat.le_of_eq (pop_nextUid hpop).symm)
    fun e' he' => (((pop_eq_some hpop).2.2 e').mp he').1

/-- Another event is scheduled. -/
theorem Tracks.schedule (h : q.Tracks id action) (hne : action' ≠ action) :
    (q.schedule delay action').Tracks id action where
  fresh := fun uid huid => Nat.lt_succ_of_lt (h.fresh uid huid)
  action_iff := by
    intro e he
    rcases mem_schedule.mp he with he | rfl
    · exact h.action_iff e he
    · refine iff_of_false hne ?_
      exact fun huid => Nat.lt_irrefl _ (h.fresh _ huid.symm)

/-- An event with this action is scheduled, and was not pending. -/
theorem Tracks.of_schedule (h : ¬ q.IsPending action) :
    (q.schedule delay action).Tracks q.nextId action where
  fresh := by
    rintro _ ⟨⟩
    exact Nat.lt_succ_self _
  action_iff := by
    intro e he
    rcases mem_schedule.mp he with he | rfl
    · exact iff_of_false (fun ha => h ⟨e, he, ha⟩) (uid_ne_nextId he)
    · exact iff_of_true rfl rfl

/-- Cancelling a handle removes the event that it tracks. -/
theorem Tracks.not_pending (h : q.Tracks id action) : ¬ (q.cancel id).IsPending action := by
  rintro ⟨e, he, ha⟩
  obtain ⟨he, hid⟩ := mem_cancel.mp he
  exact hid ((h.action_iff e he).mp ha)

/-- An event that has run is not pending any more. -/
theorem Tracks.not_pending_of_pop (h : q.Tracks id e.action) (hpop : q.pop = some (e, q')) :
    ¬ q'.IsPending e.action := by
  obtain ⟨hmem, _, hrest⟩ := pop_eq_some hpop
  rintro ⟨e', he', ha⟩
  obtain ⟨he', hne⟩ := (hrest e').mp he'
  have hid := (h.action_iff e' he').mp ha
  have hid' := (h.action_iff e hmem).mp rfl
  exact hne (eq_of_uid he' hmem (Option.some.inj (hid.trans hid'.symm)))

theorem isPending_schedule : (q.schedule delay action').IsPending action ↔
    q.IsPending action ∨ action' = action := by
  constructor
  · rintro ⟨e, he, ha⟩
    rcases mem_schedule.mp he with he | rfl
    · exact .inl ⟨e, he, ha⟩
    · exact .inr ha
  · rintro (⟨e, he, ha⟩ | rfl)
    · exact ⟨e, mem_schedule.mpr (.inl he), ha⟩
    · exact ⟨_, mem_schedule.mpr (.inr rfl), rfl⟩

/-- The handle is the one of no pending event, or of the only one with this action. -/
structure Sole (q : EventQueue α) (id : EventId) (action : α) : Prop where
  fresh : ∀ uid, id = some uid → uid < q.nextUid
  only : ∀ e ∈ q.pending, some e.uid = id → ∀ e' ∈ q.pending, e'.action = action ↔ e' = e

theorem Sole.none (q : EventQueue α) (action : α) : q.Sole none action where
  fresh := nofun
  only := fun _ _ => nofun

theorem Tracks.sole (h : q.Tracks id action) : q.Sole id action where
  fresh := h.fresh
  only := by
    intro e he hid e' he'
    rw [h.action_iff e' he', ← hid]
    constructor
    · exact fun huid => eq_of_uid he' he (Option.some.inj huid)
    · rintro rfl
      rfl

theorem Sole.of_subset (h : q.Sole id action) (hnext : q.nextUid ≤ q'.nextUid)
    (hsub : ∀ e ∈ q'.pending, e ∈ q.pending) : q'.Sole id action where
  fresh := fun uid huid => Nat.lt_of_lt_of_le (h.fresh uid huid) hnext
  only := fun e he hid e' he' => h.only e (hsub e he) hid e' (hsub e' he')

/-- Another event is scheduled. -/
theorem Sole.schedule (h : q.Sole id action) (hne : action' ≠ action) :
    (q.schedule delay action').Sole id action where
  fresh := fun uid huid => Nat.lt_succ_of_lt (h.fresh uid huid)
  only := by
    intro e he hid e' he'
    rcases mem_schedule.mp he with he | rfl
    · rcases mem_schedule.mp he' with he' | rfl
      · exact h.only e he hid e' he'
      · refine iff_of_false hne ?_
        rintro rfl
        exact Nat.lt_irrefl _ (q.uid_lt _ he)
    · exact absurd (h.fresh _ hid.symm) (Nat.lt_irrefl _)

theorem isExpired_schedule (hfresh : ∀ uid, id = some uid → uid < q.nextUid) :
    (q.schedule delay action).isExpired id = q.isExpired id := by
  rw [Bool.eq_iff_iff, isExpired_iff, isExpired_iff]
  constructor
  · intro hall e he
    exact hall e (mem_schedule.mpr (.inl he))
  · intro hall e he hid
    rcases mem_schedule.mp he with he | rfl
    · exact hall e he hid
    · exact absurd (hfresh _ hid.symm) (Nat.lt_irrefl _)

/-- An event with this action is scheduled after the one of the handle has run. -/
theorem Sole.schedule_expired (h : q.Sole id action) (hexpired : q.isExpired id = true) :
    (q.schedule delay action).Sole id action where
  fresh := fun uid huid => Nat.lt_succ_of_lt (h.fresh uid huid)
  only := by
    intro e he hid
    rw [← isExpired_schedule h.fresh, isExpired_iff] at hexpired
    exact absurd hid (hexpired e he)

/-- When an event with this action runs, the handle has expired. -/
theorem Sole.isExpired_of_pop (h : q.Sole id e.action) (hpop : q.pop = some (e, q')) :
    q'.isExpired id = true := by
  obtain ⟨hmem, _, hrest⟩ := pop_eq_some hpop
  rw [isExpired_iff]
  intro e' he' hid
  obtain ⟨he', hne⟩ := (hrest e').mp he'
  exact hne (((h.only e' he' hid) e hmem).mp rfl).symm

/-- A handle that has not expired is the one of a pending event. -/
theorem exists_of_running (h : q.isExpired id = false) : ∃ e ∈ q.pending, some e.uid = id := by
  by_contra hnone
  apply absurd h
  rw [Bool.not_eq_false, isExpired_iff]
  exact fun e he hid => hnone ⟨e, he, hid⟩

/-- Cancelling a handle that has not expired removes the only event with this action. -/
theorem Sole.not_pending (h : q.Sole id action) (hrunning : q.isExpired id = false) :
    ¬ (q.cancel id).IsPending action := by
  rintro ⟨e, he, ha⟩
  obtain ⟨he, hne⟩ := mem_cancel.mp he
  obtain ⟨e', he', hid⟩ := exists_of_running hrunning
  obtain rfl := (h.only e' he' hid e he).mp ha
  exact hne hid

/-- Running an event leaves events with another action. -/
theorem isPending_pop (hpop : q.pop = some (e, q')) (hne : action ≠ e.action) :
    q'.IsPending action ↔ q.IsPending action := by
  obtain ⟨_, _, hrest⟩ := pop_eq_some hpop
  constructor
  · rintro ⟨e', he', ha⟩
    exact ⟨e', ((hrest e').mp he').1, ha⟩
  · rintro ⟨e', he', rfl⟩
    exact ⟨e', (hrest e').mpr ⟨he', fun heq => hne (congrArg Event.action heq)⟩, rfl⟩

/-! ## Kinds of events -/

/-- An event of this kind is to come. -/
def AnyPending (q : EventQueue α) (kind : α → Prop) : Prop := ∃ e ∈ q.pending, kind e.action

/-- The handle is the one of the only pending event of a kind, if there is one, and of no
other event. -/
structure Follows (q : EventQueue α) (id : EventId) (kind : α → Prop) : Prop where
  fresh : ∀ uid, id = some uid → uid < q.nextUid
  kind_iff : ∀ e ∈ q.pending, kind e.action ↔ some e.uid = id

variable {kind : α → Prop}

theorem Follows.of_subset (h : q.Follows id kind) (hnext : q.nextUid ≤ q'.nextUid)
    (hsub : ∀ e ∈ q'.pending, e ∈ q.pending) : q'.Follows id kind where
  fresh := fun uid huid => Nat.lt_of_lt_of_le (h.fresh uid huid) hnext
  kind_iff := fun e he => h.kind_iff e (hsub e he)

theorem Follows.cancel (h : q.Follows id kind) : (q.cancel id').Follows id kind :=
  h.of_subset (Nat.le_refl _) fun _ he => (mem_cancel.mp he).1

theorem Follows.pop (h : q.Follows id kind) (hpop : q.pop = some (e, q')) :
    q'.Follows id kind :=
  h.of_subset (Nat.le_of_eq (pop_nextUid hpop).symm)
    fun e' he' => (((pop_eq_some hpop).2.2 e').mp he').1

/-- An event of another kind is scheduled. -/
theorem Follows.schedule (h : q.Follows id kind) (hother : ¬kind action') :
    (q.schedule delay action').Follows id kind where
  fresh := fun uid huid => Nat.lt_succ_of_lt (h.fresh uid huid)
  kind_iff := by
    intro e he
    rcases mem_schedule.mp he with he | rfl
    · exact h.kind_iff e he
    · refine iff_of_false hother ?_
      exact fun huid => Nat.lt_irrefl _ (h.fresh _ huid.symm)

/-- An event of this kind is scheduled while there is none. -/
theorem Follows.of_schedule (h : ¬q.AnyPending kind) (hkind : kind action) :
    (q.schedule delay action).Follows q.nextId kind where
  fresh := by
    rintro _ ⟨⟩
    exact Nat.lt_succ_self _
  kind_iff := by
    intro e he
    rcases mem_schedule.mp he with he | rfl
    · exact iff_of_false (fun ha => h ⟨e, he, ha⟩) (uid_ne_nextId he)
    · exact iff_of_true hkind rfl

theorem Follows.not_pending (h : q.Follows id kind) : ¬(q.cancel id).AnyPending kind := by
  rintro ⟨e, he, ha⟩
  obtain ⟨he, hid⟩ := mem_cancel.mp he
  exact hid ((h.kind_iff e he).mp ha)

/-- The only event of the kind has run. -/
theorem Follows.not_pending_of_pop (h : q.Follows id kind) (hkind : kind e.action)
    (hpop : q.pop = some (e, q')) : ¬q'.AnyPending kind := by
  obtain ⟨hmem, _, hrest⟩ := pop_eq_some hpop
  rintro ⟨e', he', ha⟩
  obtain ⟨he', hne⟩ := (hrest e').mp he'
  have hid := (h.kind_iff e' he').mp ha
  have hid' := (h.kind_iff e hmem).mp hkind
  exact hne (eq_of_uid he' hmem (Option.some.inj (hid.trans hid'.symm)))

theorem AnyPending.of_subset (h : q'.AnyPending kind)
    (hsub : ∀ e ∈ q'.pending, e ∈ q.pending) : q.AnyPending kind := by
  obtain ⟨e, he, ha⟩ := h
  exact ⟨e, hsub e he, ha⟩

theorem anyPending_schedule : (q.schedule delay action).AnyPending kind ↔
    q.AnyPending kind ∨ kind action := by
  constructor
  · rintro ⟨e, he, ha⟩
    rcases mem_schedule.mp he with he | rfl
    · exact .inl ⟨e, he, ha⟩
    · exact .inr ha
  · rintro (⟨e, he, ha⟩ | ha)
    · exact ⟨e, mem_schedule.mpr (.inl he), ha⟩
    · exact ⟨_, mem_schedule.mpr (.inr rfl), ha⟩

/-- Running an event leaves those of another kind. -/
theorem anyPending_pop (hpop : q.pop = some (e, q')) (hother : ¬kind e.action) :
    q'.AnyPending kind ↔ q.AnyPending kind := by
  obtain ⟨_, _, hrest⟩ := pop_eq_some hpop
  constructor
  · exact fun h => h.of_subset fun e' he' => ((hrest e').mp he').1
  · rintro ⟨e', he', ha⟩
    refine ⟨e', (hrest e').mpr ⟨he', ?_⟩, ha⟩
    rintro rfl
    exact hother ha

/-- The event that is due before all others runs, and leaves them as they are. -/
theorem pop_of_earliest (hmem : e ∈ q.pending)
    (hfirst : ∀ e' ∈ q.pending, e' ≠ e → e.ts < e'.ts) :
    ∃ q', q.pop = some (e, q') ∧ q'.now = e.ts ∧
      q'.pending = q.pending.filter fun e' => decide (some e'.uid ≠ some e.uid) := by
  obtain ⟨e₁, q', hpop⟩ := exists_pop (List.ne_nil_of_mem hmem)
  have hnow := (pop_eq_some hpop).2.1
  unfold pop at hpop
  split at hpop
  · cases hpop
  · rename_i e₂ hnext
    obtain ⟨rfl, rfl⟩ := Prod.mk.inj (Option.some.inj hpop)
    have hle := (next?_quiet hnext).2 e hmem
    have hsame : e₂ = e := by
      by_contra hne
      exact Nat.lt_irrefl _ (Nat.lt_of_lt_of_le (hfirst e₂ (next?_mem hnext) hne) hle)
    subst hsame
    refine ⟨_, ?_, hnow, rfl⟩
    unfold pop
    split
    · rename_i hnone
      rw [hnone] at hnext
      cases hnext
    · rename_i e₃ hnext'
      obtain rfl := Option.some.inj (hnext.symm.trans hnext')
      rfl

end EventQueue
