import Mathlib.Order.Bounds.Defs
import RmcatNs3.Scream.WindowFloor

/-!
# The base delay of SCReAM

The lowest one-way delay of the last minutes: a current minimum, a ring of the minima of the
last 50 intervals of 10 s, and the minimum over that ring, kept beside the sender. Each value is
updated at a moment of its own: with every packet that is acknowledged, with every interval
that ends, and when the window is updated after a long time of queues.
-/

namespace Scream

open MachineInt Runs

def kBaseOwdHistSize : Nat := 50
def kBaseDelayUpdateInterval_us : Nat := 10000000
def uint32Max : Nat := 4294967295

/-- A queue delay that `markAcked` has computed, with what it was computed from. -/
structure QueueDelay where
  ackedOwd : Nat
  baseOwd : Nat
  qDel : Nat

structure BaseDelay where
  baseOwd : Nat
  baseOwdHist : Vector Nat kBaseOwdHistSize
  baseOwdHistPtr : Fin kBaseOwdHistSize
  baseOwdHistMin : Nat
  lastBaseOwdAddT_us : Nat
  baseOwdResetT_us : Nat
  lastBaseDelayRefreshT_us : Nat
  /-- All queue delays so far; the source has no such field. -/
  queueDelays : List QueueDelay

namespace BaseDelay

def new : BaseDelay where
  baseOwd := uint32Max
  baseOwdHist := .replicate kBaseOwdHistSize uint32Max
  baseOwdHistPtr := ⟨0, by decide⟩
  baseOwdHistMin := uint32Max
  lastBaseOwdAddT_us := 0
  baseOwdResetT_us := 0
  lastBaseDelayRefreshT_us := 0
  queueDelays := []

/-- The part of `initialize`, which every call of a new sender begins with. -/
def ensureInitialized (d : BaseDelay) (tx : ScreamTx) (time_us : Nat) : BaseDelay :=
  if tx.isInitialized then d else
    { d with
      lastBaseOwdAddT_us := time_us
      baseOwdResetT_us := time_us
      lastBaseDelayRefreshT_us := toUnsigned 64 (time_us + 1000000 : Nat) }

/-- The loop that starts with `UINT32_MAX`. -/
def histMinimum (hist : Vector Nat kBaseOwdHistSize) : Nat := hist.foldl min uint32Max

/-- The end of an interval: its minimum takes the place of the oldest one. -/
def rollOver (d : BaseDelay) (time_us : Nat) : BaseDelay :=
  let baseOwdHist := d.baseOwdHist.set d.baseOwdHistPtr d.baseOwd
  { d with
    baseOwdHist
    baseOwdHistPtr := ⟨(d.baseOwdHistPtr + 1) % kBaseOwdHistSize, Nat.mod_lt _ (by decide)⟩
    lastBaseOwdAddT_us := time_us
    baseOwd := uint32Max
    baseOwdHistMin := histMinimum baseOwdHist
    lastBaseDelayRefreshT_us :=
      if timeSince time_us d.lastBaseDelayRefreshT_us >
          kBaseDelayUpdateInterval_us * (kBaseOwdHistSize - 1) then time_us
      else d.lastBaseDelayRefreshT_us }

/-- `estimateOwd`, which returns `ackedOwd` as it is. -/
def estimateOwd (d : BaseDelay) (ackedOwd time_us : Nat) : BaseDelay :=
  let d := { d with baseOwd := min d.baseOwd ackedOwd }
  if timeSince time_us d.lastBaseOwdAddT_us ≥ kBaseDelayUpdateInterval_us then d.rollOver time_us
  else d

def getBaseOwd (d : BaseDelay) : Nat := min d.baseOwd d.baseOwdHistMin

/-- "Compute the queue delay" -/
def computeQueueDelay (d : BaseDelay) (ackedOwd time_us : Nat) : BaseDelay :=
  let d := d.estimateOwd ackedOwd time_us
  let baseOwd := d.getBaseOwd
  { d with
    queueDelays := d.queueDelays ++ [⟨ackedOwd, baseOwd, toUnsigned 32 (ackedOwd - baseOwd)⟩] }

/-- One turn of `markAcked`, beside its effect on the packets. -/
def markSlot (fb : IncomingFeedback) (s : Marking × BaseDelay) (n : Nat) : Marking × BaseDelay :=
  let p := s.1.txPackets n
  let marked := Scream.markSlot fb s.1 n
  (marked, if p.isUsed ∧ p.seqNr = fb.highestSeqNr then
      s.2.computeQueueDelay marked.ackedOwd fb.time_us
    else s.2)

def markAcked (d : BaseDelay) (tx : ScreamTx) (fb : IncomingFeedback) (stream : TxStream) :
    Marking × BaseDelay :=
  (scanned stream.hiSeqAck fb.highestSeqNr).foldl (markSlot fb)
    ({ txPackets := stream.txPackets
       timeTxAck_us := stream.timeTxAck_us
       rtt := tx.rtt
       ackedOwd := tx.ackedOwd
       overshift := false }, d)

/-- The part of `updateCwnd`. The queues have been long if `queueDelayMinAvg` is more than a
quarter of its target. -/
def updateCwnd (d : BaseDelay) (time_us : Nat) (queuesLong : Bool) : BaseDelay :=
  if queuesLong ∧ timeSince time_us d.baseOwdResetT_us > 20000000 then
    { d with
      baseOwdHist := .replicate kBaseOwdHistSize uint32Max
      baseOwd := uint32Max
      baseOwdHistMin := uint32Max
      baseOwdResetT_us := time_us }
  else d

/-- The end of `incomingFeedback`, if an update is due. -/
def handleEvents (d : BaseDelay) (tx : ScreamTx) (time_us : Nat) (queuesLong : Bool) :
    BaseDelay :=
  let lastCwndUpdateT_us := if tx.lastCwndUpdateT_us = 0 then time_us else tx.lastCwndUpdateT_us
  if timeSince time_us lastCwndUpdateT_us > 10000 then d.updateCwnd time_us queuesLong else d

def incomingFeedback (d : BaseDelay) (tx : ScreamTx) (fb : IncomingFeedback)
    (queuesLong : Bool) : BaseDelay :=
  let d := d.ensureInitialized tx fb.time_us
  match tx.accepts fb with
  | none => d
  | some (_, stream) =>
      let tx := tx.ensureInitialized fb.time_us
      (d.markAcked tx fb stream).2.handleEvents tx fb.time_us queuesLong

/-- What a call of the sender does to the base delay. -/
def after (d : BaseDelay) (tx : ScreamTx) (queuesLong : Bool) : TxEvent → BaseDelay
  | .registerNewStream _ => d
  | .newMediaFrame time_us _ => d.ensureInitialized tx time_us
  | .isOkToTransmit time_us _ _ => d.ensureInitialized tx time_us
  | .addTransmitted time_us _ _ _ => d.ensureInitialized tx time_us
  | .incomingFeedback fb => d.incomingFeedback tx fb queuesLong
  | .getTargetBitrate _ => d

/-! ## The minimum over the ring -/

section Minimum

variable {hist : Vector Nat kBaseOwdHistSize}

/-- The loop finds the minimum of the ring, since none of its values is above the one it
starts with. -/
theorem histMinimum_isLeast (hle : ∀ x ∈ hist, x ≤ uint32Max) :
    IsLeast {x | x ∈ hist} (histMinimum hist) := by
  have hlist : hist.toList ≠ [] := by
    intro hnil
    have hlength := hist.length_toList
    rw [hnil] at hlength
    cases hlength
  obtain ⟨least, hleast⟩ := Option.isSome_iff_exists.mp (List.isSome_min?_of_ne_nil hlist)
  have hmin : histMinimum hist = least := by
    have hmem : least ∈ hist := Vector.mem_toList_iff.mp (List.min?_mem hleast)
    rw [histMinimum, ← Vector.foldl_toList, List.foldl_min, hleast, Option.getD_some]
    exact min_eq_right (hle least hmem)
  obtain ⟨hmem, hlower⟩ := List.min?_eq_some_iff.mp hleast
  rw [hmin]
  exact ⟨Vector.mem_toList_iff.mp hmem, fun x hx => hlower x (Vector.mem_toList_iff.mpr hx)⟩

end Minimum

/-! ## What every call keeps -/

/-- **The invariant**: every value has 32 bits, the cached minimum is that of the ring, and no
queue delay so far came from a base delay above the delay itself. -/
structure Inv (d : BaseDelay) : Prop where
  baseOwd_le : d.baseOwd ≤ uint32Max
  hist_le : ∀ x ∈ d.baseOwdHist, x ≤ uint32Max
  histMin_isLeast : IsLeast {x | x ∈ d.baseOwdHist} d.baseOwdHistMin
  queueDelays_exact : ∀ q ∈ d.queueDelays,
    q.baseOwd ≤ q.ackedOwd ∧ (q.qDel : Int) = q.ackedOwd - q.baseOwd

variable {d : BaseDelay}

/-- A ring of nothing but `UINT32_MAX`. -/
theorem isLeast_replicate :
    IsLeast {x | x ∈ Vector.replicate kBaseOwdHistSize uint32Max} uint32Max := by
  constructor
  · exact Vector.mem_replicate.mpr ⟨by decide, rfl⟩
  · intro x hx
    exact (Vector.mem_replicate.mp hx).2.ge

theorem inv_new : new.Inv where
  baseOwd_le := le_refl _
  hist_le := fun _ hx => (Vector.mem_replicate.mp hx).2.le
  histMin_isLeast := isLeast_replicate
  queueDelays_exact := fun _ hq => absurd hq List.not_mem_nil

theorem Inv.ensureInitialized (h : d.Inv) (tx : ScreamTx) (time_us : Nat) :
    (d.ensureInitialized tx time_us).Inv := by
  rw [BaseDelay.ensureInitialized]
  split
  · exact h
  · exact ⟨h.baseOwd_le, h.hist_le, h.histMin_isLeast, h.queueDelays_exact⟩

theorem Inv.rollOver (h : d.Inv) (time_us : Nat) : (d.rollOver time_us).Inv := by
  have hle : ∀ x ∈ (d.rollOver time_us).baseOwdHist, x ≤ uint32Max := by
    intro x hx
    have hset : x ∈ d.baseOwdHist.set d.baseOwdHistPtr d.baseOwd d.baseOwdHistPtr.isLt := hx
    rcases Vector.mem_or_eq_of_mem_set hset with hold | rfl
    · exact h.hist_le x hold
    · exact h.baseOwd_le
  exact ⟨le_refl _, hle, histMinimum_isLeast hle, h.queueDelays_exact⟩

theorem Inv.withAcked (h : d.Inv) (ackedOwd : Nat) :
    ({ d with baseOwd := min d.baseOwd ackedOwd } : BaseDelay).Inv where
  baseOwd_le := (min_le_left _ _).trans h.baseOwd_le
  hist_le := h.hist_le
  histMin_isLeast := h.histMin_isLeast
  queueDelays_exact := h.queueDelays_exact

theorem Inv.estimateOwd (h : d.Inv) (ackedOwd time_us : Nat) :
    (d.estimateOwd ackedOwd time_us).Inv := by
  have hmin := h.withAcked ackedOwd
  rw [BaseDelay.estimateOwd]
  split
  · exact hmin.rollOver time_us
  · exact hmin

/-- **No underflow**: the delay that has just been acknowledged is in the current minimum, or
in the slot of the ring that the end of the interval has moved it to. -/
theorem Inv.getBaseOwd_le (h : d.Inv) (ackedOwd time_us : Nat) :
    (d.estimateOwd ackedOwd time_us).getBaseOwd ≤ ackedOwd := by
  have hinv := h.withAcked ackedOwd
  rw [BaseDelay.estimateOwd]
  split
  · -- the end of the interval puts what has just been acknowledged into the ring
    have hslot : min d.baseOwd ackedOwd ∈ d.baseOwdHist.set d.baseOwdHistPtr
        (min d.baseOwd ackedOwd) :=
      Vector.mem_of_getElem (Vector.getElem_set_self d.baseOwdHistPtr.isLt)
    have hleast := (hinv.rollOver time_us).histMin_isLeast.2 hslot
    exact (min_le_right _ _).trans (hleast.trans (min_le_right _ _))
  · exact (min_le_left _ _).trans (min_le_right _ _)

theorem Inv.computeQueueDelay (h : d.Inv) {ackedOwd : Nat} (hacked : ackedOwd ≤ uint32Max)
    (time_us : Nat) : (d.computeQueueDelay ackedOwd time_us).Inv := by
  have hinv := h.estimateOwd ackedOwd time_us
  have hbase := h.getBaseOwd_le ackedOwd time_us
  refine ⟨hinv.baseOwd_le, hinv.hist_le, hinv.histMin_isLeast, fun q hq => ?_⟩
  rcases List.mem_append.mp hq with hold | hnew
  · exact hinv.queueDelays_exact q hold
  · rw [List.mem_singleton.mp hnew]
    refine ⟨hbase, ?_⟩
    simp only [uint32Max] at hacked
    simp only [toUnsigned]
    omega

/-- What is acknowledged is a difference of 32 bits. -/
theorem Inv.markSlot (fb : IncomingFeedback) {s : Marking × BaseDelay} (h : s.2.Inv) (n : Nat) :
    (markSlot fb s n).2.Inv := by
  simp only [BaseDelay.markSlot]
  split
  · rename_i hhighest
    refine h.computeQueueDelay ?_ fb.time_us
    simp only [Scream.markSlot, if_pos hhighest, toUnsigned, uint32Max]
    omega
  · exact h

theorem Inv.markAcked (h : d.Inv) (tx : ScreamTx) (fb : IncomingFeedback) (stream : TxStream) :
    (d.markAcked tx fb stream).2.Inv := by
  rw [BaseDelay.markAcked]
  exact List.foldlRecOn (motive := fun s : Marking × BaseDelay => s.2.Inv) _ _ h
    fun s hs n _ => hs.markSlot fb n

theorem Inv.handleEvents (h : d.Inv) (tx : ScreamTx) (time_us : Nat) (queuesLong : Bool) :
    (d.handleEvents tx time_us queuesLong).Inv := by
  have hupdate : (d.updateCwnd time_us queuesLong).Inv := by
    rw [BaseDelay.updateCwnd]
    split
    · exact ⟨le_refl _, inv_new.hist_le, isLeast_replicate, h.queueDelays_exact⟩
    · exact h
  simp only [BaseDelay.handleEvents]
  split_ifs <;> assumption

/-- **Step lemma**, one case for each call. -/
theorem Inv.after (h : d.Inv) (tx : ScreamTx) (queuesLong : Bool) (e : TxEvent) :
    (d.after tx queuesLong e).Inv := by
  cases e with
  | registerNewStream ssrc => exact h
  | newMediaFrame time_us ssrc => exact h.ensureInitialized tx time_us
  | isOkToTransmit time_us slow prioritized => exact h.ensureInitialized tx time_us
  | addTransmitted time_us ssrc size seqNr => exact h.ensureInitialized tx time_us
  | incomingFeedback fb =>
      have hinit := h.ensureInitialized tx fb.time_us
      simp only [BaseDelay.after, BaseDelay.incomingFeedback]
      split
      · exact hinit
      · exact (hinit.markAcked _ fb _).handleEvents _ fb.time_us queuesLong
  | getTargetBitrate ssrc => exact h

/-- The loop does to the packets what it does in the sender. -/
theorem markAcked_fst (d : BaseDelay) (tx : ScreamTx) (fb : IncomingFeedback)
    (stream : TxStream) : (d.markAcked tx fb stream).1 = tx.markAcked fb stream := by
  have hloop : ∀ (visited : List Nat) (s : Marking × BaseDelay),
      (visited.foldl (markSlot fb) s).1 = visited.foldl (Scream.markSlot fb) s.1 := by
    intro visited
    induction visited with
    | nil => exact fun _ => rfl
    | cons n rest ih => exact fun s => ih (markSlot fb s n)
  exact hloop _ _

end BaseDelay

/-! ## The base delay in its sender -/

/-- A sender with its base delay. -/
structure DelayTx where
  tx : ScreamTx
  delay : BaseDelay

namespace DelayTx

def new (lossBetaBelowOne : Bool) : DelayTx := ⟨.new lossBetaBelowOne, .new⟩

/-- One call, with the verdict on the queues that `updateCwnd` comes to if the call gets there;
`none` where the code uses a stream that does not exist. -/
def perform (s : DelayTx) (call : TxEvent × Bool) : Option DelayTx :=
  (s.tx.step? call.1).map fun tx => { tx, delay := s.delay.after s.tx call.2 call.1 }

variable {s s' : DelayTx}

/-- The rest of the sender takes the steps of `ScreamTx`. -/
theorem tx_step {call : TxEvent × Bool} (h : s.perform call = some s') :
    s.tx.Step call.1 s'.tx := by
  obtain ⟨tx, htx, rfl⟩ := Option.map_eq_some_iff.mp h
  exact htx

/-- **Run lemma**. -/
theorem inv_run {calls : List (TxEvent × Bool)} (hinv : s.delay.Inv)
    (h : calls.foldlM perform s = some s') : s'.delay.Inv := by
  refine (Run.of_foldlM h).stateInvariant (I := fun s => s.delay.Inv) hinv ?_
  intro s call s' hinv hstep
  obtain ⟨tx, _, rfl⟩ := Option.map_eq_some_iff.mp hstep
  exact hinv.after s.tx call.2 call.1

/-- **The base delay is a lower bound**: after every sequence of calls, with any times,
timestamps and queues, no queue delay that was computed has wrapped, and the cached minimum is
the minimum of the ring. -/
theorem baseOwd_of_run {lossBetaBelowOne : Bool} {calls : List (TxEvent × Bool)}
    (h : calls.foldlM perform (new lossBetaBelowOne) = some s) :
    (∀ q ∈ s.delay.queueDelays,
      q.baseOwd ≤ q.ackedOwd ∧ (q.qDel : Int) = q.ackedOwd - q.baseOwd) ∧
    IsLeast {x | x ∈ s.delay.baseOwdHist} s.delay.baseOwdHistMin := by
  have hinv := inv_run BaseDelay.inv_new h
  exact ⟨hinv.queueDelays_exact, hinv.histMin_isLeast⟩

/-- Two packets are acknowledged, the second one after the end of an interval. -/
def rollingOver : List (TxEvent × Bool) :=
  [(.registerNewStream 7, false), (.addTransmitted 1000 7 1200 5, false),
    (.incomingFeedback ⟨50000, 7, 31, 5, 0, 0, false⟩, false),
    (.addTransmitted 10060000 7 1200 6, false),
    (.incomingFeedback ⟨10090000, 7, 10075, 6, 0, 0, false⟩, true)]

theorem baseOwd_of_rollingOver :
    ∃ s, rollingOver.foldlM perform (new true) = some s ∧
      (∀ q ∈ s.delay.queueDelays,
        q.baseOwd ≤ q.ackedOwd ∧ (q.qDel : Int) = q.ackedOwd - q.baseOwd) ∧
      IsLeast {x | x ∈ s.delay.baseOwdHist} s.delay.baseOwdHistMin := by
  have hrun : ∃ s, rollingOver.foldlM perform (new true) = some s := ⟨_, rfl⟩
  obtain ⟨s, hs⟩ := hrun
  exact ⟨s, hs, baseOwd_of_run hs⟩

end DelayTx

end Scream
