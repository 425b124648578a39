import RmcatNs3.Scream.AckVector
import RmcatNs3.Scream.FeedbackPacket

/-!
# Turns of the streams

Feedback is about the stream that waits longest. Calls without a packet between
them go once through the streams that wait. With packets between them, a stream
has its turn before another one has two, if the clock of the caller moves on.
-/

namespace Scream

open StructMemory

variable {s : ScreamRx} {i j time_us : Nat} {stream : Stream}

/-! ## The choice of a stream -/

/-- A stream with receptions that no feedback has reported. -/
def Stream.Pending (stream : Stream) : Prop := 0 < stream.nRtpSinceLastRtcp

/-- A stream after it has been reported. -/
def Stream.reported (stream : Stream) (time_us : Nat) : Stream :=
  { stream with
    highestSeqNrTx := stream.highestSeqNr
    lastFeedbackT_us := time_us
    nRtpSinceLastRtcp := 0 }

def Stream.feedback (stream : Stream) : Feedback where
  ssrc := stream.ssrc
  receiveTimestamp := stream.receiveTimestamp
  highestSeqNr := stream.highestSeqNr
  ackVector := stream.ackVector
  ecnCeMarkedBytes := stream.ecnCeMarkedBytes

/-- Stream `i` waits, and none waits longer. -/
structure Oldest (streams : List Stream) (i : Nat) (stream : Stream) : Prop where
  at_i : streams[i]? = some stream
  pending : stream.Pending
  before_max : stream.lastFeedbackT_us < ullongMax
  oldest : ∀ other ∈ streams, other.Pending → stream.lastFeedbackT_us ≤ other.lastFeedbackT_us

/-- **The loop of `getFeedback`** finds the longest waiting stream after the first
`i`, if one waits longer than the bound. -/
theorem feedbackLoop_cases (streams : List Stream) (i minT_us : Nat) (found : Option Nat) :
    (ScreamRx.feedbackLoop streams i minT_us found = found ∧
      ∀ other ∈ streams, other.Pending → minT_us ≤ other.lastFeedbackT_us) ∨
    ∃ k stream, ScreamRx.feedbackLoop streams i minT_us found = some (i + k) ∧
      streams[k]? = some stream ∧ stream.Pending ∧ stream.lastFeedbackT_us < minT_us ∧
      ∀ other ∈ streams, other.Pending → stream.lastFeedbackT_us ≤ other.lastFeedbackT_us := by
  induction streams generalizing i minT_us found with
  | nil => exact .inl ⟨rfl, by simp⟩
  | cons candidate rest ih =>
      unfold ScreamRx.feedbackLoop
      by_cases hcand : candidate.nRtpSinceLastRtcp > 0 ∧ candidate.lastFeedbackT_us < minT_us
      · rw [if_pos hcand]
        right
        cases ih (i + 1) candidate.lastFeedbackT_us (some i) with
        | inl hkept =>
            refine ⟨0, candidate, hkept.1, rfl, hcand.1, hcand.2, ?_⟩
            intro other hother hpending
            cases List.mem_cons.mp hother with
            | inl heq => exact Nat.le_of_eq (by rw [heq])
            | inr hrest => exact hkept.2 other hrest hpending
        | inr hfound =>
            obtain ⟨k, stream, hloop, hget, hpending, hlt, hold⟩ := hfound
            have hindex : i + (k + 1) = i + 1 + k := by omega
            refine ⟨k + 1, stream, by rw [hloop, hindex], hget, hpending,
              Nat.lt_trans hlt hcand.2, ?_⟩
            intro other hother hwaits
            cases List.mem_cons.mp hother with
            | inl heq => exact Nat.le_of_lt (by rw [heq]; exact hlt)
            | inr hrest => exact hold other hrest hwaits
      · rw [if_neg hcand]
        have hhead : candidate.Pending → minT_us ≤ candidate.lastFeedbackT_us := by
          intro hpending
          exact Nat.le_of_not_lt fun hlt => hcand ⟨hpending, hlt⟩
        cases ih (i + 1) minT_us found with
        | inl hkept =>
            left
            refine ⟨hkept.1, ?_⟩
            intro other hother hpending
            cases List.mem_cons.mp hother with
            | inl heq => exact heq ▸ hhead (heq ▸ hpending)
            | inr hrest => exact hkept.2 other hrest hpending
        | inr hfound =>
            obtain ⟨k, stream, hloop, hget, hpending, hlt, hold⟩ := hfound
            have hindex : i + (k + 1) = i + 1 + k := by omega
            right
            refine ⟨k + 1, stream, by rw [hloop, hindex], hget, hpending, hlt, ?_⟩
            intro other hother hwaits
            cases List.mem_cons.mp hother with
            | inl heq => exact Nat.le_of_lt (Nat.lt_of_lt_of_le hlt (heq ▸ hhead (heq ▸ hwaits)))
            | inr hrest => exact hold other hrest hwaits

namespace ScreamRx

/-- The stream that the next feedback is about. -/
def chosen (s : ScreamRx) : Option Nat := feedbackLoop s.streams 0 ullongMax none

theorem oldest_of_chosen (h : s.chosen = some i) : ∃ stream, Oldest s.streams i stream := by
  cases feedbackLoop_cases s.streams 0 ullongMax none with
  | inl hkept => exact absurd (h.symm.trans hkept.1) (by simp)
  | inr hfound =>
      obtain ⟨k, stream, hloop, hget, hpending, hlt, hold⟩ := hfound
      have hi : i = k := by simpa using Option.some.inj (h.symm.trans hloop)
      subst hi
      exact ⟨stream, hget, hpending, hlt, hold⟩

/-- What is known of the chosen stream. -/
theorem oldest_at (h : s.chosen = some i) (hget : s.streams[i]? = some stream) :
    Oldest s.streams i stream := by
  obtain ⟨found, hold⟩ := oldest_of_chosen h
  have heq : found = stream := Option.some.inj (hold.at_i.symm.trans hget)
  exact heq ▸ hold

/-- No stream is chosen only if none waits. -/
theorem max_le_of_chosen (h : s.chosen = none) (hmem : stream ∈ s.streams)
    (hpending : stream.Pending) : ullongMax ≤ stream.lastFeedbackT_us := by
  cases feedbackLoop_cases s.streams 0 ullongMax none with
  | inl hkept => exact hkept.2 stream hmem hpending
  | inr hfound =>
      obtain ⟨k, found, hloop, -⟩ := hfound
      exact absurd (h.symm.trans hloop) (by simp)

/-- The receiver after stream `i` has been reported. -/
def reportAt (s : ScreamRx) (i time_us : Nat) : ScreamRx :=
  { s with
    lastFeedbackT_us := time_us
    streams := s.streams.modify i (·.reported time_us) }

theorem getFeedback_of_chosen (h : s.chosen = some i) (hget : s.streams[i]? = some stream) :
    s.getFeedback time_us = (some stream.feedback, s.reportAt i time_us) := by
  have hloop : feedbackLoop s.streams 0 ullongMax none = some i := h
  unfold getFeedback
  rw [hloop]
  dsimp only
  rw [hget]
  rfl

theorem getFeedback_of_none (h : s.chosen = none) : s.getFeedback time_us = (none, s) := by
  have hloop : feedbackLoop s.streams 0 ullongMax none = none := h
  unfold getFeedback
  rw [hloop]

theorem isFeedback_of_oldest (h : Oldest s.streams i stream) : s.isFeedback = true :=
  List.any_eq_true.mpr ⟨stream, List.mem_of_getElem? h.at_i, decide_eq_true h.pending⟩

/-- **A packet is created** for the chosen stream. -/
theorem createFeedback_of_oldest (o : ByteOrder) (buf : Mem) (size : Int)
    (h : s.chosen = some i) (hold : Oldest s.streams i stream) :
    s.createFeedback o time_us buf size =
      ⟨true, NetworkOrder.storeAll o buf (feedbackStores o s.ssrc stream.feedback), 32,
        s.reportAt i time_us⟩ := by
  rw [createFeedback, if_pos (isFeedback_of_oldest hold), getFeedback_of_chosen h hold.at_i]

/-- Without a chosen stream the call fails and changes no stream. -/
theorem createFeedback_of_none (o : ByteOrder) (buf : Mem) (size : Int)
    (h : s.chosen = none) :
    (s.createFeedback o time_us buf size).created = false ∧
      (s.createFeedback o time_us buf size).rx = s := by
  unfold createFeedback
  rw [getFeedback_of_none h]
  split
  · exact ⟨rfl, rfl⟩
  · exact ⟨rfl, rfl⟩

/-- A call changes the receiver as taking the feedback does. -/
theorem createFeedback_rx (o : ByteOrder) (s : ScreamRx) (time_us : Nat) (buf : Mem)
    (size : Int) : (s.createFeedback o time_us buf size).rx = s.step (.getFeedback time_us) := by
  show _ = (s.getFeedback time_us).2
  cases h : s.chosen with
  | none => rw [(createFeedback_of_none o buf size h).2, getFeedback_of_none h]
  | some i =>
      obtain ⟨stream, hold⟩ := oldest_of_chosen h
      rw [createFeedback_of_oldest o buf size h hold, getFeedback_of_chosen h hold.at_i]

theorem created_iff_chosen (o : ByteOrder) (s : ScreamRx) (time_us : Nat) (buf : Mem)
    (size : Int) :
    (s.createFeedback o time_us buf size).created = true ↔ ∃ i, s.chosen = some i := by
  cases h : s.chosen with
  | none => simp [createFeedback_of_none o buf size h]
  | some i =>
      obtain ⟨stream, hold⟩ := oldest_of_chosen h
      simp [createFeedback_of_oldest o buf size h hold]

theorem reportAt_get (s : ScreamRx) (i j time_us : Nat) :
    (s.reportAt i time_us).streams[j]? =
      if i = j then s.streams[j]?.map (·.reported time_us) else s.streams[j]? := by
  rw [reportAt, List.getElem?_modify]
  by_cases h : i = j
  · simp [h]
  · simp [h]

/-- **A call** reports the chosen stream and leaves the others alone. -/
theorem step_getFeedback (s : ScreamRx) (time_us : Nat) :
    s.step (.getFeedback time_us) =
      match s.chosen with
      | some i => s.reportAt i time_us
      | none => s := by
  show (s.getFeedback time_us).2 = _
  cases h : s.chosen with
  | none => rw [getFeedback_of_none h]
  | some i =>
      obtain ⟨stream, hold⟩ := oldest_of_chosen h
      rw [getFeedback_of_chosen h hold.at_i]

/-! ## Receiving -/

theorem receiveLoop_modify {ssrc : BitVec 32} {f : Stream → Stream}
    {streams streams' : List Stream} (h : receiveLoop ssrc f streams = some streams') :
    ∃ k, streams' = streams.modify k f := by
  induction streams generalizing streams' with
  | nil => exact absurd h (by simp [receiveLoop])
  | cons stream rest ih =>
      unfold receiveLoop at h
      by_cases hmatch : stream.isMatch ssrc = true
      · rw [if_pos hmatch] at h
        exact ⟨0, (Option.some.inj h).symm⟩
      · rw [if_neg hmatch] at h
        obtain ⟨rest', hrest, rfl⟩ := Option.map_eq_some_iff.mp h
        obtain ⟨k, rfl⟩ := ih hrest
        exact ⟨k + 1, rfl⟩

/-- **A packet** is received by a stream in the list or by a new one at its end. -/
theorem receive_streams (s : ScreamRx) (time_us : Nat) (ssrc : BitVec 32) (size : Int)
    (seqNr : BitVec 16) (isEcnCe : Bool) :
    (∃ k, (s.receive time_us ssrc size seqNr isEcnCe).streams =
      s.streams.modify k (·.receive time_us size seqNr isEcnCe)) ∨
    (s.receive time_us ssrc size seqNr isEcnCe).streams =
      s.streams ++ [(Stream.new ssrc s.ix).receive time_us size seqNr isEcnCe] := by
  unfold receive
  split
  · rename_i streams hloop
    exact .inl (receiveLoop_modify hloop)
  · exact .inr rfl

end ScreamRx

/-- A packet leaves a stream pending and does not count as feedback. -/
structure Stream.Kept (stream stream' : Stream) : Prop where
  pending : stream.Pending → stream'.Pending
  last_eq : stream'.lastFeedbackT_us = stream.lastFeedbackT_us

theorem Stream.Kept.refl (stream : Stream) : stream.Kept stream := ⟨id, rfl⟩

theorem Stream.Kept.receive (stream : Stream) (time_us : Nat) (size : Int) (seqNr : BitVec 16)
    (isEcnCe : Bool) : stream.Kept (stream.receive time_us size seqNr isEcnCe) :=
  ⟨fun _ => Nat.succ_pos _, rfl⟩

namespace ScreamRx

theorem receive_get (hget : s.streams[i]? = some stream) (time_us : Nat) (ssrc : BitVec 32)
    (size : Int) (seqNr : BitVec 16) (isEcnCe : Bool) :
    ∃ stream', (s.receive time_us ssrc size seqNr isEcnCe).streams[i]? = some stream' ∧
      stream.Kept stream' := by
  cases receive_streams s time_us ssrc size seqNr isEcnCe with
  | inl hmodify =>
      obtain ⟨k, hk⟩ := hmodify
      rw [hk, List.getElem?_modify, hget]
      by_cases hki : k = i
      · exact ⟨stream.receive time_us size seqNr isEcnCe, by simp [hki], .receive _ _ _ _ _⟩
      · exact ⟨stream, by simp [hki], .refl _⟩
  | inr hnew =>
      have hlt : i < s.streams.length := (List.getElem?_eq_some_iff.mp hget).1
      rw [hnew, List.getElem?_append_left hlt]
      exact ⟨stream, hget, .refl _⟩

/-- Where the streams after a packet come from. -/
theorem mem_receive {stream' : Stream} {time_us : Nat} {ssrc : BitVec 32} {size : Int}
    {seqNr : BitVec 16} {isEcnCe : Bool}
    (h : stream' ∈ (s.receive time_us ssrc size seqNr isEcnCe).streams) :
    stream' ∈ s.streams ∨
      ∃ stream, (stream ∈ s.streams ∨ stream = .new ssrc s.ix) ∧
        stream' = stream.receive time_us size seqNr isEcnCe := by
  cases receive_streams s time_us ssrc size seqNr isEcnCe with
  | inl hmodify =>
      obtain ⟨k, hk⟩ := hmodify
      rw [hk] at h
      obtain ⟨n, hn⟩ := List.mem_iff_getElem?.mp h
      rw [List.getElem?_modify] at hn
      obtain ⟨stream, hget, heq⟩ := Option.map_eq_some_iff.mp hn
      have hmem := List.mem_of_getElem? hget
      by_cases hkn : k = n
      · rw [if_pos hkn] at heq
        exact .inr ⟨stream, .inl hmem, heq.symm⟩
      · rw [if_neg hkn] at heq
        exact .inl (heq ▸ hmem)
  | inr hnew =>
      rw [hnew, List.mem_append, List.mem_singleton] at h
      cases h with
      | inl hold => exact .inl hold
      | inr heq => exact .inr ⟨_, .inr rfl, heq⟩

/-! ## The types of the elements -/

/-- The elements of every stream fit the types that the code gives them. -/
def InRange (s : ScreamRx) : Prop := ∀ stream ∈ s.streams, stream.feedback.InRange

theorem inRange_receive {time_us : Nat} {size : Int} {seqNr : BitVec 16} {isEcnCe : Bool}
    (h : stream.feedback.InRange) :
    (stream.receive time_us size seqNr isEcnCe).feedback.InRange where
  timestamp_lt := MachineInt.toUnsigned_lt 32 (time_us / 1000 : Nat)
  ecn_lt := by
    by_cases hce : isEcnCe
    · simpa [Stream.receive, Stream.feedback, hce] using MachineInt.toUnsigned_lt 16 _
    · simpa [Stream.receive, Stream.feedback, hce] using h.ecn_lt

theorem InRange.step (h : s.InRange) (e : RxEvent) : (s.step e).InRange := by
  cases e with
  | receive time_us ssrc size seq isEcnCe =>
      intro stream' hmem
      cases mem_receive hmem with
      | inl hold => exact h stream' hold
      | inr hreceived =>
          obtain ⟨stream, hfrom, rfl⟩ := hreceived
          cases hfrom with
          | inl hold => exact inRange_receive (h stream hold)
          | inr hnew =>
              subst hnew
              exact inRange_receive ⟨Nat.two_pow_pos 32, Nat.two_pow_pos 16⟩
  | getFeedback time_us =>
      rw [step_getFeedback]
      cases s.chosen with
      | none => exact h
      | some i =>
          intro stream' hmem
          obtain ⟨n, hn⟩ := List.mem_iff_getElem?.mp hmem
          rw [reportAt_get] at hn
          split at hn
          · obtain ⟨stream, hget, rfl⟩ := Option.map_eq_some_iff.mp hn
            exact h stream (List.mem_of_getElem? hget)
          · exact h stream' (List.mem_of_getElem? hn)

/-! ## Calls one after the other -/

/-- The receiver after events from any state. -/
def run (s : ScreamRx) (es : List RxEvent) : ScreamRx := es.foldl step s

/-- The streams reported by the calls among some events. -/
def reports (s : ScreamRx) : List RxEvent → List Nat
  | [] => []
  | e :: es =>
      match e with
      | .getFeedback _ => s.chosen.toList ++ reports (s.step e) es
      | .receive .. => reports (s.step e) es

@[simp] theorem run_nil (s : ScreamRx) : s.run [] = s := rfl

@[simp] theorem run_cons (s : ScreamRx) (e : RxEvent) (es : List RxEvent) :
    s.run (e :: es) = (s.step e).run es := rfl

theorem InRange.run (h : s.InRange) (es : List RxEvent) : (s.run es).InRange := by
  induction es generalizing s with
  | nil => exact h
  | cons e es ih => exact ih (h.step e)

/-- Stream `i` may be chosen. -/
def waits (s : ScreamRx) (i : Nat) : Bool :=
  s.streams[i]?.any fun stream =>
    decide (0 < stream.nRtpSinceLastRtcp) && decide (stream.lastFeedbackT_us < ullongMax)

def waiting (s : ScreamRx) : List Nat := (List.range s.streams.length).filter s.waits

theorem waits_iff : s.waits i = true ↔
    ∃ stream, s.streams[i]? = some stream ∧ stream.Pending ∧
      stream.lastFeedbackT_us < ullongMax := by
  unfold waits
  rw [Option.any_eq_true]
  simp only [Bool.and_eq_true, decide_eq_true_eq]
  exact Iff.rfl

theorem mem_waiting : i ∈ s.waiting ↔ s.waits i = true := by
  unfold waiting
  rw [List.mem_filter, List.mem_range]
  constructor
  · intro h
    exact h.2
  · intro h
    obtain ⟨stream, hget, -⟩ := waits_iff.mp h
    exact ⟨(List.getElem?_eq_some_iff.mp hget).1, h⟩

theorem nodup_waiting (s : ScreamRx) : s.waiting.Nodup := List.nodup_range.filter _

theorem mem_waiting_of_oldest (h : Oldest s.streams i stream) : i ∈ s.waiting :=
  mem_waiting.mpr (waits_iff.mpr ⟨stream, h.at_i, h.pending, h.before_max⟩)

theorem waiting_of_none (h : s.chosen = none) : s.waiting = [] := by
  apply List.eq_nil_iff_forall_not_mem.mpr
  intro i hi
  obtain ⟨stream, hget, hpending, hlt⟩ := waits_iff.mp (mem_waiting.mp hi)
  have hmax := max_le_of_chosen h (List.mem_of_getElem? hget) hpending
  omega

/-- A report takes its stream off the waiting ones. -/
theorem waiting_reportAt (s : ScreamRx) (i time_us : Nat) :
    (s.reportAt i time_us).waiting = s.waiting.erase i := by
  have hlength : (s.reportAt i time_us).streams.length = s.streams.length :=
    List.length_modify _ _ _
  rw [s.nodup_waiting.erase_eq_filter, waiting, waiting, hlength, List.filter_filter]
  apply List.filter_congr
  intro j _
  unfold waits
  rw [reportAt_get]
  by_cases hij : i = j
  · subst hij
    cases hget : s.streams[i]? with
    | none => simp
    | some stream => simp [Stream.reported]
  · simp [hij, Ne.symm hij]

/-- **Calls without a packet between them** report waiting streams, each once. -/
theorem reports_perm (s : ScreamRx) (ts : List Nat) :
    (s.reports (ts.map .getFeedback) ++ (s.run (ts.map .getFeedback)).waiting).Perm
      s.waiting := by
  induction ts generalizing s with
  | nil => exact List.Perm.refl _
  | cons t ts ih =>
      rw [List.map_cons, run_cons, reports, step_getFeedback]
      cases h : s.chosen with
      | none => exact ih s
      | some i =>
          obtain ⟨stream, hold⟩ := oldest_of_chosen h
          have hrest := ih (s.reportAt i t)
          rw [waiting_reportAt] at hrest
          exact (hrest.cons i).trans (List.perm_cons_erase (mem_waiting_of_oldest hold)).symm

/-- Every call reports a stream as long as one waits. -/
theorem length_reports (s : ScreamRx) (ts : List Nat) :
    (s.reports (ts.map .getFeedback)).length = min ts.length s.waiting.length := by
  induction ts generalizing s with
  | nil => simp [reports]
  | cons t ts ih =>
      rw [List.map_cons, reports, step_getFeedback]
      cases h : s.chosen with
      | none => simp [ih, waiting_of_none h]
      | some i =>
          obtain ⟨stream, hold⟩ := oldest_of_chosen h
          have hmem := mem_waiting_of_oldest hold
          have hpos := List.length_pos_of_mem hmem
          have hlength := ih (s.reportAt i t)
          rw [waiting_reportAt, List.length_erase_of_mem hmem] at hlength
          simp only [Option.toList_some, List.singleton_append, List.length_cons, hlength]
          omega

/-! ## Calls with packets between them -/

/-- A stream that is reported twice has let every other one that was pending at the
first time have its turn. -/
def Fair (s : ScreamRx) (es : List RxEvent) : Prop :=
  ∀ before t₁ between t₂ later,
    es = before ++ .getFeedback t₁ :: (between ++ .getFeedback t₂ :: later) →
    ∀ i j stream, i ≠ j → (s.run before).chosen = some i →
      (s.run before).streams[j]? = some stream → stream.Pending →
      (((s.run before).step (.getFeedback t₁)).run between).chosen = some i →
      j ∈ ((s.run before).step (.getFeedback t₁)).reports between

end ScreamRx

def RxEvent.IsCall : RxEvent → Prop
  | .receive .. => False
  | .getFeedback _ => True

/-- The clock of the caller: a call that packets follow is later than every call
before the last packet ahead of it. `latest` is the time of the latest call so far
and `bound` that of the latest one before a packet. -/
def OnTime (latest bound : Nat) : List RxEvent → Prop
  | [] => True
  | e :: es =>
      match e with
      | .receive .. => OnTime latest latest es
      | .getFeedback t =>
          (bound < t ∨ ∀ e ∈ es, e.IsCall) ∧ OnTime (max latest t) bound es

namespace ScreamRx

/-- The times of the last feedback as the two bounds have them. -/
structure Clocked (s : ScreamRx) (latest bound : Nat) : Prop where
  last_le : ∀ stream ∈ s.streams, stream.lastFeedbackT_us ≤ latest
  pending_le : ∀ stream ∈ s.streams, stream.Pending → stream.lastFeedbackT_us ≤ bound

theorem Clocked.receive {latest bound : Nat} (h : s.Clocked latest bound) (time_us : Nat)
    (ssrc : BitVec 32) (size : Int) (seqNr : BitVec 16) (isEcnCe : Bool) :
    (s.receive time_us ssrc size seqNr isEcnCe).Clocked latest latest := by
  have hlast : ∀ stream' ∈ (s.receive time_us ssrc size seqNr isEcnCe).streams,
      stream'.lastFeedbackT_us ≤ latest := by
    intro stream' hmem
    cases mem_receive hmem with
    | inl hold => exact h.last_le stream' hold
    | inr hreceived =>
        obtain ⟨stream, hfrom, rfl⟩ := hreceived
        cases hfrom with
        | inl hold => exact h.last_le stream hold
        | inr hnew =>
            subst hnew
            exact Nat.zero_le latest
  exact ⟨hlast, fun stream' hmem _ => hlast stream' hmem⟩

theorem Clocked.getFeedback {latest bound : Nat} (h : s.Clocked latest bound) (t : Nat) :
    (s.step (.getFeedback t)).Clocked (max latest t) bound := by
  rw [step_getFeedback]
  cases s.chosen with
  | none => exact ⟨fun stream hmem => Nat.le_trans (h.last_le stream hmem) (Nat.le_max_left _ _),
      h.pending_le⟩
  | some i =>
      constructor
      · intro stream' hmem
        obtain ⟨n, hn⟩ := List.mem_iff_getElem?.mp hmem
        rw [reportAt_get] at hn
        by_cases hin : i = n
        · rw [if_pos hin] at hn
          obtain ⟨stream, -, rfl⟩ := Option.map_eq_some_iff.mp hn
          exact Nat.le_max_right _ _
        · rw [if_neg hin] at hn
          exact Nat.le_trans (h.last_le stream' (List.mem_of_getElem? hn)) (Nat.le_max_left _ _)
      · intro stream' hmem hpending
        obtain ⟨n, hn⟩ := List.mem_iff_getElem?.mp hmem
        rw [reportAt_get] at hn
        by_cases hin : i = n
        · rw [if_pos hin] at hn
          obtain ⟨stream, -, rfl⟩ := Option.map_eq_some_iff.mp hn
          exact absurd hpending (Nat.lt_irrefl 0)
        · rw [if_neg hin] at hn
          exact h.pending_le stream' (List.mem_of_getElem? hn) hpending

/-- A pending stream whose last feedback is older than that of stream `i` has its turn
before stream `i` has. -/
theorem turn_of_older {older : Stream} (hi : s.streams[i]? = some stream)
    (hj : s.streams[j]? = some older) (hpending : older.Pending)
    (hlt : older.lastFeedbackT_us < stream.lastFeedbackT_us) (es : List RxEvent)
    (hchosen : (s.run es).chosen = some i) : j ∈ s.reports es := by
  induction es generalizing s stream older with
  | nil =>
      -- stream `j` waits longer, so the choice is not `i`
      have hle := (oldest_at hchosen hi).oldest older (List.mem_of_getElem? hj) hpending
      omega
  | cons e es ih =>
      rw [run_cons] at hchosen
      cases e with
      | receive time_us ssrc size seq isEcnCe =>
          obtain ⟨stream', hi', hkept⟩ := receive_get hi time_us ssrc size (BitVec.ofInt 16 seq)
            isEcnCe
          obtain ⟨older', hj', hkeptj⟩ := receive_get hj time_us ssrc size (BitVec.ofInt 16 seq)
            isEcnCe
          have hlt' : older'.lastFeedbackT_us < stream'.lastFeedbackT_us := by
            rw [hkept.last_eq, hkeptj.last_eq]
            exact hlt
          exact ih hi' hj' (hkeptj.pending hpending) hlt' hchosen
      | getFeedback t =>
          rw [reports]
          rw [step_getFeedback] at hchosen ⊢
          cases h : s.chosen with
          | none =>
              rw [h] at hchosen
              exact ih hi hj hpending hlt hchosen
          | some k =>
              rw [h] at hchosen
              rw [List.mem_append, Option.mem_toList]
              by_cases hkj : k = j
              · exact .inl (congrArg some hkj)
              · right
                have hki : k ≠ i := by
                  intro hki
                  subst hki
                  have hle := (oldest_at h hi).oldest older (List.mem_of_getElem? hj) hpending
                  omega
                exact @ih _ stream older (by rw [reportAt_get, if_neg hki, hi])
                  (by rw [reportAt_get, if_neg hkj, hj]) hpending hlt hchosen

/-- Without packets a stream that is not pending is not reported. -/
theorem not_chosen_of_calls (hi : s.streams[i]? = some stream) (hidle : ¬ stream.Pending)
    {es : List RxEvent} (hcalls : ∀ e ∈ es, e.IsCall) : (s.run es).chosen ≠ some i := by
  induction es generalizing s stream with
  | nil =>
      intro hchosen
      exact hidle (oldest_at hchosen hi).pending
  | cons e es ih =>
      rw [List.forall_mem_cons] at hcalls
      rw [run_cons]
      cases e with
      | receive time_us ssrc size seq isEcnCe => exact absurd hcalls.1 id
      | getFeedback t =>
          rw [step_getFeedback]
          cases s.chosen with
          | none => exact ih hi hidle hcalls.2
          | some k =>
              by_cases hki : k = i
              · have hreported : (s.reportAt k t).streams[i]? = some (stream.reported t) := by
                  rw [reportAt_get, if_pos hki, hi, Option.map_some]
                exact ih hreported (Nat.lt_irrefl 0) hcalls.2
              · have hkept : (s.reportAt k t).streams[i]? = some stream := by
                  rw [reportAt_get, if_neg hki, hi]
                exact ih hkept hidle hcalls.2

/-- **The turns** of the streams, if the clock of the caller moves on. -/
theorem fair_of_onTime {latest bound : Nat} {es : List RxEvent} (h : s.Clocked latest bound)
    (htime : OnTime latest bound es) : s.Fair es := by
  intro before
  induction before generalizing s latest bound es with
  | nil =>
      intro t₁ between t₂ later hes i j stream hij hchosen hj hpending hagain
      subst hes
      obtain ⟨hlater, -⟩ := htime
      rw [run_nil] at hchosen hj hagain ⊢
      rw [step_getFeedback, hchosen] at hagain ⊢
      obtain ⟨found, hold⟩ := oldest_of_chosen hchosen
      have hreported : (s.reportAt i t₁).streams[i]? = some (found.reported t₁) := by
        rw [reportAt_get, if_pos rfl, hold.at_i, Option.map_some]
      have hkept : (s.reportAt i t₁).streams[j]? = some stream := by
        rw [reportAt_get, if_neg hij, hj]
      cases hlater with
      | inl hlt =>
          have hle := h.pending_le stream (List.mem_of_getElem? hj) hpending
          exact turn_of_older hreported hkept hpending (Nat.lt_of_le_of_lt hle hlt) between hagain
      | inr hcalls =>
          have hbetween : ∀ e ∈ between, e.IsCall :=
            fun e he => hcalls e (List.mem_append_left _ he)
          exact absurd hagain (not_chosen_of_calls hreported (Nat.lt_irrefl 0) hbetween)
  | cons e before ih =>
      intro t₁ between t₂ later hes
      subst hes
      cases e with
      | receive time_us ssrc size seq isEcnCe =>
          exact ih (h.receive time_us ssrc size _ isEcnCe) htime t₁ between t₂ later rfl
      | getFeedback t =>
          exact ih (h.getFeedback t) htime.2 t₁ between t₂ later rfl

/-! ## The feedback as a whole -/

/-- A packet about stream `i` that the sender takes in as the receiver meant it. -/
structure Delivered (o : ByteOrder) (s : ScreamRx) (time_us : Nat) (r : Created) (i : Nat)
    (stream : Stream) : Prop where
  chosen : s.chosen = some i
  oldest : Oldest s.streams i stream
  accepted : readFeedback o r.buf r.size = some stream.feedback
  taken : ∀ (tx : ScreamTx) (now_us : Nat) (overlong : Bool),
    tx.incomingPacket o now_us r.buf r.size overlong =
      tx.incomingFeedback (stream.feedback.arguments now_us overlong)
  cleared : r.rx.streams[i]? = some (stream.reported time_us)
  others : ∀ j, j ≠ i → r.rx.streams[j]? = s.streams[j]?

theorem delivered_of_chosen (o : ByteOrder) (hr : s.InRange) (buf : Mem) (size : Int)
    (h : s.chosen = some i) (hold : Oldest s.streams i stream) :
    Delivered o s time_us (s.createFeedback o time_us buf size) i stream := by
  have hread := readFeedback_storeAll (o := o) buf s.ssrc
    (hr stream (List.mem_of_getElem? hold.at_i))
  rw [createFeedback_of_oldest o buf size h hold]
  constructor
  · exact h
  · exact hold
  · exact hread
  · intro tx now_us overlong
    unfold ScreamTx.incomingPacket
    rw [hread]
  · show (s.reportAt i time_us).streams[i]? = _
    rw [reportAt_get, if_pos rfl, hold.at_i, Option.map_some]
  · intro j hji
    show (s.reportAt i time_us).streams[j]? = _
    rw [reportAt_get, if_neg (Ne.symm hji)]

/-- **The feedback of SCReAM**: a packet reaches the sender with the elements of the
stream that waits longest, and that stream alone is cleared. Calls in sequence report
the waiting streams, each once. With packets in between the turns are fair, if the
clock of the caller moves on. -/
theorem feedback_delivered_in_turn (o : ByteOrder) (s : ScreamRx) (hr : s.InRange) :
    (∀ time_us buf size,
      (s.createFeedback o time_us buf size).rx = s.step (.getFeedback time_us) ∧
      ((s.createFeedback o time_us buf size).created = true →
        ∃ i stream, Delivered o s time_us (s.createFeedback o time_us buf size) i stream) ∧
      ((s.createFeedback o time_us buf size).created = false → s.chosen = none)) ∧
    (∀ ts : List Nat,
      (s.reports (ts.map .getFeedback) ++ (s.run (ts.map .getFeedback)).waiting).Perm
        s.waiting ∧
      (s.reports (ts.map .getFeedback)).length = min ts.length s.waiting.length) ∧
    (∀ bound es, (∀ stream ∈ s.streams, stream.lastFeedbackT_us ≤ bound) →
      OnTime bound bound es → s.Fair es) := by
  refine ⟨?_, ?_, ?_⟩
  · intro time_us buf size
    refine ⟨createFeedback_rx o s time_us buf size, ?_, ?_⟩
    · intro hcreated
      obtain ⟨i, h⟩ := (created_iff_chosen o s time_us buf size).mp hcreated
      obtain ⟨stream, hold⟩ := oldest_of_chosen h
      exact ⟨i, stream, delivered_of_chosen o hr buf size h hold⟩
    · intro hfailed
      apply Option.eq_none_iff_forall_ne_some.mpr
      intro i h
      have hcreated := (created_iff_chosen o s time_us buf size).mpr ⟨i, h⟩
      exact absurd (hfailed.symm.trans hcreated) (by simp)
  · intro ts
    exact ⟨s.reports_perm ts, s.length_reports ts⟩
  · intro bound es hlast htime
    exact fair_of_onTime ⟨hlast, fun stream hmem _ => hlast stream hmem⟩ htime

/-- Two streams, of which the first one is reported first. -/
theorem feedback_delivered_in_turn_two :
    (((new 7).run [.receive 1000 1 100 5 false, .receive 1000 2 100 9 false]).createFeedback
        .little 2000 (fun _ => 0) 0).created = true ∧
      ∃ i stream, Delivered .little
        ((new 7).run [.receive 1000 1 100 5 false, .receive 1000 2 100 9 false]) 2000
        (((new 7).run [.receive 1000 1 100 5 false, .receive 1000 2 100 9 false]).createFeedback
          .little 2000 (fun _ => 0) 0) i stream := by
  have hnew : (new 7).InRange := by
    intro stream hmem
    exact absurd hmem List.not_mem_nil
  have hcreated : (((new 7).run [.receive 1000 1 100 5 false,
      .receive 1000 2 100 9 false]).createFeedback .little 2000 (fun _ => 0) 0).created = true := by
    decide
  exact ⟨hcreated,
    ((feedback_delivered_in_turn .little _ (hnew.run _)).1 2000 (fun _ => 0) 0).2.1 hcreated⟩

/-- With calls at the same time the first stream is reported again before the second
one, which has a packet to report ever since. -/
theorem turns_unfair : ¬ (new 7).Fair
    [.receive 1000 1 100 5 false, .receive 1000 2 100 9 false, .getFeedback 2000,
      .getFeedback 2000, .receive 2000 1 100 6 false, .receive 2000 2 100 10 false,
      .getFeedback 2000, .receive 2000 1 100 7 false, .getFeedback 3000] := by
  intro h
  have hturn := h
    [.receive 1000 1 100 5 false, .receive 1000 2 100 9 false, .getFeedback 2000,
      .getFeedback 2000, .receive 2000 1 100 6 false, .receive 2000 2 100 10 false]
    2000 [.receive 2000 1 100 7 false] 3000 [] rfl 0 1 _ (by decide) (by decide) rfl
    (Nat.lt_add_one 0) (by decide)
  exact absurd hturn (by decide)

end ScreamRx

end Scream
