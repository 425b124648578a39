import Mathlib.Data.BitVec
import Mathlib.Order.Interval.Finset.Nat
import RmcatNs3.Lib.Runs

/-!
# The loss record of the WebRTC sender

`webrtc-ns3/model/webrtcrecord.{h,cc}`, which tells from the sequence numbers in the feedbacks
how many packets have been lost since the last report: it keeps the highest number, the one
that was the highest at the last report, and how often a new highest one has come.
-/

namespace Webrtc

open Runs

def kGenerateReportThreshold : BitVec 32 := 100

/-- `kUINT32_MAX`, for a number that there is not yet. -/
def noSeq : BitVec 32 := -1

structure WebrtcSeqRecord where
  lastSeq : BitVec 32
  highSeq : BitVec 32
  recvCount : Int
  deriving DecidableEq

namespace WebrtcSeqRecord

def new : WebrtcSeqRecord where
  lastSeq := noSeq
  highSeq := noSeq
  recvCount := 0

def isInitialized (r : WebrtcSeqRecord) : Bool := decide (r.highSeq ≠ noSeq)

def onNewSeq (r : WebrtcSeqRecord) (seq : BitVec 32) : WebrtcSeqRecord :=
  if r.isInitialized = false ∨ r.highSeq < seq then
    { r with highSeq := seq, recvCount := r.recvCount + 1 }
  else r

def reset (r : WebrtcSeqRecord) : WebrtcSeqRecord :=
  { r with lastSeq := r.highSeq, recvCount := 0 }

def totalNumber (r : WebrtcSeqRecord) : BitVec 32 :=
  if r.isInitialized then
    if r.lastSeq ≠ noSeq then r.highSeq - r.lastSeq else r.highSeq
  else 0

def shouldGenerateReport (r : WebrtcSeqRecord) (thresh : BitVec 32) : Bool :=
  decide (thresh ≤ r.totalNumber)

/-- The difference is one of `int64_t`, and converted back. -/
def packetLost (r : WebrtcSeqRecord) : BitVec 32 :=
  BitVec.ofInt 32 (r.totalNumber.toNat - r.recvCount)

def fractionLoss (r : WebrtcSeqRecord) : BitVec 8 :=
  if r.totalNumber ≠ 0 then (r.packetLost * 255 / r.totalNumber).setWidth 8 else 0

end WebrtcSeqRecord

/-- What a feedback reports to the controller. -/
structure ReportBlock where
  fractionLoss : BitVec 8
  packetLost : BitVec 32
  highSeq : BitVec 32

/-- The part of `WebrtcSender::RecvPacket` for a feedback with these numbers. -/
def recvFeedback (r : WebrtcSeqRecord) (seqs : List (BitVec 32)) :
    WebrtcSeqRecord × Option ReportBlock :=
  let r := seqs.foldl WebrtcSeqRecord.onNewSeq r
  if r.shouldGenerateReport kGenerateReportThreshold then
    (r.reset, some ⟨r.fractionLoss, r.packetLost, r.highSeq⟩)
  else (r, none)

/-! ## Numbers that have come and numbers that have not -/

/-- How many numbers of an interval have come. -/
def heard (last high : Nat) (received : List Nat) : Nat :=
  ((Finset.Ioc last high).filter (· ∈ received)).card

/-- How many have not. -/
def missing (last high : Nat) (received : List Nat) : Nat :=
  ((Finset.Ioc last high).filter (· ∉ received)).card

section Interval

variable {last high seq : Nat} {received : List Nat}

theorem heard_add_missing (last high : Nat) (received : List Nat) :
    heard last high received + missing last high received = high - last := by
  rw [heard, missing, Finset.card_filter_add_card_filter_not, Nat.card_Ioc]

theorem heard_self (high : Nat) (received : List Nat) : heard high high received = 0 := by
  simp [heard]

/-- Above all numbers that have come the interval has no more of them. -/
theorem heard_of_le {high' : Nat} (hle : high ≤ high') (hreceived : ∀ n ∈ received, n ≤ high) :
    heard last high' received = heard last high received := by
  rw [heard, heard]
  congr 1
  ext n
  simp only [Finset.mem_filter, Finset.mem_Ioc]
  constructor
  · exact fun hn => ⟨⟨hn.1.1, hreceived n hn.2⟩, hn.2⟩
  · exact fun hn => ⟨⟨hn.1.1, hn.1.2.trans hle⟩, hn.2⟩

/-- A number outside the interval, or one that has come before, changes nothing. -/
theorem heard_cons_of_mem (h : last < seq → seq ≤ high → seq ∈ received) :
    heard last high (seq :: received) = heard last high received := by
  rw [heard, heard]
  congr 1
  ext n
  simp only [Finset.mem_filter, Finset.mem_Ioc, List.mem_cons]
  constructor
  · rintro ⟨⟨hn, hn'⟩, rfl | hmem⟩
    · exact ⟨⟨hn, hn'⟩, h hn hn'⟩
    · exact ⟨⟨hn, hn'⟩, hmem⟩
  · exact fun hn => ⟨hn.1, .inr hn.2⟩

/-- A late number is one more that has come. -/
theorem heard_cons_of_notMem (hlast : last < seq) (hhigh : seq ≤ high) (h : seq ∉ received) :
    heard last high (seq :: received) = heard last high received + 1 := by
  have hset : (Finset.Ioc last high).filter (· ∈ seq :: received) =
      insert seq ((Finset.Ioc last high).filter (· ∈ received)) := by
    ext n
    simp only [Finset.mem_filter, Finset.mem_Ioc, Finset.mem_insert, List.mem_cons]
    constructor
    · rintro ⟨hn, rfl | hmem⟩
      · exact .inl rfl
      · exact .inr ⟨hn, hmem⟩
    · rintro (rfl | ⟨hn, hmem⟩)
      · exact ⟨⟨hlast, hhigh⟩, .inl rfl⟩
      · exact ⟨hn, .inr hmem⟩
  rw [heard, hset, Finset.card_insert_of_notMem, heard]
  simp only [Finset.mem_filter]
  exact fun hn => h hn.2

end Interval

/-! ## What is to be reported -/

/-- A record, with all numbers that have come and the one that was the highest at the last
report, or 0. -/
structure ObservedRecord where
  record : WebrtcSeqRecord
  received : List Nat
  lastReported : Nat

inductive RecordCall where
  | onNewSeq (seq : BitVec 32)
  | reset

namespace ObservedRecord

def new : ObservedRecord := ⟨.new, [], 0⟩

/-- The highest number that has come, or 0. -/
def highest (s : ObservedRecord) : Nat := s.received.max?.getD 0

def perform (s : ObservedRecord) : RecordCall → ObservedRecord
  | .onNewSeq seq =>
      { s with record := s.record.onNewSeq seq, received := seq.toNat :: s.received }
  | .reset => { s with record := s.record.reset, lastReported := s.highest }

def Step (s : ObservedRecord) (call : RecordCall) (s' : ObservedRecord) : Prop :=
  s' = s.perform call

/-- **The report is right**: the loss is the number of packets since the last report that have
not come, it is part of the total, and the fraction is that of the two. -/
structure Sound (s : ObservedRecord) : Prop where
  packetLost_le : s.record.packetLost.toNat ≤ s.record.totalNumber.toNat
  fractionLoss_eq : s.record.totalNumber.toNat < 2 ^ 24 →
    s.record.fractionLoss.toNat =
      255 * s.record.packetLost.toNat / s.record.totalNumber.toNat
  packetLost_eq : s.record.packetLost.toNat = missing s.lastReported s.highest s.received

/-- What is asked of a call: the first number is not 0, no number is the one that stands for
none, and one that is below the highest and has not been reported on has come before. -/
def InOrder (s : ObservedRecord) : RecordCall → Prop
  | .onNewSeq seq => seq ≠ noSeq ∧ (s.received = [] → seq ≠ 0) ∧
      (seq.toNat < s.highest → s.lastReported < seq.toNat → seq.toNat ∈ s.received)
  | .reset => True

/-- **The invariant**, from the first number on. -/
structure Started (s : ObservedRecord) : Prop where
  high_ne : s.record.highSeq ≠ noSeq
  high_mem : s.record.highSeq.toNat ∈ s.received
  le_high : ∀ n ∈ s.received, n ≤ s.record.highSeq.toNat
  last_eq : s.lastReported = if s.record.lastSeq = noSeq then 0 else s.record.lastSeq.toNat
  last_le : s.lastReported ≤ s.record.highSeq.toNat
  count_eq : s.record.recvCount = heard s.lastReported s.record.highSeq.toNat s.received

variable {s s' : ObservedRecord}

theorem Started.highest_eq (h : s.Started) : s.highest = s.record.highSeq.toNat := by
  rw [highest, List.max?_eq_some_iff.mpr ⟨h.high_mem, h.le_high⟩, Option.getD_some]

theorem Started.isInitialized (h : s.Started) : s.record.isInitialized = true :=
  decide_eq_true h.high_ne

theorem Started.totalNumber_eq (h : s.Started) :
    s.record.totalNumber.toNat = s.record.highSeq.toNat - s.lastReported := by
  have hlast := h.last_eq
  have hle := h.last_le
  rw [WebrtcSeqRecord.totalNumber, if_pos h.isInitialized]
  by_cases hnone : s.record.lastSeq = noSeq
  · -- before the first report the total counts from 0
    rw [if_pos hnone] at hlast
    rw [if_neg (not_not.mpr hnone), hlast, Nat.sub_zero]
  · rw [if_neg hnone] at hlast
    rw [if_pos hnone, BitVec.toNat_sub]
    have hhigh := s.record.highSeq.isLt
    omega

/-- The difference of 32 bits, while the count is not above the total. -/
theorem packetLost_of_count {r : WebrtcSeqRecord} {count : Nat} (hcount : r.recvCount = count)
    (hle : count ≤ r.totalNumber.toNat) :
    r.packetLost.toNat = r.totalNumber.toNat - count := by
  have htotal := r.totalNumber.isLt
  rw [WebrtcSeqRecord.packetLost, hcount, BitVec.toNat_ofInt]
  omega

/-- **A product of 32 bits does not overflow** for less than `2 ^ 24` packets. -/
theorem fractionLoss_of_lt {r : WebrtcSeqRecord} (hle : r.packetLost.toNat ≤ r.totalNumber.toNat)
    (hlt : r.totalNumber.toNat < 2 ^ 24) :
    r.fractionLoss.toNat = 255 * r.packetLost.toNat / r.totalNumber.toNat := by
  rw [WebrtcSeqRecord.fractionLoss]
  split
  · have hfraction : 255 * r.packetLost.toNat / r.totalNumber.toNat ≤ 255 :=
      Nat.div_le_of_le_mul (by rw [mul_comm]; exact Nat.mul_le_mul_right _ hle)
    have hproduct : (r.packetLost * 255).toNat = 255 * r.packetLost.toNat := by
      rw [BitVec.toNat_mul, show (255 : BitVec 32).toNat = 255 from rfl]
      omega
    rw [BitVec.toNat_setWidth, BitVec.toNat_udiv, hproduct]
    exact Nat.mod_eq_of_lt (by omega)
  · rename_i hzero
    rw [not_not.mp hzero]
    simp

theorem Started.sound (h : s.Started) : s.Sound := by
  have htotal := h.totalNumber_eq
  have hsplit := heard_add_missing s.lastReported s.record.highSeq.toNat s.received
  have hlost := packetLost_of_count h.count_eq (by omega)
  have hle : s.record.packetLost.toNat ≤ s.record.totalNumber.toNat := by omega
  refine ⟨hle, fractionLoss_of_lt hle, ?_⟩
  rw [h.highest_eq, hlost]
  omega

/-! ## What a call keeps -/

/-- A record is new, also after resets, or has started. -/
def Counted (s : ObservedRecord) : Prop := s = new ∨ s.Started

theorem sound_new : new.Sound where
  packetLost_le := by decide
  fractionLoss_eq := by decide
  packetLost_eq := by decide

theorem Counted.sound (h : s.Counted) : s.Sound := by
  rcases h with rfl | hstarted
  · exact sound_new
  · exact hstarted.sound

theorem Counted.reset (h : s.Counted) : (s.perform .reset).Counted := by
  rcases h with rfl | hstarted
  · exact .inl rfl
  · have hhighest := hstarted.highest_eq
    refine .inr ⟨hstarted.high_ne, hstarted.high_mem, hstarted.le_high, ?_, ?_, ?_⟩
    · exact hhighest.trans (if_neg hstarted.high_ne).symm
    · exact hhighest.le
    · show (0 : Int) = (heard s.highest s.record.highSeq.toNat s.received : Nat)
      rw [hhighest, heard_self, Nat.cast_zero]

/-- The first number. -/
theorem started_first {seq : BitVec 32} (hnone : seq ≠ noSeq) (hzero : seq ≠ 0) :
    (new.perform (.onNewSeq seq)).Started := by
  have hpos : 0 < seq.toNat := by
    have hne : seq.toNat ≠ 0 := fun h => hzero (BitVec.eq_of_toNat_eq h)
    omega
  refine ⟨hnone, List.mem_singleton_self _, ?_, rfl, Nat.zero_le _, ?_⟩
  · intro n hn
    exact (List.mem_singleton.mp hn).le
  · have hone := heard_cons_of_notMem hpos (le_refl seq.toNat) List.not_mem_nil
    have hempty : heard 0 seq.toNat [] = 0 := by simp [heard]
    rw [hempty] at hone
    exact (congrArg Nat.cast hone).symm

/-- A new highest number. -/
theorem Started.above (h : s.Started) {seq : BitVec 32} (hnone : seq ≠ noSeq)
    (hlt : s.record.highSeq < seq) : (s.perform (.onNewSeq seq)).Started := by
  have hless : s.record.highSeq.toNat < seq.toNat := BitVec.lt_def.mp hlt
  have hrecord : s.record.onNewSeq seq =
      { s.record with highSeq := seq, recvCount := s.record.recvCount + 1 } :=
    if_pos (.inr hlt)
  have hnew : seq.toNat ∉ s.received := fun hmem => absurd (h.le_high _ hmem) (by omega)
  have hlast := h.last_le
  simp only [perform, hrecord]
  refine ⟨hnone, List.mem_cons_self, ?_, h.last_eq, by dsimp only; omega, ?_⟩
  · intro n hn
    rcases List.mem_cons.mp hn with rfl | hold
    · exact le_refl _
    · exact (h.le_high n hold).trans hless.le
  · dsimp only
    rw [heard_cons_of_notMem (by omega) (le_refl _) hnew, heard_of_le hless.le h.le_high,
      h.count_eq, Nat.cast_succ]

/-- A number that is not above the highest one leaves the record. -/
theorem Started.onNewSeq_of_le (h : s.Started) {seq : BitVec 32} (hle : ¬ s.record.highSeq < seq) :
    s.record.onNewSeq seq = s.record :=
  if_neg (not_or.mpr ⟨by simp [h.isInitialized], hle⟩)

/-- A number that is not above the highest one, and not new in the interval. -/
theorem Started.below (h : s.Started) {seq : BitVec 32} (hle : ¬ s.record.highSeq < seq)
    (hseen : seq.toNat < s.highest → s.lastReported < seq.toNat → seq.toNat ∈ s.received) :
    (s.perform (.onNewSeq seq)).Started := by
  have hnot : seq.toNat ≤ s.record.highSeq.toNat := Nat.not_lt.mp hle
  have hmem : s.lastReported < seq.toNat → seq.toNat ≤ s.record.highSeq.toNat →
      seq.toNat ∈ s.received := by
    intro hlast _
    rcases hnot.lt_or_eq with hless | heq
    · exact hseen (hless.trans_eq h.highest_eq.symm) hlast
    · exact heq ▸ h.high_mem
  simp only [perform, h.onNewSeq_of_le hle]
  refine ⟨h.high_ne, List.mem_cons_of_mem _ h.high_mem, ?_, h.last_eq, h.last_le, ?_⟩
  · intro n hn
    rcases List.mem_cons.mp hn with rfl | hold
    · exact hnot
    · exact h.le_high n hold
  · dsimp only
    rw [heard_cons_of_mem hmem]
    exact h.count_eq

/-- **Step lemma**: what is asked of a call keeps the record right. -/
theorem Counted.perform (h : s.Counted) {call : RecordCall} (horder : s.InOrder call) :
    (s.perform call).Counted := by
  cases call with
  | reset => exact h.reset
  | onNewSeq seq =>
      obtain ⟨hnone, hfirst, hseen⟩ := horder
      rcases h with rfl | hstarted
      · exact .inr (started_first hnone (hfirst rfl))
      · by_cases hlt : s.record.highSeq < seq
        · exact .inr (hstarted.above hnone hlt)
        · exact .inr (hstarted.below hlt hseen)

/-! ## What goes wrong otherwise -/

/-- The number that stands for none: the total is 0, and something has been counted. -/
theorem Counted.not_sound_noSeq (h : s.Counted) : ¬ (s.perform (.onNewSeq noSeq)).Sound := by
  intro hsound
  have hle := hsound.packetLost_le
  have hcount : ∃ count : Nat, s.record.recvCount = count ∧ count < 2 ^ 32 - 1 := by
    rcases h with rfl | hstarted
    · exact ⟨0, rfl, by decide⟩
    · have hhigh := s.record.highSeq.isLt
      have hne : s.record.highSeq.toNat ≠ 2 ^ 32 - 1 :=
        fun heq => hstarted.high_ne (BitVec.eq_of_toNat_eq heq)
      have hsplit := heard_add_missing s.lastReported s.record.highSeq.toNat s.received
      exact ⟨_, hstarted.count_eq, by omega⟩
  obtain ⟨count, hcount, hlt⟩ := hcount
  have hlast : s.record.isInitialized = false ∨ s.record.highSeq < noSeq := by
    by_cases hinit : s.record.isInitialized = true
    · refine .inr (BitVec.lt_def.mpr ?_)
      have hhigh := s.record.highSeq.isLt
      have hne : s.record.highSeq.toNat ≠ 2 ^ 32 - 1 :=
        fun heq => of_decide_eq_true hinit (BitVec.eq_of_toNat_eq heq)
      show s.record.highSeq.toNat < 2 ^ 32 - 1
      omega
    · exact .inl (Bool.not_eq_true _ ▸ hinit)
  -- the record looks new again: its total is 0, and what has been counted is taken from it
  simp only [ObservedRecord.perform, WebrtcSeqRecord.onNewSeq, if_pos hlast] at hle
  simp only [WebrtcSeqRecord.packetLost, WebrtcSeqRecord.totalNumber,
    WebrtcSeqRecord.isInitialized, hcount, BitVec.toNat_ofInt] at hle
  simp at hle
  omega

/-- A first number of 0: the total is 0, and one has been counted. -/
theorem not_sound_zero : ¬ (new.perform (.onNewSeq 0)).Sound := by
  intro hsound
  exact absurd hsound.packetLost_le (by decide)

/-- A late number is no longer missing, and is reported as lost. -/
theorem Started.not_sound_late (h : s.Started) {seq : BitVec 32} (hlt : seq.toNat < s.highest)
    (hlast : s.lastReported < seq.toNat) (hnew : seq.toNat ∉ s.received) :
    ¬ (s.perform (.onNewSeq seq)).Sound := by
  intro hsound
  have hbefore := h.sound.packetLost_eq
  have hafter := hsound.packetLost_eq
  have hhighest := h.highest_eq
  have hnot : ¬ s.record.highSeq < seq := by
    rw [BitVec.lt_def]
    omega
  have hmax : (s.perform (.onNewSeq seq)).highest = s.highest := by
    have hle : ∀ n ∈ seq.toNat :: s.received, n ≤ s.record.highSeq.toNat := by
      intro n hn
      rcases List.mem_cons.mp hn with rfl | hold
      · omega
      · exact h.le_high n hold
    rw [hhighest, highest, ObservedRecord.perform,
      List.max?_eq_some_iff.mpr ⟨List.mem_cons_of_mem _ h.high_mem, hle⟩, Option.getD_some]
  -- one more has come in the interval, and the record says what it said before
  have hone := heard_cons_of_notMem hlast hlt.le hnew
  have hsplit := heard_add_missing s.lastReported s.highest s.received
  have hsplit' := heard_add_missing s.lastReported s.highest (seq.toNat :: s.received)
  rw [hmax] at hafter
  simp only [ObservedRecord.perform, h.onNewSeq_of_le hnot] at hafter
  omega

theorem Counted.sound_iff (h : s.Counted) (call : RecordCall) :
    (s.perform call).Sound ↔ s.InOrder call := by
  refine ⟨fun hsound => ?_, fun horder => (h.perform horder).sound⟩
  cases call with
  | reset => trivial
  | onNewSeq seq =>
      refine ⟨?_, ?_, ?_⟩
      · rintro rfl
        exact h.not_sound_noSeq hsound
      · rintro hempty rfl
        rcases h with rfl | hstarted
        · exact not_sound_zero hsound
        · exact absurd hstarted.high_mem (by simp [hempty])
      · intro hlt hlast
        rcases h with rfl | hstarted
        · exact absurd hlt (Nat.not_lt_zero _)
        · by_contra hnew
          exact hstarted.not_sound_late hlt hlast hnew hsound

/-- **The loss reports**: every state of a run reports right exactly if every call of it is in
order. -/
theorem sound_iff_of_run {calls : List RecordCall} :
    Run (fun s call s' => Step s call s' ∧ s'.Sound) new calls s ↔
      Run (fun s call s' => Step s call s' ∧ s.InOrder call) new calls s := by
  refine Run.restrict_iff (I := Counted) (.inl rfl) fun s call s' hcounted hstep => ?_
  subst hstep
  exact ⟨hcounted.sound_iff call, hcounted.perform⟩

/-- **A packet that comes late is reported as lost**, with all three received. -/
theorem not_sound_reordered :
    ¬ ([RecordCall.onNewSeq 1, .onNewSeq 3, .onNewSeq 2].foldl perform new).Sound := by
  intro hsound
  exact absurd hsound.packetLost_eq (by decide)

/-- A feedback is a sequence of calls of the record. -/
theorem recvFeedback_eq (s : ObservedRecord) (seqs : List (BitVec 32)) :
    ∃ calls : List RecordCall, (recvFeedback s.record seqs).1 = (calls.foldl perform s).record := by
  have hseqs : ∀ s : ObservedRecord, seqs.foldl WebrtcSeqRecord.onNewSeq s.record =
      ((seqs.map RecordCall.onNewSeq).foldl perform s).record := by
    induction seqs with
    | nil => exact fun _ => rfl
    | cons seq rest ih => exact fun s => ih (s.perform (.onNewSeq seq))
  rw [recvFeedback, hseqs]
  split
  · refine ⟨seqs.map RecordCall.onNewSeq ++ [.reset], ?_⟩
    rw [List.foldl_append]
    rfl
  · exact ⟨_, rfl⟩

end ObservedRecord

end Webrtc
