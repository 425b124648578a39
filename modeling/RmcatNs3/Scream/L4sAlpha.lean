import RmcatNs3.Scream.WindowFloor

/-!
# The share of marked bytes in L4S mode

`l4sAlpha` is meant to follow, once in a round trip, the share of the acknowledged bytes that
carried a congestion mark. It is kept beside the sender, with an account of the bytes that each
of its updates is about.
-/

namespace Scream

open FloatRounding MachineInt Runs

def kL4sG : ℚ := 0.125

/-- An update of `l4sAlpha`: what it was computed from, and what has been reported since the
update before it. -/
structure AlphaUpdate where
  time_us : Nat
  sRtt_us : Nat
  bytesMarkedThisRtt : Nat
  bytesDeliveredThisRtt : Nat
  ceMarked : Nat
  newlyAcked : Nat
  deriving DecidableEq

/-- What a feedback brings, with the round trip time after it. -/
structure AckReport where
  time_us : Nat
  sRtt_us : Nat
  ceMarked : Nat
  /-- The bytes that this feedback has acknowledged. -/
  newlyAcked : Nat
  /-- What the counter stands at. -/
  bytesNewlyAcked : Nat

structure L4sAlpha where
  isL4s : Bool
  l4sAlpha : ℚ
  bytesMarkedThisRtt : Nat
  bytesDeliveredThisRtt : Nat
  lastL4sAlphaUpdateT_us : Nat
  /-- The bytes reported as marked since the last update; the source has none of the fields
  from here on. -/
  ceMarkedSince : Nat
  /-- The bytes acknowledged since the last update. -/
  newlyAckedSince : Nat
  updates : List AlphaUpdate

namespace L4sAlpha

def new (isL4s : Bool) : L4sAlpha where
  isL4s := isL4s
  l4sAlpha := toFloat 0.1
  bytesMarkedThisRtt := 0
  bytesDeliveredThisRtt := 0
  lastL4sAlphaUpdateT_us := 0
  ceMarkedSince := 0
  newlyAckedSince := 0
  updates := []

/-- The part of `initialize`. -/
def ensureInitialized (a : L4sAlpha) (tx : ScreamTx) (time_us : Nat) : L4sAlpha :=
  if tx.isInitialized then a else { a with lastL4sAlphaUpdateT_us := time_us }

/-- Bytes are added to what will be the next update. -/
def count (a : L4sAlpha) (r : AckReport) : L4sAlpha :=
  { a with
    bytesMarkedThisRtt := a.bytesMarkedThisRtt + r.ceMarked
    bytesDeliveredThisRtt := a.bytesDeliveredThisRtt + r.bytesNewlyAcked
    ceMarkedSince := a.ceMarkedSince + r.ceMarked
    newlyAckedSince := a.newlyAckedSince + r.newlyAcked }

/-- `kL4sG*F + (1.0f - kL4sG)*l4sAlpha` -/
def smoothed (marked delivered : Nat) (l4sAlpha : ℚ) : ℚ :=
  fadd (fmul kL4sG (fdiv (toFloat marked) (toFloat delivered)))
    (fmul (fsub 1 kL4sG) l4sAlpha)

def updateAlpha (a : L4sAlpha) (r : AckReport) : L4sAlpha :=
  if a.bytesDeliveredThisRtt > 0 then
    { a with
      l4sAlpha := smoothed a.bytesMarkedThisRtt a.bytesDeliveredThisRtt a.l4sAlpha
      bytesDeliveredThisRtt := 0
      bytesMarkedThisRtt := 0
      ceMarkedSince := 0
      newlyAckedSince := 0
      updates := a.updates ++ [⟨r.time_us, r.sRtt_us, a.bytesMarkedThisRtt,
        a.bytesDeliveredThisRtt, a.ceMarkedSince, a.newlyAckedSince⟩] }
  else a

/-- `lastL4sAlphaUpdateT_us - time_us > sRtt_us`, a difference of two `uint64_t` with the later
time on its right. -/
def updateIsDue (a : L4sAlpha) (r : AckReport) : Prop :=
  timeSince a.lastL4sAlphaUpdateT_us r.time_us > r.sRtt_us

instance (a : L4sAlpha) (r : AckReport) : Decidable (a.updateIsDue r) :=
  inferInstanceAs (Decidable (_ < _))

/-- "L4S mode" -/
def report (a : L4sAlpha) (r : AckReport) : L4sAlpha :=
  let a := a.count r
  if a.updateIsDue r then { a with lastL4sAlphaUpdateT_us := r.time_us }.updateAlpha r else a

/-- What `markAcked` and `detectLoss` have found. -/
def ackReport (tx : ScreamTx) (fb : IncomingFeedback) (stream : TxStream) : AckReport :=
  let marked := tx.markAcked fb stream
  let d := tx.detectLoss fb stream marked
  { time_us := fb.time_us
    sRtt_us := marked.rtt.sRtt_us
    ceMarked := (fb.ecnCeMarkedBytes - stream.ecnCeMarkedBytes).toNat
    newlyAcked := d.bytesNewlyAcked - tx.bytesNewlyAcked
    bytesNewlyAcked := d.bytesNewlyAcked }

def incomingFeedback (a : L4sAlpha) (tx : ScreamTx) (fb : IncomingFeedback) : L4sAlpha :=
  let a := a.ensureInitialized tx fb.time_us
  match tx.accepts fb with
  | none => a
  | some (_, stream) =>
      if a.isL4s then a.report (ackReport (tx.ensureInitialized fb.time_us) fb stream) else a

/-- What a call of the sender does to `l4sAlpha`. -/
def after (a : L4sAlpha) (tx : ScreamTx) : TxEvent → L4sAlpha
  | .registerNewStream _ => a
  | .newMediaFrame time_us _ => a.ensureInitialized tx time_us
  | .isOkToTransmit time_us _ _ => a.ensureInitialized tx time_us
  | .addTransmitted time_us _ _ _ => a.ensureInitialized tx time_us
  | .incomingFeedback fb => a.incomingFeedback tx fb
  | .getTargetBitrate _ => a

/-! ## What is to hold -/

/-- **The account of the updates**: any two of them are more than a round trip apart, each was
computed from what has been reported since the one before it, and `l4sAlpha` is a share. -/
structure Sound (a : L4sAlpha) : Prop where
  apart : a.updates.Pairwise fun u v => u.time_us + v.sRtt_us < v.time_us
  counted_once : ∀ u ∈ a.updates,
    u.bytesMarkedThisRtt = u.ceMarked ∧ u.bytesDeliveredThisRtt = u.newlyAcked
  l4sAlpha_nonneg : 0 ≤ a.l4sAlpha
  l4sAlpha_le_one : a.l4sAlpha ≤ 1

/-- What is asked of a feedback: no bytes of an earlier one are still in the counter; and it
comes at the time of the last test that was passed, or nothing has been acknowledged since the
last update, or that update is more than a round trip ago and no more bytes have been marked
than acknowledged since then. -/
def Orderly (a : L4sAlpha) (tx : ScreamTx) (r : AckReport) : Prop :=
  tx.bytesNewlyAcked = 0 ∧
    (r.time_us = a.lastL4sAlphaUpdateT_us ∨ a.newlyAckedSince + r.newlyAcked = 0 ∨
      (∀ u ∈ a.updates.getLast?, u.time_us + r.sRtt_us < r.time_us) ∧
        a.ceMarkedSince + r.ceMarked ≤ a.newlyAckedSince + r.newlyAcked)

instance (a : L4sAlpha) (tx : ScreamTx) (r : AckReport) : Decidable (a.Orderly tx r) :=
  inferInstanceAs (Decidable (_ ∧ (_ ∨ _ ∨ (∀ u ∈ a.updates.getLast?, _) ∧ _)))

/-! ## The arithmetic of the share -/

section Share

variable {x : ℚ}

theorem toFloat_of_nonneg (h : 0 ≤ x) : toFloat x = roundTo 24 x := by
  rw [toFloat, roundSigned, if_neg h.not_gt]

theorem toFloat_nonneg (h : 0 ≤ x) : 0 ≤ toFloat x := by
  rw [toFloat_of_nonneg h]
  exact roundTo_nonneg h

theorem toFloat_mono {y : ℚ} (hx : 0 ≤ x) (h : x ≤ y) : toFloat x ≤ toFloat y := by
  rw [toFloat_of_nonneg hx, toFloat_of_nonneg (hx.trans h)]
  exact roundTo_mono (by decide) hx h

theorem toFloat_mul_zpow {n : Nat} {e : Int} (h : n < 2 ^ 24) :
    toFloat (n * 2 ^ e) = n * 2 ^ e := by
  rw [toFloat_of_nonneg (mul_nonneg (Nat.cast_nonneg _) (zpow_nonneg (by norm_num) _)),
    roundTo_mul_zpow h]

/-- Rounding keeps a number below one that fits in the digits. -/
theorem toFloat_le {n : Nat} {e : Int} (hx : 0 ≤ x) (hn : n < 2 ^ 24) (h : x ≤ n * 2 ^ e) :
    toFloat x ≤ n * 2 ^ e := by
  rw [← toFloat_mul_zpow hn]
  exact toFloat_mono hx h

theorem toFloat_le_one (hx : 0 ≤ x) (h : x ≤ 1) : toFloat x ≤ 1 := by
  have hround := @toFloat_le x 1 0 hx (by decide) (by simpa using h)
  simpa using hround

theorem le_toFloat {n : Nat} {e : Int} (hn : n < 2 ^ 24) (h : n * 2 ^ e ≤ x) :
    n * 2 ^ e ≤ toFloat x := by
  rw [← toFloat_mul_zpow hn]
  exact toFloat_mono (mul_nonneg (Nat.cast_nonneg _) (zpow_nonneg (by norm_num) _)) h

theorem fsub_one_kL4sG : fsub 1 kL4sG = 7 * 2 ^ (-3 : Int) := by
  have hvalue : (1 : ℚ) - kL4sG = (7 : Nat) * 2 ^ (-3 : Int) := by norm_num [kL4sG]
  rw [fsub, hvalue, toFloat_mul_zpow (by decide), Nat.cast_ofNat]

/-- Of two counts the smaller one is a share of the other. -/
theorem fdiv_le_one {marked delivered : Nat} (h : marked ≤ delivered) :
    0 ≤ fdiv (toFloat marked) (toFloat delivered) ∧
      fdiv (toFloat marked) (toFloat delivered) ≤ 1 := by
  have hmarked : 0 ≤ toFloat marked := toFloat_nonneg (Nat.cast_nonneg _)
  have hmono : toFloat marked ≤ toFloat delivered :=
    toFloat_mono (Nat.cast_nonneg _) (Nat.cast_le.mpr h)
  have hshare : 0 ≤ toFloat marked / toFloat delivered := div_nonneg hmarked (hmarked.trans hmono)
  exact ⟨toFloat_nonneg hshare,
    toFloat_le_one hshare (div_le_one_of_le₀ hmono (hmarked.trans hmono))⟩

/-- **A mean of shares is a share.** -/
theorem smoothed_mem {marked delivered : Nat} {alpha : ℚ} (h : marked ≤ delivered)
    (hnonneg : 0 ≤ alpha) (hone : alpha ≤ 1) :
    0 ≤ smoothed marked delivered alpha ∧ smoothed marked delivered alpha ≤ 1 := by
  obtain ⟨hF, hF_one⟩ := fdiv_le_one h
  have hleft : 0 ≤ kL4sG * fdiv (toFloat marked) (toFloat delivered) :=
    mul_nonneg (by norm_num [kL4sG]) hF
  have hright : 0 ≤ fsub 1 kL4sG * alpha := mul_nonneg (by rw [fsub_one_kL4sG]; norm_num) hnonneg
  have hleft_le : fmul kL4sG (fdiv (toFloat marked) (toFloat delivered)) ≤
      (1 : Nat) * 2 ^ (-3 : Int) := by
    refine toFloat_le hleft (by decide) ?_
    norm_num [kL4sG]
    linarith
  have hright_le : fmul (fsub 1 kL4sG) alpha ≤ (7 : Nat) * 2 ^ (-3 : Int) := by
    refine toFloat_le hright (by decide) ?_
    rw [fsub_one_kL4sG]
    norm_num
    linarith
  have hsum : 0 ≤ fmul kL4sG (fdiv (toFloat marked) (toFloat delivered)) +
      fmul (fsub 1 kL4sG) alpha := add_nonneg (toFloat_nonneg hleft) (toFloat_nonneg hright)
  refine ⟨toFloat_nonneg hsum, toFloat_le_one hsum ((add_le_add hleft_le hright_le).trans ?_)⟩
  norm_num

/-- The factor that a mark takes the window down by. -/
theorem ecnFactor_mem {w : CongestionWindow} (hl4s : w.isL4s = true) {r : Readings}
    (hnonneg : 0 ≤ r.l4sAlpha) (hone : r.l4sAlpha ≤ 1) :
    1 / 2 ≤ w.ecnFactor r ∧ w.ecnFactor r ≤ 1 := by
  have hhalf_nonneg : 0 ≤ r.l4sAlpha / 2 := by linarith
  have hhalf : fdiv r.l4sAlpha 2 ≤ (1 : Nat) * 2 ^ (-1 : Int) := by
    refine toFloat_le hhalf_nonneg (by decide) ?_
    norm_num
    linarith
  have hpos : 0 ≤ fdiv r.l4sAlpha 2 := toFloat_nonneg hhalf_nonneg
  norm_num at hhalf
  have hlower : (1 : Nat) * 2 ^ (-1 : Int) ≤ 1 - fdiv r.l4sAlpha 2 := by
    norm_num
    linarith
  rw [CongestionWindow.ecnFactor, if_pos hl4s]
  constructor
  · have hround := le_toFloat (by decide) hlower
    norm_num at hround
    exact hround
  · exact toFloat_le_one (by linarith) (by linarith)

end Share

/-! ## What an orderly feedback keeps -/

/-- **The invariant**: the account is sound, and what has been counted for the next update is
what has been reported since the last one. -/
structure Inv (a : L4sAlpha) : Prop extends Sound a where
  marked_eq : a.bytesMarkedThisRtt = a.ceMarkedSince
  delivered_eq : a.bytesDeliveredThisRtt = a.newlyAckedSince

variable {a : L4sAlpha}

theorem inv_new (isL4s : Bool) : (new isL4s).Inv where
  apart := .nil
  counted_once := fun _ hu => absurd hu List.not_mem_nil
  l4sAlpha_nonneg := toFloat_nonneg (by norm_num)
  l4sAlpha_le_one := toFloat_le_one (by norm_num) (by norm_num)
  marked_eq := rfl
  delivered_eq := rfl

/-- The time of the test is not in the account. -/
theorem Inv.passTest (h : a.Inv) (time_us : Nat) :
    ({ a with lastL4sAlphaUpdateT_us := time_us } : L4sAlpha).Inv where
  toSound := ⟨h.apart, h.counted_once, h.l4sAlpha_nonneg, h.l4sAlpha_le_one⟩
  marked_eq := h.marked_eq
  delivered_eq := h.delivered_eq

theorem Inv.ensureInitialized (h : a.Inv) (tx : ScreamTx) (time_us : Nat) :
    (a.ensureInitialized tx time_us).Inv := by
  rw [L4sAlpha.ensureInitialized]
  split
  · exact h
  · exact h.passTest time_us

/-- Later than the last one is later than all, since they are apart. -/
theorem Sound.apart_append (h : a.Sound) {v : AlphaUpdate}
    (hlast : ∀ u ∈ a.updates.getLast?, u.time_us + v.sRtt_us < v.time_us) :
    (a.updates ++ [v]).Pairwise fun u v => u.time_us + v.sRtt_us < v.time_us := by
  refine List.pairwise_append.mpr ⟨h.apart, List.pairwise_singleton _ _, fun u hu v' hv => ?_⟩
  rw [List.mem_singleton.mp hv]
  have happart := h.apart
  rcases List.eq_nil_or_concat a.updates with hnil | ⟨init, last, hconcat⟩
  · rw [hnil] at hu
    cases hu
  · -- the others are before the last one, which is far enough
    rw [hconcat, List.concat_eq_append] at hu hlast happart
    have hless := hlast last (by simp)
    rcases List.mem_append.mp hu with hinit | hend
    · have hbefore := (List.pairwise_append.mp happart).2.2 u hinit last (by simp)
      omega
    · rw [List.mem_singleton.mp hend]
      exact hless

/-- What the counter has gained is what the feedback has acknowledged. -/
theorem Inv.count (h : a.Inv) {r : AckReport} (hfresh : r.bytesNewlyAcked = r.newlyAcked) :
    (a.count r).Inv where
  toSound := ⟨h.apart, h.counted_once, h.l4sAlpha_nonneg, h.l4sAlpha_le_one⟩
  marked_eq := congrArg (· + r.ceMarked) h.marked_eq
  delivered_eq := by
    simp only [L4sAlpha.count]
    rw [h.delivered_eq, hfresh]

/-- An update that is far enough from the last one, and has no more marked than delivered. -/
theorem Inv.updateAlpha (h : a.Inv) {r : AckReport}
    (hlast : ∀ u ∈ a.updates.getLast?, u.time_us + r.sRtt_us < r.time_us)
    (hshare : a.ceMarkedSince ≤ a.newlyAckedSince) : (a.updateAlpha r).Inv := by
  rw [L4sAlpha.updateAlpha]
  split
  · have hmem : a.bytesMarkedThisRtt ≤ a.bytesDeliveredThisRtt := by
      rw [h.marked_eq, h.delivered_eq]
      exact hshare
    obtain ⟨hnonneg, hone⟩ := smoothed_mem hmem h.l4sAlpha_nonneg h.l4sAlpha_le_one
    refine ⟨⟨h.apart_append hlast, fun u hu => ?_, hnonneg, hone⟩, rfl, rfl⟩
    rcases List.mem_append.mp hu with hold | hnew
    · exact h.counted_once u hold
    · rw [List.mem_singleton.mp hnew]
      exact ⟨h.marked_eq, h.delivered_eq⟩
  · exact h

/-- **Step lemma**: the test is not passed at the time of the last one, and has no effect while
nothing is delivered. -/
theorem Inv.report (h : a.Inv) {tx : ScreamTx} {r : AckReport} (horderly : a.Orderly tx r)
    (hfresh : r.bytesNewlyAcked = r.newlyAcked) : (a.report r).Inv := by
  have hcount := h.count hfresh
  have hpassed := hcount.passTest r.time_us
  simp only [L4sAlpha.report]
  split
  · rename_i hdue
    rcases horderly.2 with hsame | hnothing | ⟨hlast, hshare⟩
    · -- the time of the last test: no time has passed, so the test fails
      simp [updateIsDue, L4sAlpha.count, hsame, timeSince, toUnsigned] at hdue
    · have hzero : (a.count r).bytesDeliveredThisRtt = 0 := hcount.delivered_eq.trans hnothing
      rw [L4sAlpha.updateAlpha, if_neg (by simp [hzero])]
      exact hpassed
    · exact hpassed.updateAlpha hlast hshare
  · exact hcount

/-! ## The bytes of a feedback -/

section Counting

variable {fb : IncomingFeedback} {stream : TxStream} {tx : ScreamTx}

theorem le_passEdge (d : Detection) (highestSeqNr : BitVec 16) (n : Nat) :
    d.bytesNewlyAcked ≤ (d.passEdge highestSeqNr n).bytesNewlyAcked := by
  simp only [Detection.passEdge]
  split
  · exact Nat.le_add_right _ _
  · exact le_refl _

theorem le_scanSlot (highestSeqNr : BitVec 16) (timeTxAck_us : Nat) (raises : Bool)
    (d : Detection) (n : Nat) :
    d.bytesNewlyAcked ≤ (scanSlot highestSeqNr timeTxAck_us raises d n).bytesNewlyAcked := by
  simp only [scanSlot]
  split_ifs
  · exact le_passEdge d highestSeqNr n
  · exact le_passEdge d highestSeqNr n
  · exact le_passEdge d highestSeqNr n
  · exact le_refl _

theorem sweepSlot_bytesNewlyAcked (raises : Bool) (d : Detection) (n : Nat) :
    (sweepSlot raises d n).bytesNewlyAcked = d.bytesNewlyAcked := by
  rw [sweepSlot]
  split <;> rfl

/-- `detectLoss` only adds to the counter. -/
theorem le_detectLoss (marked : Marking) :
    tx.bytesNewlyAcked ≤ (tx.detectLoss fb stream marked).bytesNewlyAcked := by
  rw [ScreamTx.detectLoss]
  let grown (d : Detection) : Prop := tx.bytesNewlyAcked ≤ d.bytesNewlyAcked
  refine List.foldlRecOn (motive := grown) _ _ ?_ fun d hd n _ => hd.trans (le_scanSlot _ _ _ d n)
  refine List.foldlRecOn (motive := grown) _ _ (le_refl _) fun d hd n _ => ?_
  exact hd.trans (sweepSlot_bytesNewlyAcked _ d n).ge

/-- **What stays in the counter** is there on top of what the feedback has acknowledged. -/
theorem ackReport_bytesNewlyAcked :
    (ackReport tx fb stream).bytesNewlyAcked =
      tx.bytesNewlyAcked + (ackReport tx fb stream).newlyAcked :=
  (Nat.add_sub_cancel' (le_detectLoss _)).symm

end Counting

end L4sAlpha

/-! ## The share in its sender -/

/-- A sender with its share of marked bytes. -/
structure L4sTx where
  tx : ScreamTx
  l4s : L4sAlpha

namespace L4sTx

def new (lossBetaBelowOne isL4s : Bool) : L4sTx := ⟨.new lossBetaBelowOne, .new isL4s⟩

/-- One call; `none` where the code uses a stream that does not exist. -/
def perform (s : L4sTx) (e : TxEvent) : Option L4sTx :=
  (s.tx.step? e).map fun tx => { tx, l4s := s.l4s.after s.tx e }

/-- What is asked of a call: that a feedback that is not ignored is orderly. -/
def OrderlyCall (s : L4sTx) : TxEvent → Prop
  | .incomingFeedback fb => ∀ found ∈ s.tx.accepts fb,
      (s.l4s.ensureInitialized s.tx fb.time_us).Orderly (s.tx.ensureInitialized fb.time_us)
        (L4sAlpha.ackReport (s.tx.ensureInitialized fb.time_us) fb found.2)
  | _ => True

instance (s : L4sTx) : (e : TxEvent) → Decidable (s.OrderlyCall e)
  | .incomingFeedback fb => inferInstanceAs (Decidable (∀ found ∈ s.tx.accepts fb, _))
  | .registerNewStream _ => isTrue trivial
  | .newMediaFrame _ _ => isTrue trivial
  | .isOkToTransmit _ _ _ => isTrue trivial
  | .addTransmitted _ _ _ _ => isTrue trivial
  | .getTargetBitrate _ => isTrue trivial

variable {s s' : L4sTx}

/-- The rest of the sender takes the steps of `ScreamTx`. -/
theorem tx_step {e : TxEvent} (h : s.perform e = some s') : s.tx.Step e s'.tx := by
  obtain ⟨tx, htx, rfl⟩ := Option.map_eq_some_iff.mp h
  exact htx

/-- **Step lemma**, one case for each call. -/
theorem inv_perform {e : TxEvent} (hinv : s.l4s.Inv) (horderly : s.OrderlyCall e)
    (h : s.perform e = some s') : s'.l4s.Inv := by
  obtain ⟨tx, _, rfl⟩ := Option.map_eq_some_iff.mp h
  cases e with
  | registerNewStream ssrc => exact hinv
  | newMediaFrame time_us ssrc => exact hinv.ensureInitialized s.tx time_us
  | isOkToTransmit time_us slow prioritized => exact hinv.ensureInitialized s.tx time_us
  | addTransmitted time_us ssrc size seqNr => exact hinv.ensureInitialized s.tx time_us
  | incomingFeedback fb =>
      have hinit := hinv.ensureInitialized s.tx fb.time_us
      simp only [L4sAlpha.after, L4sAlpha.incomingFeedback]
      split
      · exact hinit
      · rename_i i stream haccepts
        have hfeedback := horderly (i, stream) haccepts
        split
        · refine hinit.report hfeedback ?_
          rw [L4sAlpha.ackReport_bytesNewlyAcked, hfeedback.1, Nat.zero_add]
        · exact hinit
  | getTargetBitrate ssrc => exact hinv

/-- **The share of marked bytes**: in every run of an L4S sender whose feedbacks are orderly,
any two updates are more than a round trip apart, every byte is counted in one of them, and the
share is between 0 and 1, so that a mark leaves half of the window or more. -/
theorem l4sAlpha_of_run {lossBetaBelowOne : Bool} {es : List TxEvent}
    (h : Run (fun s e s' => s.perform e = some s' ∧ s.OrderlyCall e) (new lossBetaBelowOne true)
      es s) :
    s.l4s.Sound ∧ ∀ (w : CongestionWindow) (r : Readings), w.isL4s = true →
      r.l4sAlpha = s.l4s.l4sAlpha → 1 / 2 ≤ w.ecnFactor r ∧ w.ecnFactor r ≤ 1 := by
  have hinv : s.l4s.Inv := h.stateInvariant (I := fun s => s.l4s.Inv) (L4sAlpha.inv_new true)
    fun s e s' hinv hstep => inv_perform hinv hstep.2 hstep.1
  refine ⟨hinv.toSound, fun w r hl4s halpha => ?_⟩
  refine L4sAlpha.ecnFactor_mem hl4s ?_ ?_
  · rw [halpha]
    exact hinv.l4sAlpha_nonneg
  · rw [halpha]
    exact hinv.l4sAlpha_le_one

/-- Two packets are acknowledged, with 51 ms between them and half of the bytes marked. -/
def orderlyCalls : List TxEvent :=
  [.registerNewStream 7, .incomingFeedback ⟨1000, 7, 1, 1, 0, 0, false⟩,
    .addTransmitted 2000 7 1200 2, .incomingFeedback ⟨52000, 7, 52, 2, 0, 600, false⟩,
    .addTransmitted 53000 7 1200 3, .incomingFeedback ⟨103000, 7, 103, 3, 0, 1200, false⟩]

theorem l4sAlpha_of_orderlyCalls :
    ∃ s, Run (fun s e s' => s.perform e = some s' ∧ s.OrderlyCall e) (new true true)
      orderlyCalls s ∧ s.l4s.updates.length = 2 ∧
    s.l4s.Sound ∧ ∀ (w : CongestionWindow) (r : Readings), w.isL4s = true →
      r.l4sAlpha = s.l4s.l4sAlpha → 1 / 2 ≤ w.ecnFactor r ∧ w.ecnFactor r ≤ 1 := by
  have hrun : ∃ s, orderlyCalls.foldlM (fun s e => if OrderlyCall s e then s.perform e else none)
      (new true true) = some s ∧ s.l4s.updates.length = 2 := ⟨_, rfl, rfl⟩
  obtain ⟨s, hs, htwo⟩ := hrun
  have hguarded := Run.of_foldlM_guarded hs
  exact ⟨s, hguarded, htwo, l4sAlpha_of_run hguarded⟩

/-- Two packets are acknowledged half a millisecond one after the other, in less than the
smoothed round trip time. -/
def closeCalls : List TxEvent :=
  [.registerNewStream 7, .addTransmitted 1000 7 1200 1, .addTransmitted 2000 7 1200 2,
    .incomingFeedback ⟨51000, 7, 51, 1, 0, 0, false⟩,
    .incomingFeedback ⟨51500, 7, 51, 2, 0, 0, false⟩]

/-- **Both feedbacks update the share**, and the second one counts the bytes of the first one
again. -/
theorem not_sound_closeCalls :
    ∃ s, closeCalls.foldlM perform (new true true) = some s ∧
      s.l4s.updates = [⟨51000, 781, 0, 1200, 0, 1200⟩, ⟨51500, 781, 0, 2400, 0, 1200⟩] ∧
      ¬ (s.l4s.updates.Pairwise fun u v => u.time_us + v.sRtt_us < v.time_us) ∧
      ¬ ∀ u ∈ s.l4s.updates,
        u.bytesMarkedThisRtt = u.ceMarked ∧ u.bytesDeliveredThisRtt = u.newlyAcked := by
  have hrun : ∃ s, closeCalls.foldlM perform (new true true) = some s ∧
      s.l4s.updates = [⟨51000, 781, 0, 1200, 0, 1200⟩, ⟨51500, 781, 0, 2400, 0, 1200⟩] :=
    ⟨_, rfl, rfl⟩
  obtain ⟨s, hs, hupdates⟩ := hrun
  refine ⟨s, hs, hupdates, ?_, ?_⟩
  · rw [hupdates]
    decide
  · rw [hupdates]
    decide

end L4sTx

end Scream
