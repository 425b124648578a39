import RmcatNs3.Scream.WatchedStream

/-!
# Reclaiming the ring across the wrap

The first loop of `detectLoss` drops what is left between the highest numbers of the last
two feedbacks. It compares these as plain integers: when they lie on two sides of 65535 it
visits no cell at all, and what is left there stays in the ring until a packet one turn
later finds its cell in use.
-/

namespace Scream

open MachineInt RingScan SerialNumber Runs

/-- The number lies after the highest one of the previous feedback, or is in range of the
ack vector of the last one. The lists have the newest number first. -/
def Recent (accepted : List (BitVec 16)) (seqNr : BitVec 16) : Prop :=
  ∀ hi prev rest, accepted = hi :: prev :: rest →
    Precedes prev seqNr ∨ dist seqNr hi ≤ kAckVectorBits

/-- Packets are sent with consecutive numbers, feedbacks are accepted with increasing
highest numbers, and fewer packets than the ring has cells follow the highest acknowledged
one. -/
structure Regular (sent accepted : List (BitVec 16)) : Prop where
  consecutive : sent.IsChain fun seqNr before => seqNr = before + 1
  increasing : accepted.IsChain fun hi before => Precedes before hi
  inFlight : ∀ hi ∈ accepted.head?, ∃ last ∈ sent.head?, dist hi last < kMaxTxPackets

/-- What is before the reach of the second loop lies, as plain integers, between
`lastLossDetectIx` and `hiSeqAck`, or is in range of the ack vector. -/
def Visits (fb : IncomingFeedback) (stream : TxStream) : Prop :=
  0 ≤ stream.lastLossDetectIx → ∀ n, (stream.txPackets n).isUsed = true →
    ¬ Precedes stream.hiSeqAck (stream.txPackets n).seqNr →
    (stream.lastLossDetectIx ≤ (stream.txPackets n).seqNr.toNat ∧
      (stream.txPackets n).seqNr.toNat ≤ stream.hiSeqAck.toNat) ∨
    dist (stream.txPackets n).seqNr fb.highestSeqNr ≤ kAckVectorBits

/-- A sender, and what stream `i` of it has sent and accepted. -/
structure Watched where
  tx : ScreamTx
  sent : List (BitVec 16)
  accepted : List (BitVec 16)

namespace Watched

def start (lossBetaBelowOne : Bool) : Watched := ⟨.new lossBetaBelowOne, [], []⟩

structure Step (i : Nat) (w : Watched) (e : TxEvent) (w' : Watched) : Prop where
  tx : w.tx.Step e w'.tx
  sent : w'.sent = (w.tx.sends i e).toList ++ w.sent
  accepted : w'.accepted =
    ((w.tx.hears i e).map IncomingFeedback.highestSeqNr).toList ++ w.accepted

/-- A step of a regular run of stream `i`. -/
def RegularStep (i : Nat) (w : Watched) (e : TxEvent) (w' : Watched) : Prop :=
  w.Step i e w' ∧ Regular w'.sent w'.accepted

/-- Only recent packets are in the ring. -/
def Reclaimed (i : Nat) (w : Watched) : Prop :=
  ∀ stream, w.tx.streams[i]? = some stream → ∀ n, (stream.txPackets n).isUsed = true →
    Recent w.accepted (stream.txPackets n).seqNr

/-- After a feedback only recent packets are in the ring, and a transmission that finds its
cell in use finds a recent packet there, which lies a full ring before. -/
structure Reclaims (i : Nat) (w : Watched) (e : TxEvent) (w' : Watched) : Prop where
  reclaimed : ∀ fb, e = .incomingFeedback fb → w'.Reclaimed i
  collision : ∀ seqNr stream, w.tx.sends i e = some seqNr → w.tx.streams[i]? = some stream →
    ScreamTx.Collides stream seqNr →
    Recent w.accepted (stream.txPackets (seqNr.toNat % 2048)).seqNr ∧
      dist (stream.txPackets (seqNr.toNat % 2048)).seqNr seqNr = kMaxTxPackets

/-- A feedback that the stream accepts finds nothing that the first loop misses. -/
def VisitsAll (i : Nat) (w : Watched) (e : TxEvent) : Prop :=
  ∀ fb, w.tx.hears i e = some fb → ∀ stream, w.tx.streams[i]? = some stream → Visits fb stream

end Watched

/-! ## Visited cells -/

section Visited

variable {hiSeqAck highestSeqNr seqNr last : BitVec 16}

/-- Packets up to the last highest one are not visited by the second loop. -/
theorem not_mem_scanned (hseq : dist seqNr last < 2048) (hack : dist hiSeqAck last < 2048)
    (hhighest : dist highestSeqNr last < 2048) (hlater : Precedes hiSeqAck highestSeqNr)
    (hold : ¬ Precedes hiSeqAck seqNr) :
    seqNr.toNat % 2048 ∉ scanned hiSeqAck highestSeqNr := by
  rw [precedes_iff_of_target (c := last) (by omega) (by omega)] at hlater hold
  have hone : dist hiSeqAck (hiSeqAck + 1) = 1 := dist_add_right hiSeqAck 1
  have hstep := dist_add_of_ge (Nat.le_of_lt hlater)
  have hback := dist_add_of_ge (show dist highestSeqNr last ≤ dist seqNr last by omega)
  have hnext := dist_add_of_le
    (show dist hiSeqAck (hiSeqAck + 1) ≤ dist hiSeqAck highestSeqNr by omega)
  rw [mem_scanned]
  omega

/-- The first loop visits the packets between the two numbers as plain integers. -/
theorem mem_swept_iff {lo : Nat} (hnear : dist seqNr hiSeqAck < 2048)
    (hlo : lo ≤ hiSeqAck.toNat ∨ hiSeqAck.toNat + 2048 ≤ lo) :
    seqNr.toNat % 2048 ∈ swept ((lo : Int) + 1) hiSeqAck ↔
      lo + 1 ≤ seqNr.toNat ∧ seqNr.toNat ≤ hiSeqAck.toNat := by
  have hseq := seqNr.isLt
  have hack := hiSeqAck.isLt
  have hfirst : ((lo : Int) + 1).toNat = lo + 1 := rfl
  have hstraddles : (lo : Int) + 1 > (firstIx hiSeqAck : Nat) ↔ hiSeqAck.toNat < lo := by
    unfold firstIx
    omega
  simp only [SerialNumber.dist, BitVec.toNat_sub] at hnear
  unfold swept
  rw [if_pos (by omega), kMaxTxPackets, mem_slots, hfirst]
  simp only [hstraddles]
  unfold firstIx
  constructor
  · intro hvisit
    obtain ⟨m, hm, hm', hmod⟩ := hvisit
    split at hm'
    · omega
    · omega
  · intro hrange
    exact ⟨seqNr.toNat, hrange.1, by split <;> omega, rfl⟩

end Visited

/-! ## One feedback -/

section Hearing

variable {fb : IncomingFeedback} {stream : TxStream} {n : Nat}

theorem scanPacket_isUsed {highestSeqNr : BitVec 16} {timeTxAck_us : Nat} {p : Transmitted}
    (h : (scanPacket highestSeqNr timeTxAck_us p).isUsed = true) :
    p.isUsed = true ∧ (scanPacket highestSeqNr timeTxAck_us p).seqNr = p.seqNr := by
  unfold scanPacket at h ⊢
  by_cases hused : p.isUsed = true
  · refine ⟨hused, ?_⟩
    rw [if_pos hused]
    split <;> rfl
  · rw [if_neg hused] at h
    exact absurd h hused

/-- A packet that stays in the ring was there before, and was not visited by the first
loop. -/
theorem hear_isUsed (h : ((stream.hear fb).txPackets n).isUsed = true) :
    (stream.txPackets n).isUsed = true ∧
      ((stream.hear fb).txPackets n).seqNr = (stream.txPackets n).seqNr ∧
      n ∉ swept stream.lastLossDetectIx stream.hiSeqAck := by
  simp only [TxStream.hear, detectedRing] at h ⊢
  by_cases hswept : n ∈ swept stream.lastLossDetectIx stream.hiSeqAck
  · by_cases hscan : n ∈ scanned stream.hiSeqAck fb.highestSeqNr
    · simp [hswept, hscan, scanPacket, Transmitted.dropped] at h
    · simp [hswept, hscan, Transmitted.dropped] at h
  · by_cases hscan : n ∈ scanned stream.hiSeqAck fb.highestSeqNr
    · simp only [hswept, hscan, if_true, if_false] at h ⊢
      obtain ⟨hused, hseq⟩ := scanPacket_isUsed h
      rw [markPacket_isUsed] at hused
      rw [hseq, markPacket_seqNr]
      exact ⟨hused, rfl, not_false⟩
    · simp only [hswept, hscan, if_false] at h ⊢
      exact ⟨h, trivial, not_false⟩

/-- What neither loop visits is left alone. -/
theorem hear_unvisited (hscan : n ∉ scanned stream.hiSeqAck fb.highestSeqNr)
    (hswept : n ∉ swept stream.lastLossDetectIx stream.hiSeqAck) :
    (stream.hear fb).txPackets n = stream.txPackets n := by
  simp [TxStream.hear, detectedRing, hscan, hswept]

end Hearing

/-! ## The invariant -/

/-- `lastLossDetectIx`, told by the accepted feedbacks. -/
def lossDetectIx : List (BitVec 16) → Int
  | [] => -1
  | _ :: rest => (rest.headD 0).toNat + 1

/-- What holds of a stream, but for old packets in its ring. -/
structure Tracked (sent accepted : List (BitVec 16)) (r : RingState) : Prop where
  ring : RingInv r.txPackets
  lately : ∀ n, (r.txPackets n).isUsed = true →
    ∃ last ∈ sent.head?, dist (r.txPackets n).seqNr last < 2048
  hiSeqAck : r.hiSeqAck = accepted.headD 0
  lastLossDetectIx : r.lastLossDetectIx = lossDetectIx accepted
  gap : ∀ hi prev rest, accepted = hi :: prev :: rest →
    0 < dist prev hi ∧ dist prev hi < 2048

/-- The packets in the ring are recent. -/
def AllRecent (accepted : List (BitVec 16)) (r : RingState) : Prop :=
  ∀ n, (r.txPackets n).isUsed = true → Recent accepted (r.txPackets n).seqNr

theorem recent_cons_cons {hi prev seqNr : BitVec 16} {rest : List (BitVec 16)} :
    Recent (hi :: prev :: rest) seqNr ↔
      Precedes prev seqNr ∨ dist seqNr hi ≤ kAckVectorBits := by
  constructor
  · intro h
    exact h hi prev rest rfl
  · intro h hi' prev' rest' heq
    cases heq
    exact h

section Kept

variable {sent accepted : List (BitVec 16)} {r : RingState} {seqNr : BitVec 16}

theorem Tracked.new (ssrc : BitVec 32) : Tracked [] [] (TxStream.new ssrc).ringState where
  ring := fun _ => nofun
  lately := fun _ => nofun
  hiSeqAck := rfl
  lastLossDetectIx := rfl
  gap := fun _ _ _ => nofun

theorem Tracked.clear (h : Tracked sent accepted r) : Tracked sent accepted r.clear :=
  { h with ring := fun _ => nofun, lately := fun _ => nofun }

/-- What is in the ring once a packet is transmitted. -/
theorem send_isUsed {time_us size n : Nat}
    (h : ((r.send time_us size seqNr).txPackets n).isUsed = true) :
    (n = seqNr.toNat % 2048 ∧
      (r.send time_us size seqNr).txPackets n = sentPacket time_us size seqNr) ∨
    (n ≠ seqNr.toNat % 2048 ∧ (r.txPackets n).isUsed = true ∧
      (r.send time_us size seqNr).txPackets n = r.txPackets n) := by
  by_cases hcollides : (r.txPackets (seqNr.toNat % 2048)).isUsed = true
  · rw [RingState.send_of_used _ _ hcollides] at h ⊢
    by_cases hn : n = seqNr.toNat % 2048
    · subst hn
      exact .inl ⟨rfl, Function.update_self ..⟩
    · simp only [Function.update_of_ne hn] at h
      exact absurd h nofun
  · rw [RingState.send_of_free _ _ hcollides] at h ⊢
    by_cases hn : n = seqNr.toNat % 2048
    · subst hn
      exact .inl ⟨rfl, Function.update_self ..⟩
    · simp only [Function.update_of_ne hn] at h ⊢
      exact .inr ⟨hn, h, trivial⟩

/-- A packet in the ring lies by one number more before the next one. -/
theorem Tracked.dist_next {last : BitVec 16} {n : Nat} (h : Tracked (last :: sent) accepted r)
    (hused : (r.txPackets n).isUsed = true) :
    0 < dist (r.txPackets n).seqNr (last + 1) ∧
      dist (r.txPackets n).seqNr (last + 1) ≤ 2048 := by
  obtain ⟨_, hlast, hdist⟩ := h.lately n hused
  obtain rfl := Option.some.inj hlast
  have hone : dist last (last + 1) = 1 := dist_add_right last 1
  have hsum := @dist_trans _ (r.txPackets n).seqNr last (last + 1) (by omega)
  omega

/-- **A transmission** keeps the invariant. -/
theorem Tracked.send (h : Tracked sent accepted r) (time_us size : Nat)
    (hreg : Regular (seqNr :: sent) accepted) :
    Tracked (seqNr :: sent) accepted (r.send time_us size seqNr) where
  ring := by
    intro n hused
    rcases send_isUsed hused with ⟨hn, hcell⟩ | ⟨_, hold, hcell⟩
    · rw [hcell]
      exact ⟨hn.symm, rfl⟩
    · rw [hcell]
      exact h.ring n hold
  lately := by
    intro n hused
    refine ⟨seqNr, rfl, ?_⟩
    rcases send_isUsed hused with ⟨hn, hcell⟩ | ⟨hn, hold, hcell⟩
    · rw [hcell]
      simp [sentPacket]
    · rw [hcell]
      cases sent with
      | nil =>
          obtain ⟨_, hlast, _⟩ := h.lately n hold
          exact absurd hlast nofun
      | cons last before =>
          obtain rfl : seqNr = last + 1 := (List.isChain_cons_cons.mp hreg.consecutive).1
          obtain ⟨hpos, hle⟩ := h.dist_next hold
          -- a full ring before lies in the same cell
          have hcell := (h.ring n hold).1
          have hfull : dist (r.txPackets n).seqNr (last + 1) ≠ 2048 := by
            intro hfull
            simp only [SerialNumber.dist, BitVec.toNat_sub] at hfull
            omega
          omega
  hiSeqAck := by
    rw [(RingState.send_cursors ..).2.1]
    exact h.hiSeqAck
  lastLossDetectIx := by
    rw [(RingState.send_cursors ..).2.2]
    exact h.lastLossDetectIx
  gap := h.gap

/-- A transmitted packet is recent. -/
theorem AllRecent.send (h : AllRecent accepted r) (htracked : Tracked sent accepted r)
    (time_us size : Nat) (hreg : Regular (seqNr :: sent) accepted) :
    AllRecent accepted (r.send time_us size seqNr) := by
  intro n hused
  rcases send_isUsed hused with ⟨_, hcell⟩ | ⟨_, hold, hcell⟩
  · rw [hcell]
    intro hi prev rest haccepted
    left
    obtain ⟨hpos, hgap⟩ := htracked.gap hi prev rest haccepted
    obtain ⟨_, hlast, hflight⟩ := hreg.inFlight hi (by rw [haccepted]; rfl)
    obtain rfl := Option.some.inj hlast
    rw [kMaxTxPackets] at hflight
    have hsum := @dist_trans _ prev hi seqNr (by omega)
    have hdist : dist prev (sentPacket time_us size seqNr).seqNr = dist prev hi + dist hi seqNr :=
      hsum
    constructor
    · omega
    · omega
  · rw [hcell]
    exact h n hold

/-- A packet that finds its cell in use finds one that lies a full ring before. -/
theorem Tracked.collision (h : Tracked sent accepted r)
    (hreg : Regular (seqNr :: sent) accepted)
    (hused : (r.txPackets (seqNr.toNat % 2048)).isUsed = true) :
    dist (r.txPackets (seqNr.toNat % 2048)).seqNr seqNr = kMaxTxPackets := by
  cases sent with
  | nil =>
      obtain ⟨_, hlast, _⟩ := h.lately _ hused
      exact absurd hlast nofun
  | cons last before =>
      obtain rfl : seqNr = last + 1 := (List.isChain_cons_cons.mp hreg.consecutive).1
      obtain ⟨hpos, hle⟩ := h.dist_next hused
      have hcell := (h.ring _ hused).1
      have hnext := (last + 1).isLt
      have hseq := (r.txPackets ((last + 1).toNat % 2048)).seqNr.isLt
      simp only [SerialNumber.dist, BitVec.toNat_sub, kMaxTxPackets] at hpos hle ⊢
      omega

variable {fb : IncomingFeedback} {stream : TxStream}

/-- **A feedback** keeps the invariant. -/
theorem Tracked.hear (h : Tracked sent accepted stream.ringState) (hold : Regular sent accepted)
    (hreg : Regular sent (fb.highestSeqNr :: accepted)) :
    Tracked sent (fb.highestSeqNr :: accepted) (stream.hear fb) where
  ring := RingInv.detected h.ring fb (ackTime fb stream)
  lately := by
    intro n hused
    obtain ⟨hbefore, hseq, _⟩ := hear_isUsed hused
    rw [hseq]
    exact h.lately n hbefore
  hiSeqAck := rfl
  lastLossDetectIx := by
    have hack : stream.hiSeqAck = accepted.headD 0 := h.hiSeqAck
    simp only [TxStream.hear, lossDetectIx, firstIx, hack]
    rfl
  gap := by
    intro hi prev rest heq
    obtain ⟨rfl, rfl⟩ := List.cons.inj heq
    have hlater : Precedes prev fb.highestSeqNr := (List.isChain_cons_cons.mp hreg.increasing).1
    obtain ⟨last, hlast, hprev⟩ := hold.inFlight prev rfl
    obtain ⟨last', hlast', hhighest⟩ := hreg.inFlight fb.highestSeqNr rfl
    obtain rfl := Option.some.inj (hlast.symm.trans hlast')
    rw [kMaxTxPackets] at hprev hhighest
    have hdist := (precedes_iff_of_target (c := last) (by omega) (by omega)).mp hlater
    have hsum := dist_add_of_ge (Nat.le_of_lt hdist)
    exact ⟨hlater.1, by omega⟩

/-- The previous two highest numbers lie in order, or on two sides of the wrap. -/
theorem Tracked.in_order {hi : BitVec 16} {rest : List (BitVec 16)}
    (h : Tracked sent (hi :: rest) r) :
    (rest.headD 0).toNat ≤ hi.toNat ∨ hi.toNat + 2048 ≤ (rest.headD 0).toNat := by
  cases rest with
  | nil => exact .inl (Nat.zero_le _)
  | cons prev rest =>
      obtain ⟨_, hgap⟩ := h.gap hi prev rest rfl
      have hprev := prev.isLt
      have hhi := hi.isLt
      simp only [SerialNumber.dist, BitVec.toNat_sub] at hgap
      simp only [List.headD_cons]
      omega

/-- An old packet is visited by the first loop or by none. -/
theorem Tracked.visited {hi : BitVec 16} {rest : List (BitVec 16)} {n : Nat}
    (h : Tracked sent (hi :: rest) stream.ringState) (hold : Regular sent (hi :: rest))
    (hreg : Regular sent (fb.highestSeqNr :: hi :: rest))
    (hused : (stream.txPackets n).isUsed = true)
    (hbefore : ¬ Precedes hi (stream.txPackets n).seqNr) :
    n ∉ scanned stream.hiSeqAck fb.highestSeqNr ∧
      (n ∈ swept stream.lastLossDetectIx stream.hiSeqAck ↔
        stream.lastLossDetectIx ≤ (stream.txPackets n).seqNr.toNat ∧
          (stream.txPackets n).seqNr.toNat ≤ stream.hiSeqAck.toNat) := by
  have hix : stream.lastLossDetectIx = lossDetectIx (hi :: rest) := h.lastLossDetectIx
  have hack : stream.hiSeqAck = hi := h.hiSeqAck
  have hlater : Precedes hi fb.highestSeqNr := (List.isChain_cons_cons.mp hreg.increasing).1
  have hcell : (stream.txPackets n).seqNr.toNat % 2048 = n := (h.ring n hused).1
  obtain ⟨last, hlast, hflight⟩ := hold.inFlight hi rfl
  obtain ⟨last₁, hlast₁, hhighest⟩ := hreg.inFlight fb.highestSeqNr rfl
  obtain ⟨last₂, hlast₂, hlately⟩ : ∃ last ∈ sent.head?,
      dist (stream.txPackets n).seqNr last < 2048 := h.lately n hused
  obtain rfl := Option.some.inj (hlast.symm.trans hlast₁)
  obtain rfl := Option.some.inj (hlast.symm.trans hlast₂)
  rw [kMaxTxPackets] at hflight hhighest
  have hscan := not_mem_scanned hlately hflight hhighest hlater hbefore
  have hnear : dist (stream.txPackets n).seqNr hi < 2048 := by
    have hback := (precedes_iff_of_target (c := last) (by omega) (by omega)).not.mp hbefore
    have hsum := dist_add_of_ge (Nat.not_lt.mp hback)
    omega
  have hsweep := mem_swept_iff hnear h.in_order
  rw [hcell] at hscan hsweep
  rw [hix, hack, lossDetectIx]
  refine ⟨hscan, hsweep.trans ?_⟩
  omega

/-- **After a feedback only recent packets are left** if and only if the first loop visits
what the second does not reach. -/
theorem Tracked.allRecent_hear_iff (h : Tracked sent accepted stream.ringState)
    (hold : Regular sent accepted) (hreg : Regular sent (fb.highestSeqNr :: accepted)) :
    AllRecent (fb.highestSeqNr :: accepted) (stream.hear fb) ↔ Visits fb stream := by
  have hix : stream.lastLossDetectIx = lossDetectIx accepted := h.lastLossDetectIx
  cases accepted with
  | nil =>
      -- the first feedback: there is no previous one, and the first loop does not run
      constructor
      · intro _ hran
        rw [hix] at hran
        exact absurd hran (by decide)
      · intro _ n _ hi prev rest heq
        exact absurd (List.cons.inj heq).2 nofun
  | cons hi rest =>
      have hack : stream.hiSeqAck = hi := h.hiSeqAck
      constructor
      · intro hrecent _ n hused hbefore
        rw [hack] at hbefore
        obtain ⟨hscan, hsweep⟩ := h.visited hold hreg hused hbefore
        by_cases hrange : stream.lastLossDetectIx ≤ (stream.txPackets n).seqNr.toNat ∧
            (stream.txPackets n).seqNr.toNat ≤ stream.hiSeqAck.toNat
        · exact .inl hrange
        · right
          have hcell := @hear_unvisited fb stream n hscan (fun hmem => hrange (hsweep.mp hmem))
          have hleft := hrecent n (by rw [hcell]; exact hused)
          rw [hcell, recent_cons_cons] at hleft
          exact hleft.resolve_left hbefore
      · intro hvisits n hused
        obtain ⟨hused', hseq, hswept⟩ := hear_isUsed hused
        rw [hseq, recent_cons_cons]
        by_cases hbefore : Precedes hi (stream.txPackets n).seqNr
        · exact .inl hbefore
        · obtain ⟨_, hsweep⟩ := h.visited hold hreg hused' hbefore
          have hran : 0 ≤ stream.lastLossDetectIx := by
            rw [hix]
            exact Int.add_nonneg (Int.natCast_nonneg _) (by decide)
          right
          refine (hvisits hran n hused' (by rw [hack]; exact hbefore)).resolve_left ?_
          exact fun hrange => hswept (hsweep.mpr hrange)

end Kept

/-! ## Runs -/

namespace Watched

variable {i : Nat} {w w' : Watched} {e : TxEvent}

/-- The invariant of a run in which only recent packets are left. -/
structure Inv (i : Nat) (w : Watched) : Prop where
  tx : w.tx.Inv
  regular : Regular w.sent w.accepted
  absent : w.tx.ringStates[i]? = none → w.sent = [] ∧ w.accepted = []
  tracked : ∀ r, w.tx.ringStates[i]? = some r → Tracked w.sent w.accepted r
  recent : ∀ r, w.tx.ringStates[i]? = some r → AllRecent w.accepted r

theorem start_inv (i : Nat) (lossBetaBelowOne : Bool) : (start lossBetaBelowOne).Inv i where
  tx := ScreamTx.new_inv lossBetaBelowOne
  regular := ⟨.nil, .nil, nofun⟩
  absent := fun _ => ⟨rfl, rfl⟩
  tracked := fun _ => nofun
  recent := fun _ => nofun

/-- The invariant of a sender that has the stream. -/
theorem Inv.of_ringState {r : RingState} (htx : w.tx.Inv) (hreg : Regular w.sent w.accepted)
    (hr : w.tx.ringStates[i]? = some r) (htracked : Tracked w.sent w.accepted r)
    (hrecent : AllRecent w.accepted r) : w.Inv i where
  tx := htx
  regular := hreg
  absent := by
    intro hnone
    rw [hr] at hnone
    exact absurd hnone nofun
  tracked := by
    intro r' hr'
    obtain rfl := Option.some.inj (hr.symm.trans hr')
    exact htracked
  recent := by
    intro r' hr'
    obtain rfl := Option.some.inj (hr.symm.trans hr')
    exact hrecent

theorem reclaimed_iff {r : RingState} (hr : w.tx.ringStates[i]? = some r) :
    w.Reclaimed i ↔ AllRecent w.accepted r := by
  constructor
  · intro h
    obtain ⟨stream, hstream, rfl⟩ := ScreamTx.exists_stream hr
    exact h stream hstream
  · intro h stream hstream
    obtain rfl := Option.some.inj (hr.symm.trans (ScreamTx.ringStates_getElem? hstream))
    exact h

/-- A call without a feedback for the stream. -/
theorem visitsAll_of_quiet (h : w.tx.hears i e = none) : w.VisitsAll i e := by
  intro fb hfb
  rw [h] at hfb
  exact absurd hfb nofun

/-- A call without a transmission on the stream. -/
theorem Reclaims.of_quiet (hsends : w.tx.sends i e = none) (h : w'.Reclaimed i) :
    w.Reclaims i e w' where
  reclaimed := fun _ _ => h
  collision := by
    intro seqNr stream hseq
    rw [hsends] at hseq
    exact absurd hseq nofun

/-- **One step**: only recent packets are left, and none but these are collided with, if
and only if the first loop misses nothing. -/
theorem reclaims_iff (h : w.Inv i) (hstep : w.RegularStep i e w') :
    (w.Reclaims i e w' ↔ w.VisitsAll i e) ∧ (w.VisitsAll i e → w'.Inv i) := by
  obtain ⟨⟨htx, hsent, haccepted⟩, hreg⟩ := hstep
  have htx' := h.tx.step htx
  -- a step that reclaims in any case
  have halways : w.tx.hears i e = none → w.Reclaims i e w' → w'.Inv i →
      (w.Reclaims i e w' ↔ w.VisitsAll i e) ∧ (w.VisitsAll i e → w'.Inv i) :=
    fun hhears hreclaims hinv => ⟨iff_of_true hreclaims (visitsAll_of_quiet hhears), fun _ => hinv⟩
  cases hr : w.tx.ringStates[i]? with
  | none =>
      obtain ⟨hsends, hhears, hnew⟩ := htx.appears h.tx hr
      obtain ⟨hnil, hnil'⟩ := h.absent hr
      rw [hsends, hnil] at hsent
      rw [hhears, hnil'] at haccepted
      have hsent' : w'.sent = [] := hsent
      have haccepted' : w'.accepted = [] := haccepted
      have hrecent : ∀ seqNr, Recent w'.accepted seqNr := by
        intro seqNr hi prev rest heq
        rw [haccepted'] at heq
        exact absurd heq nofun
      refine halways hhears (.of_quiet hsends fun _ _ _ _ => hrecent _) ⟨htx', hreg,
        fun _ => ⟨hsent', haccepted'⟩, ?_, fun _ _ _ _ => hrecent _⟩
      intro r hr'
      obtain ⟨ssrc, rfl⟩ := hnew r hr'
      rw [hsent', haccepted']
      exact Tracked.new ssrc
  | some r =>
      obtain ⟨r', hr', hmoves⟩ := htx.moves h.tx hr
      have htracked := h.tracked r hr
      have hrecent := h.recent r hr
      have hnext := Inv.of_ringState htx' hreg hr'
      have hreclaimed := reclaimed_iff hr'
      -- nothing is sent or accepted, and what is in the ring was in it before
      have hquiet : w.tx.sends i e = none → w.tx.hears i e = none →
          Tracked w.sent w.accepted r' → AllRecent w.accepted r' →
          (w.Reclaims i e w' ↔ w.VisitsAll i e) ∧ (w.VisitsAll i e → w'.Inv i) := by
        intro hsends hhears htracked' hrecent'
        rw [hsends] at hsent
        rw [hhears] at haccepted
        have hsent' : w'.sent = w.sent := hsent
        have haccepted' : w'.accepted = w.accepted := haccepted
        rw [hsent', haccepted'] at hnext
        rw [haccepted'] at hreclaimed
        exact halways hhears (.of_quiet hsends (hreclaimed.mpr hrecent'))
          (hnext htracked' hrecent')
      cases hmoves with
      | @send time_us size seqNr hsends hhears =>
          rw [hsends] at hsent
          rw [hhears] at haccepted
          have hsent' : w'.sent = seqNr :: w.sent := hsent
          have haccepted' : w'.accepted = w.accepted := haccepted
          rw [hsent', haccepted'] at hreg hnext
          rw [haccepted'] at hreclaimed
          have hrecent' := hrecent.send htracked time_us size hreg
          refine halways hhears ⟨fun _ _ => hreclaimed.mpr hrecent', ?_⟩
            (hnext (htracked.send time_us size hreg) hrecent')
          intro seqNr₁ stream hseq hstream hcollides
          obtain rfl := Option.some.inj (hsends.symm.trans hseq)
          obtain rfl := Option.some.inj (hr.symm.trans (ScreamTx.ringStates_getElem? hstream))
          exact ⟨hrecent _ hcollides, htracked.collision hreg hcollides⟩
      | @hear fb stream hsends hhears hstream hringState =>
          subst hringState
          rw [hsends] at hsent
          rw [hhears] at haccepted
          have hsent' : w'.sent = w.sent := hsent
          have haccepted' : w'.accepted = fb.highestSeqNr :: w.accepted := haccepted
          rw [hsent', haccepted'] at hreg hnext
          rw [haccepted'] at hreclaimed
          have hiff := htracked.allRecent_hear_iff h.regular hreg
          have hvisits : w.VisitsAll i e ↔ Visits fb stream := by
            constructor
            · intro hall
              exact hall fb hhears stream hstream
            · intro hone fb₁ hfb stream₁ hstream₁
              obtain rfl := Option.some.inj (hhears.symm.trans hfb)
              obtain rfl := Option.some.inj (hstream.symm.trans hstream₁)
              exact hone
          rw [hvisits]
          refine ⟨⟨?_, ?_⟩, fun hone => hnext (htracked.hear h.regular hreg) (hiff.mpr hone)⟩
          · intro hreclaims
            obtain ⟨fb', he⟩ := ScreamTx.hears_isSome hhears
            exact hiff.mp (hreclaimed.mp (hreclaims.reclaimed fb' he))
          · exact fun hone => .of_quiet hsends (hreclaimed.mpr (hiff.mpr hone))
      | clear hsends hhears =>
          exact hquiet hsends hhears htracked.clear fun _ => nofun
      | same hsends hhears => exact hquiet hsends hhears htracked hrecent

/-- **The ring is reclaimed** throughout a regular run of a stream (only packets after the
highest number of the previous feedback, or in range of the vector of the last one, are
left after a feedback, and a packet collides only with one of these, a full ring before it)
if and only if in every accepted feedback the packets up to the last highest number lie, as plain
integers, between `lastLossDetectIx` and `hiSeqAck`, or in range of the ack vector. -/
theorem ring_reclaimed_iff (i : Nat) (lossBetaBelowOne : Bool) (es : List TxEvent)
    (w : Watched) :
    Run (fun w e w' => w.RegularStep i e w' ∧ w.Reclaims i e w') (start lossBetaBelowOne) es w ↔
      Run (fun w e w' => w.RegularStep i e w' ∧ w.VisitsAll i e) (start lossBetaBelowOne) es w :=
  Run.restrict_iff (start_inv i lossBetaBelowOne) fun _ _ _ h hstep => reclaims_iff h hstep

/-! ## Runs without a wrap -/

/-- The numbers sent do not come to 0, and feedbacks have numbers of packets sent. -/
structure Unwrapped (w : Watched) : Prop where
  sent : 0 ∉ w.sent
  accepted : ∀ hi ∈ w.accepted, hi ∈ w.sent

/-- Without a wrap the numbers sent are in order as plain integers. -/
theorem dist_of_unwrapped {last seqNr : BitVec 16} {before : List (BitVec 16)}
    (hchain : (last :: before).IsChain fun seqNr before => seqNr = before + 1)
    (hzero : 0 ∉ last :: before) (hmem : seqNr ∈ last :: before) :
    seqNr.toNat + dist seqNr last = last.toNat := by
  induction before generalizing last with
  | nil =>
      obtain rfl := List.mem_singleton.mp hmem
      rw [dist_self, Nat.add_zero]
  | cons before rest ih =>
      rcases List.mem_cons.mp hmem with rfl | hmem
      · rw [dist_self, Nat.add_zero]
      · have hsum := ih hchain.of_cons (fun h => hzero (List.mem_cons_of_mem _ h)) hmem
        obtain rfl : last = before + 1 := (List.isChain_cons_cons.mp hchain).1
        have hne : before + 1 ≠ 0 := fun h => hzero (h ▸ List.mem_cons_self ..)
        have hone : (before + 1).toNat = before.toNat + 1 := by
          have hlt := (before + 1).isLt
          have hpos : (before + 1).toNat ≠ 0 := fun h => hne (BitVec.eq_of_toNat_eq h)
          have hadd : (before + 1).toNat = (before.toNat + 1) % 65536 := BitVec.toNat_add ..
          omega
        have hbefore : dist before (before + 1) = 1 := dist_add_right before 1
        have hlt := before.isLt
        have hdist := @dist_trans _ seqNr before (before + 1) (by omega)
        omega

/-- The packets in the ring have been sent, and lie after the previous highest number. -/
structure InOrder (w : Watched) (r : RingState) : Prop where
  sent : ∀ n, (r.txPackets n).isUsed = true → (r.txPackets n).seqNr ∈ w.sent
  after : ∀ n, (r.txPackets n).isUsed = true → ∀ hi rest, w.accepted = hi :: rest →
    (rest.headD 0).toNat < (r.txPackets n).seqNr.toNat

theorem Unwrapped.pos {seqNr : BitVec 16} (h : Unwrapped w) (hmem : seqNr ∈ w.sent) :
    0 < seqNr.toNat := by
  by_contra hzero
  have heq : seqNr = 0 := BitVec.eq_of_toNat_eq (Nat.eq_zero_of_not_pos hzero)
  exact h.sent (heq ▸ hmem)

/-- Without a wrap the modular order of the numbers sent is their order. -/
theorem Unwrapped.precedes_iff {hi seqNr last : BitVec 16} {before : List (BitVec 16)}
    (h : Unwrapped w) (hreg : Regular w.sent w.accepted) (hsent : w.sent = last :: before)
    (hhi : hi ∈ w.sent) (hseq : seqNr ∈ w.sent) (hnear : dist hi last < 2048)
    (hlately : dist seqNr last < 2048) : Precedes hi seqNr ↔ hi.toNat < seqNr.toNat := by
  have hchain := hreg.consecutive
  have hzero := h.sent
  rw [hsent] at hchain hzero hhi hseq
  have hdist := dist_of_unwrapped hchain hzero hhi
  have hdist' := dist_of_unwrapped hchain hzero hseq
  rw [precedes_iff_of_target (c := last) (by omega) (by omega)]
  omega

/-- A transmission. -/
theorem InOrder.send {r : RingState} {seqNr : BitVec 16} (h : InOrder w r) (hw : Unwrapped w)
    (hw' : Unwrapped w') (hreg : Regular w'.sent w'.accepted) (hsent : w'.sent = seqNr :: w.sent)
    (haccepted : w'.accepted = w.accepted) (time_us size : Nat) :
    InOrder w' (r.send time_us size seqNr) where
  sent := by
    intro n hused
    rw [hsent]
    rcases send_isUsed hused with ⟨_, hcell⟩ | ⟨_, hold, hcell⟩
    · rw [hcell]
      exact List.mem_cons_self ..
    · rw [hcell]
      exact List.mem_cons_of_mem _ (h.sent n hold)
  after := by
    intro n hused hi rest heq
    rcases send_isUsed hused with ⟨_, hcell⟩ | ⟨_, hold, hcell⟩
    · rw [hcell]
      show (rest.headD 0).toNat < seqNr.toNat
      cases rest with
      | nil => exact hw'.pos (hsent ▸ List.mem_cons_self ..)
      | cons prev rest =>
          have hprev : prev ∈ w.sent := by
            apply hw.accepted
            rw [← haccepted, heq]
            exact List.mem_cons_of_mem _ (List.mem_cons_self ..)
          have hchain := hreg.consecutive
          have hzero := hw'.sent
          rw [hsent] at hchain hzero
          obtain ⟨last, before, hlast⟩ := List.exists_cons_of_ne_nil (List.ne_nil_of_mem hprev)
          rw [hlast] at hchain hzero hprev
          have hold := dist_of_unwrapped hchain.of_cons
            (fun h => hzero (List.mem_cons_of_mem _ h)) hprev
          have hnew := dist_of_unwrapped hchain hzero
            (List.mem_cons_of_mem _ (List.mem_cons_self ..))
          obtain rfl : seqNr = last + 1 := (List.isChain_cons_cons.mp hchain).1
          have hone : dist last (last + 1) = 1 := dist_add_right last 1
          show prev.toNat < (last + 1).toNat
          omega
    · rw [hcell]
      rw [haccepted] at heq
      exact h.after n hold hi rest heq

/-- A feedback: what is not after the last highest number is visited by the first loop. -/
theorem InOrder.hear {fb : IncomingFeedback} {stream : TxStream}
    (h : InOrder w stream.ringState) (hw : Unwrapped w) (hinv : w.Inv i)
    (hstream : w.tx.streams[i]? = some stream) (hreg : Regular w'.sent w'.accepted)
    (hsent : w'.sent = w.sent) (haccepted : w'.accepted = fb.highestSeqNr :: w.accepted) :
    Visits fb stream ∧ InOrder w' (stream.hear fb) := by
  have htracked := hinv.tracked _ (ScreamTx.ringStates_getElem? hstream)
  rw [hsent, haccepted] at hreg
  have hix : stream.lastLossDetectIx = lossDetectIx w.accepted := htracked.lastLossDetectIx
  have hack : stream.hiSeqAck = w.accepted.headD 0 := htracked.hiSeqAck
  -- the order of a packet in use and the last highest number
  have horder : ∀ hi rest, w.accepted = hi :: rest → ∀ n, (stream.txPackets n).isUsed = true →
      (Precedes hi (stream.txPackets n).seqNr ↔
        hi.toNat < (stream.txPackets n).seqNr.toNat) := by
    intro hi rest heq n hused
    obtain ⟨last, hlast, hflight⟩ := hinv.regular.inFlight hi (by rw [heq]; rfl)
    obtain ⟨before, hbefore⟩ := List.head?_eq_some_iff.mp hlast
    obtain ⟨last', hlast', hlately⟩ := htracked.lately n hused
    obtain rfl := Option.some.inj (hlast.symm.trans hlast')
    exact hw.precedes_iff hinv.regular hbefore
      (hw.accepted hi (heq ▸ List.mem_cons_self ..)) (h.sent n hused) hflight hlately
  have hrange : ∀ hi rest, w.accepted = hi :: rest → ∀ n, (stream.txPackets n).isUsed = true →
      ¬ Precedes hi (stream.txPackets n).seqNr →
      stream.lastLossDetectIx ≤ (stream.txPackets n).seqNr.toNat ∧
        (stream.txPackets n).seqNr.toNat ≤ stream.hiSeqAck.toNat := by
    intro hi rest heq n hused hbefore
    have hafter : (rest.headD 0).toNat < (stream.txPackets n).seqNr.toNat :=
      h.after n hused hi rest heq
    rw [horder hi rest heq n hused] at hbefore
    rw [hix, hack, heq, lossDetectIx, List.headD_cons]
    omega
  cases haccepted₀ : w.accepted with
  | nil =>
      refine ⟨?_, ?_, ?_⟩
      · intro hran
        rw [hix, haccepted₀] at hran
        exact absurd hran (by decide)
      · intro n hused
        obtain ⟨hused', hseq, _⟩ := hear_isUsed hused
        rw [hseq, hsent]
        exact h.sent n hused'
      · intro n hused hi rest heq
        obtain ⟨hused', hseq, _⟩ := hear_isUsed hused
        rw [haccepted, haccepted₀] at heq
        obtain ⟨_, rfl⟩ := List.cons.inj heq
        rw [hseq]
        exact hw.pos (h.sent n hused')
  | cons hi rest =>
      refine ⟨?_, ?_, ?_⟩
      · intro _ n hused hbefore
        rw [hack, haccepted₀, List.headD_cons] at hbefore
        exact .inl (hrange hi rest haccepted₀ n hused hbefore)
      · intro n hused
        obtain ⟨hused', hseq, _⟩ := hear_isUsed hused
        rw [hseq, hsent]
        exact h.sent n hused'
      · intro n hused hi' rest' heq
        obtain ⟨hused', hseq, hswept⟩ := hear_isUsed hused
        rw [haccepted, haccepted₀] at heq
        obtain ⟨_, rfl⟩ := List.cons.inj heq
        rw [hseq, List.headD_cons, ← horder hi rest haccepted₀ n hused']
        by_contra hbefore
        rw [haccepted₀] at hreg htracked
        have hold := hinv.regular
        rw [haccepted₀] at hold
        obtain ⟨_, hsweep⟩ := htracked.visited hold hreg hused' hbefore
        exact hswept (hsweep.mpr (hrange hi rest haccepted₀ n hused' hbefore))

/-- One step before a wrap. -/
theorem InOrder.step (hinv : w.Inv i) (hw : Unwrapped w)
    (horder : ∀ r, w.tx.ringStates[i]? = some r → InOrder w r) (hstep : w.RegularStep i e w')
    (hw' : Unwrapped w') :
    w.VisitsAll i e ∧ ∀ r, w'.tx.ringStates[i]? = some r → InOrder w' r := by
  obtain ⟨⟨htx, hsent, haccepted⟩, hreg⟩ := hstep
  cases hr : w.tx.ringStates[i]? with
  | none =>
      obtain ⟨_, hhears, hnew⟩ := htx.appears hinv.tx hr
      refine ⟨visitsAll_of_quiet hhears, ?_⟩
      intro r hr'
      obtain ⟨ssrc, rfl⟩ := hnew r hr'
      exact ⟨fun _ => nofun, fun _ => nofun⟩
  | some r =>
      obtain ⟨r', hr', hmoves⟩ := htx.moves hinv.tx hr
      have hone : InOrder w' r' → ∀ r, w'.tx.ringStates[i]? = some r → InOrder w' r := by
        intro h r₁ hr₁
        obtain rfl := Option.some.inj (hr'.symm.trans hr₁)
        exact h
      cases hmoves with
      | @send time_us size seqNr hsends hhears =>
          rw [hsends] at hsent
          rw [hhears] at haccepted
          exact ⟨visitsAll_of_quiet hhears,
            hone ((horder r hr).send hw hw' hreg hsent haccepted time_us size)⟩
      | @hear fb stream hsends hhears hstream hringState =>
          subst hringState
          rw [hsends] at hsent
          rw [hhears] at haccepted
          obtain ⟨hvisits, hlast⟩ :=
            (horder _ hr).hear hw hinv hstream hreg hsent haccepted
          refine ⟨?_, hone hlast⟩
          intro fb₁ hfb stream₁ hstream₁
          obtain rfl := Option.some.inj (hhears.symm.trans hfb)
          obtain rfl := Option.some.inj (hstream.symm.trans hstream₁)
          exact hvisits
      | clear hsends hhears =>
          exact ⟨visitsAll_of_quiet hhears, hone ⟨fun _ => nofun, fun _ => nofun⟩⟩
      | same hsends hhears =>
          rw [hsends] at hsent
          rw [hhears] at haccepted
          have hsent' : w'.sent = w.sent := hsent
          have haccepted' : w'.accepted = w.accepted := haccepted
          refine ⟨visitsAll_of_quiet hhears, hone ⟨?_, ?_⟩⟩
          · rw [hsent']
            exact (horder r hr).sent
          · rw [haccepted']
            exact (horder r hr).after

/-- **Before a wrap the ring is reclaimed**: in a regular run in which the numbers sent do
not come to 0, only recent packets are left after a feedback. -/
theorem reclaims_of_unwrapped {lossBetaBelowOne : Bool} {es : List TxEvent}
    (hrun : Run (fun w e w' => w.RegularStep i e w' ∧ Unwrapped w') (start lossBetaBelowOne) es w) :
    Run (fun w e w' => w.RegularStep i e w' ∧ w.Reclaims i e w') (start lossBetaBelowOne) es w := by
  have hstart : (start lossBetaBelowOne).Inv i ∧ Unwrapped (start lossBetaBelowOne) ∧
      ∀ r, (start lossBetaBelowOne).tx.ringStates[i]? = some r →
        InOrder (start lossBetaBelowOne) r :=
    ⟨start_inv i lossBetaBelowOne, ⟨nofun, nofun⟩, fun _ => nofun⟩
  refine (Run.restrict (I := fun w => w.Inv i ∧ Unwrapped w ∧
    ∀ r, w.tx.ringStates[i]? = some r → InOrder w r) hstart ?_ hrun).1
  intro w e w' hI hstep hw'
  obtain ⟨hinv, hw, horder⟩ := hI
  obtain ⟨hiff, hnext⟩ := reclaims_iff hinv hstep
  obtain ⟨hvisits, horder'⟩ := InOrder.step hinv hw horder hstep hw'
  exact ⟨hiff.mpr hvisits, hnext hvisits, hw', horder'⟩

end Watched

end Scream
