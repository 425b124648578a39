import RmcatNs3.Scream.FeedbackTurns
import RmcatNs3.Scream.ScreamSession

/-!
# What the sender takes as received

Runs of a session in which nothing that arrives is too old. A packet that the sender has marked
as acknowledged has arrived, whatever the network has lost, repeated and reordered, but for the
number in front of the first one that arrived, and for one that is tested with a bit that the
vector does not have.
-/

namespace Scream

open StructMemory Runs SerialNumber

/-! ## Cells -/

section Cells

variable {fb : IncomingFeedback} {stream : TxStream} {p : Transmitted} {highestSeqNr : BitVec 16}
  {timeTxAck_us n : Nat}

theorem scanPacket_seqNr : (scanPacket highestSeqNr timeTxAck_us p).seqNr = p.seqNr := by
  unfold scanPacket
  split_ifs <;> rfl

theorem scanPacket_isAcked : (scanPacket highestSeqNr timeTxAck_us p).isAcked = p.isAcked := by
  unfold scanPacket
  split_ifs <;> rfl

theorem isUsed_of_scanPacket (h : (scanPacket highestSeqNr timeTxAck_us p).isUsed = true) :
    p.isUsed = true := by
  unfold scanPacket at h
  split_ifs at h with hused
  · exact hused
  · exact hused
  · exact absurd h hused

/-- What a feedback makes of a cell. -/
theorem detectedRing_cell (fb : IncomingFeedback) (stream : TxStream) (timeTxAck_us n : Nat) :
    (detectedRing fb stream timeTxAck_us n).seqNr = (stream.txPackets n).seqNr ∧
      ((detectedRing fb stream timeTxAck_us n).isUsed = true →
        (stream.txPackets n).isUsed = true) ∧
      ((detectedRing fb stream timeTxAck_us n).isAcked = true →
        (stream.txPackets n).isAcked = true ∨
          (markPacket fb (stream.txPackets n)).isAcked = true) := by
  unfold detectedRing
  simp only
  by_cases hscan : n ∈ scanned stream.hiSeqAck fb.highestSeqNr
  · simp only [hscan, if_true]
    by_cases hswept : n ∈ swept stream.lastLossDetectIx stream.hiSeqAck
    · simp only [hswept, if_true]
      refine ⟨scanPacket_seqNr.trans markPacket_seqNr, fun hused => ?_, fun hacked => .inr ?_⟩
      · exact absurd (isUsed_of_scanPacket hused) nofun
      · rw [scanPacket_isAcked] at hacked
        exact hacked
    · simp only [hswept, if_false]
      refine ⟨scanPacket_seqNr.trans markPacket_seqNr, fun hused => ?_, fun hacked => .inr ?_⟩
      · exact markPacket_isUsed.symm.trans (isUsed_of_scanPacket hused)
      · rw [scanPacket_isAcked] at hacked
        exact hacked
  · simp only [hscan, if_false]
    by_cases hswept : n ∈ swept stream.lastLossDetectIx stream.hiSeqAck
    · simp only [hswept, if_true]
      exact ⟨rfl, nofun, .inl⟩
    · simp only [hswept, if_false]
      exact ⟨trivial, id, .inl⟩

/-- A packet that becomes marked is one that the feedback reports. -/
theorem reports_of_marked (hacked : p.isAcked = false) (h : (markPacket fb p).isAcked = true) :
    p.isUsed = true ∧ (Reports fb p.seqNr ∨
      ackDiff fb.highestSeqNr p.seqNr = 64 ∧ fb.overlong = true) := by
  by_cases hused : p.isUsed = true
  · exact ⟨hused, (markPacket_isAcked_iff hused hacked).mp h⟩
  · have hsame : markPacket fb p = p := if_neg hused
    rw [hsame, hacked] at h
    exact absurd h Bool.false_ne_true

end Cells

/-! ## Feedback -/

/-- A feedback says of some numbers which ones arrived, and of the one in front of them. -/
def Tells (numbers : List Int) (highestSeqNr : BitVec 16) (ackVector : BitVec 64) : Prop :=
  ∃ first rest, numbers = first :: rest ∧ highestSeqNr = BitVec.ofInt 16 (highest first rest) ∧
    ∀ k : Nat, k < 64 → ackVector.getLsbD k = true →
      highest first rest - 1 - k ∈ (first - 1) :: numbers

theorem tells_of_follows {numbers : List Int} {stream : Stream} (h : stream.Follows numbers)
    (hwindow : ∀ first rest, numbers = first :: rest → AllInWindow first rest) :
    Tells numbers stream.highestSeqNr stream.ackVector := by
  obtain ⟨first, rest, rfl⟩ := List.exists_cons_of_ne_nil h.nonempty
  obtain ⟨hseq, hvector⟩ := h.tracks first rest rfl (hwindow first rest rfl)
  rw [Stream.highest_first] at hseq hvector
  exact ⟨first, rest, rfl, hseq, fun k hk hbit => ((hvector k hk).mp hbit).mem⟩

namespace ScreamRx

/-- There is no stream but the one of the sender. -/
def Solo (s : ScreamRx) : Prop :=
  s.streams.length ≤ 1 ∧ ∀ stream ∈ s.streams, stream.ssrc = senderSsrc

theorem Solo.receive {s : ScreamRx} (h : s.Solo) (time_us : Nat) (size : Int) (seqNr : BitVec 16)
    (isEcnCe : Bool) : (s.receive time_us senderSsrc size seqNr isEcnCe).Solo := by
  obtain ⟨hlength, hssrc⟩ := h
  unfold ScreamRx.receive
  cases hs : s.streams with
  | nil =>
      refine ⟨le_refl 1, fun stream hstream => ?_⟩
      obtain rfl := List.mem_singleton.mp hstream
      rfl
  | cons stream rest =>
      rw [hs] at hlength hssrc
      obtain rfl : rest = [] := List.length_eq_zero_iff.mp (by simpa using hlength)
      have hmine := hssrc stream List.mem_cons_self
      have hmatch : stream.isMatch senderSsrc = true := beq_iff_eq.mpr hmine
      simp only [receiveLoop, hmatch, if_true]
      refine ⟨le_refl 1, fun stream' hstream' => ?_⟩
      obtain rfl := List.mem_singleton.mp hstream'
      exact hmine

theorem Solo.getFeedback {s : ScreamRx} (h : s.Solo) (time_us : Nat) :
    (s.getFeedback time_us).2.Solo ∧ ∀ fb, (s.getFeedback time_us).1 = some fb →
      ∃ stream, s.stream? senderSsrc = some stream ∧ fb = stream.feedback := by
  obtain ⟨hlength, hssrc⟩ := h
  unfold ScreamRx.getFeedback
  split
  · exact ⟨⟨hlength, hssrc⟩, nofun⟩
  · rename_i i _
    refine ⟨⟨?_, fun stream hstream => ?_⟩, fun fb hfb => ?_⟩
    · rw [List.length_modify]
      exact hlength
    · obtain ⟨k, hk⟩ := List.mem_iff_getElem?.mp hstream
      rw [List.getElem?_modify] at hk
      obtain ⟨old, hold, rfl⟩ := Option.map_eq_some_iff.mp hk
      have hmine := hssrc old (List.mem_of_getElem? hold)
      split <;> exact hmine
    · obtain ⟨stream, hstream, rfl⟩ := Option.map_eq_some_iff.mp hfb
      refine ⟨stream, ?_, rfl⟩
      have hmem := List.mem_of_getElem? hstream
      obtain ⟨only, honly⟩ := List.length_eq_one_iff.mp
        (Nat.le_antisymm hlength (List.length_pos_of_mem hmem))
      rw [honly] at hmem
      obtain rfl := List.mem_singleton.mp hmem
      have hmatch : stream.isMatch senderSsrc = true :=
        beq_iff_eq.mpr (hssrc stream (List.mem_of_getElem? hstream))
      simp only [stream?, honly, List.find?_cons, hmatch]

end ScreamRx

/-! ## The invariant -/

namespace ScreamSession

/-- A number that may be taken as received. -/
def Justified (s : ScreamSession) (n : Nat) : Prop :=
  (n : Int) ∈ s.arrived ∨ s.arrived.head? = some ((n : Int) + 1) ∨ (n : Int) + 65 ∈ s.overlong

/-- A packet on its way has the header of its number. -/
structure Carries (s : ScreamSession) (d : MediaDatagram) : Prop where
  numbered : d.number < s.nextNumber
  bytes : ∃ flags timestamp payload, d.bytes =
    (ScreamHeader.rtp ⟨flags, BitVec.ofNat 16 d.number, timestamp, senderSsrc⟩).serialize ++ payload

/-- A feedback on its way tells of numbers that have arrived. -/
structure Answers (s : ScreamSession) (d : FeedbackDatagram) : Prop where
  arrived : d.arrived <+: s.arrived
  bytes : ∃ hdr fb stack, d.bytes = (ScreamHeader.rtcp hdr).serialize ++
    Feedback.structBytes stack fb ∧ fb.InRange ∧ Tells d.arrived fb.highestSeqNr fb.ackVector

/-- A ring holds what its cells are said to hold. -/
def Holds (s : ScreamSession) (ring : Ring) : Prop :=
  ∀ n, ((ring n).isUsed = true ∨ (ring n).isAcked = true →
      (ring n).seqNr = BitVec.ofNat 16 (s.numberIn n) ∧ s.numberIn n < s.nextNumber) ∧
    ((ring n).isAcked = true → s.Justified (s.numberIn n))

/-- What holds after every run in which nothing is too old. -/
structure Truthful (s : ScreamSession) : Prop where
  ordered : s.screamTx.Inv
  ring : ∃ ring, s.screamTx.rings = [ring] ∧ s.Holds ring
  screamRx : s.receiver.screamRx = ScreamRx.after 0 s.calls
  inRange : s.receiver.screamRx.InRange
  solo : s.receiver.screamRx.Solo
  window : ∀ first rest, s.arrived = first :: rest → AllInWindow first rest
  numbered : ∀ x ∈ s.arrived, 0 ≤ x ∧ x < s.nextNumber
  media : ∀ d ∈ s.media, s.Carries d
  socket : ∀ d ∈ s.receiver.socket, s.Carries d
  feedback : ∀ d ∈ s.feedback, s.Answers d

theorem start_truthful (lossBetaBelowOne : Bool) : (start lossBetaBelowOne).Truthful where
  ordered := by
    intro ring hring
    obtain rfl := List.mem_singleton.mp hring
    exact fun _ => nofun
  ring := ⟨fun _ => .unused, rfl, fun _ => ⟨fun h => h.elim nofun nofun, nofun⟩⟩
  screamRx := rfl
  inRange := nofun
  solo := ⟨Nat.zero_le 1, nofun⟩
  window := nofun
  numbered := nofun
  media := nofun
  socket := nofun
  feedback := nofun

variable {s s' : ScreamSession}

/-- What is on its way stays so while more numbers are given out and more numbers arrive. -/
theorem Carries.mono {d : MediaDatagram} (h : s.Carries d)
    (hnumber : s.nextNumber ≤ s'.nextNumber) : s'.Carries d :=
  ⟨h.numbered.trans_le hnumber, h.bytes⟩

theorem Answers.mono {d : FeedbackDatagram} (h : s.Answers d)
    (harrived : s.arrived <+: s'.arrived) :
    s'.Answers d :=
  ⟨h.arrived.trans harrived, h.bytes⟩

theorem Justified.mono {n : Nat} (h : s.Justified n) (harrived : s.arrived <+: s'.arrived)
    (hoverlong : s.overlong ⊆ s'.overlong) : s'.Justified n := by
  rcases h with hmem | hhead | hover
  · exact .inl (harrived.subset hmem)
  · refine .inr (.inl ?_)
    obtain ⟨more, hmore⟩ := harrived
    rw [← hmore, List.head?_append, hhead]
    rfl
  · exact .inr (.inr (hoverlong hover))

/-! ## The sender -/

/-- A ring in which packets have only been taken out. -/
def Fades (ring ring' : Ring) : Prop :=
  ∀ n, (ring' n).seqNr = (ring n).seqNr ∧ ((ring' n).isUsed = true → (ring n).isUsed = true) ∧
    ((ring' n).isAcked = true → (ring n).isAcked = true)

theorem Holds.fades {ring ring' : Ring} (h : s.Holds ring) (hfades : Fades ring ring') :
    s.Holds ring' := by
  intro n
  obtain ⟨hseq, hused, hacked⟩ := hfades n
  refine ⟨fun hu => ?_, fun ha => (h n).2 (hacked ha)⟩
  rw [hseq]
  exact (h n).1 (hu.imp hused hacked)

theorem fades_clear (stream : TxStream) : Fades stream.txPackets stream.clearTxPackets.txPackets :=
  fun _ => ⟨rfl, nofun, id⟩

theorem of_singleton_getElem? {α : Type} {a b : α} {i : Nat} (h : [a][i]? = some b) :
    i = 0 ∧ a = b := by
  rw [List.getElem?_singleton] at h
  split at h
  · exact ⟨‹i = 0›, Option.some.inj h⟩
  · cases h

/-- A call that takes packets out of the ring at most. -/
theorem Truthful.called (h : s.Truthful) {screamTx : ScreamTx} (hinv : screamTx.Inv)
    (hrings : screamTx.rings = s.screamTx.rings ∨ ∃ (i : Nat) (stream : TxStream),
      s.screamTx.rings[i]? = some stream.txPackets ∧
        screamTx.rings = s.screamTx.rings.set i stream.clearTxPackets.txPackets) :
    { s with screamTx }.Truthful := by
  obtain ⟨ring, hring, hholds⟩ := h.ring
  have hring' : ∃ ring', screamTx.rings = [ring'] ∧ { s with screamTx }.Holds ring' := by
    rcases hrings with hsame | ⟨i, stream, hget, hset⟩
    · exact ⟨ring, hsame.trans hring, hholds⟩
    · rw [hring] at hget hset
      obtain ⟨rfl, rfl⟩ := of_singleton_getElem? hget
      exact ⟨_, hset, hholds.fades (fades_clear stream)⟩
  exact
    { h with
      ordered := hinv
      ring := hring'
      media := fun d hd => (h.media d hd).mono le_rfl
      socket := fun d hd => (h.socket d hd).mono le_rfl
      feedback := fun d hd => (h.feedback d hd).mono (List.prefix_refl _) }

/-- **A packet that is sent** is new in its cell, and not yet acknowledged. -/
theorem Truthful.transmit (h : s.Truthful) {size : Nat} {flags : BitVec 16}
    (hstep : s.transmit size flags = some s') : s'.Truthful := by
  obtain ⟨screamTx, htx, rfl⟩ := Option.map_eq_some_iff.mp hstep
  obtain ⟨ring, hring, hholds⟩ := h.ring
  have hinv : screamTx.Inv := h.ordered.step htx
  obtain ⟨i, stream, p, -, hget, hseq, -, -, hacked, -, hcases⟩ :=
    ScreamTx.addTransmitted_eq htx
  rw [hring] at hget hcases
  obtain ⟨rfl, rfl⟩ := of_singleton_getElem? hget
  have hput : ∀ {before : Ring}, s.Holds before → ∀ s' : ScreamSession,
      s'.nextNumber = s.nextNumber + 1 → s'.arrived = s.arrived → s'.overlong = s.overlong →
      s'.numberIn = Function.update s.numberIn
        ((BitVec.ofNat 16 s.nextNumber).toNat % 2048) s.nextNumber →
      s'.Holds (Function.update before ((BitVec.ofNat 16 s.nextNumber).toNat % 2048) p) := by
    intro before hbefore s' hnumber harrived hoverlong hcell n
    rw [hcell, hnumber]
    by_cases hn : n = (BitVec.ofNat 16 s.nextNumber).toNat % 2048
    · subst hn
      rw [Function.update_self, Function.update_self]
      refine ⟨fun _ => ⟨hseq, Nat.lt_succ_self _⟩, fun ha => ?_⟩
      rw [hacked] at ha
      exact absurd ha Bool.false_ne_true
    · rw [Function.update_of_ne hn, Function.update_of_ne hn]
      obtain ⟨hused, hback⟩ := hbefore n
      refine ⟨fun hu => ⟨(hused hu).1, Nat.lt_succ_of_lt (hused hu).2⟩, fun ha => ?_⟩
      refine (hback ha).mono ?_ ?_
      · rw [harrived]
      · rw [hoverlong]
        exact fun _ => id
  refine
    { h with
      ordered := hinv
      ring := ?_
      numbered := fun x hx => ?_
      media := fun d hd => ?_
      socket := fun d hd => (h.socket d hd).mono (Nat.le_succ _)
      feedback := fun d hd => (h.feedback d hd).mono (List.prefix_refl _) }
  · rcases hcases with ⟨-, -, hset⟩ | ⟨-, -, hset⟩
    · exact ⟨_, hset, hput (hholds.fades (fades_clear stream)) _ rfl rfl rfl rfl⟩
    · exact ⟨_, hset, hput hholds _ rfl rfl rfl rfl⟩
  · have hold := h.numbered x hx
    refine ⟨hold.1, hold.2.trans ?_⟩
    exact Int.ofNat_lt.mpr (Nat.lt_succ_self _)
  · rcases List.mem_append.mp hd with hd | hd
    · exact (h.media d hd).mono (Nat.le_succ _)
    · obtain rfl := List.mem_singleton.mp hd
      exact ⟨Nat.lt_succ_self _, flags, _, _, rfl⟩

/-! ## The receiver -/

/-- What the receiver has been given is of the stream, new numbers in the window of the old. -/
theorem Truthful.heard (h : s.Truthful) (e : RxEvent) (receiver : ScreamReceiver)
    {feedback : List FeedbackDatagram} (hrx : receiver.screamRx = s.receiver.screamRx.step e)
    (hsocket : receiver.socket = s.receiver.socket) (hsolo : receiver.screamRx.Solo)
    (hfeedback : ∀ d ∈ feedback, s.Answers d)
    (hnew : received senderSsrc [e] = [] ∨ ∃ x : Int, received senderSsrc [e] = [x] ∧
      (0 ≤ x ∧ x < s.nextNumber) ∧ ∀ y, top s.arrived = some y → InWindow y x) :
    { s with receiver, feedback, calls := s.calls ++ [e] }.Truthful := by
  have harrived : { s with receiver, feedback, calls := s.calls ++ [e] }.arrived
      = s.arrived ++ received senderSsrc [e] :=
    ScreamRx.received_append senderSsrc s.calls [e]
  have hfront : s.arrived <+: { s with receiver, feedback, calls := s.calls ++ [e] }.arrived := by
    rw [harrived]
    exact List.prefix_append _ _
  obtain ⟨ring, hring, hholds⟩ := h.ring
  exact
    { ordered := h.ordered
      ring := ⟨ring, hring, fun n =>
        ⟨(hholds n).1, fun ha => ((hholds n).2 ha).mono hfront fun _ => id⟩⟩
      screamRx := by
        show receiver.screamRx = _
        rw [ScreamRx.after_concat, ← h.screamRx, hrx]
      inRange := by
        show receiver.screamRx.InRange
        rw [hrx]
        exact h.inRange.step e
      solo := hsolo
      window := by
        intro first rest hcons
        rw [harrived] at hcons
        rcases hnew with hnil | ⟨x, hx, -, hwindow⟩
        · rw [hnil, List.append_nil] at hcons
          exact h.window first rest hcons
        · rw [hx] at hcons
          cases ha : s.arrived with
          | nil =>
              rw [ha] at hcons
              obtain rfl := (List.cons.inj hcons).2
              trivial
          | cons first' rest' =>
              rw [ha] at hcons hwindow
              obtain ⟨rfl, rfl⟩ := List.cons.inj hcons
              exact allInWindow_concat.mpr ⟨h.window _ _ ha, hwindow _ rfl⟩
      numbered := by
        intro y hy
        rw [harrived] at hy
        rcases List.mem_append.mp hy with hy | hy
        · exact h.numbered y hy
        · rcases hnew with hnil | ⟨x, hx, hbounds, -⟩
          · rw [hnil] at hy
            cases hy
          · rw [hx] at hy
            obtain rfl := List.mem_singleton.mp hy
            exact hbounds
      media := fun d hd => (h.media d hd).mono le_rfl
      socket := fun d hd => (h.socket d (hsocket ▸ hd)).mono le_rfl
      feedback := fun d hd => (hfeedback d hd).mono hfront }

/-- **A packet that is read** is the one that was given its number. -/
theorem Truthful.takeMedia (h : s.Truthful) {d : MediaDatagram} (hcarries : s.Carries d)
    (hwindow : ∀ x, top s.arrived = some x → InWindow x d.number)
    (hstep : s.takeMedia d = some s') : s'.Truthful := by
  obtain ⟨hnumber, flags, timestamp, payload, hbytes⟩ := hcarries
  have hread : ScreamHeader.deserialize d.bytes = some
      (.rtp ⟨flags, BitVec.ofNat 16 d.number, timestamp, senderSsrc⟩, payload) := by
    rw [hbytes]
    exact @ScreamHeader.deserialize_serialize (.rtp _) trivial payload
  simp only [ScreamSession.takeMedia, hread, bind, Option.bind, pure] at hstep
  obtain rfl := Option.some.inj hstep
  refine h.heard (.receive s.time_us senderSsrc payload.length d.number false) _ ?_ rfl ?_
    h.feedback (.inr ⟨d.number, ?_, ⟨Int.natCast_nonneg _, Int.ofNat_lt.mpr hnumber⟩, hwindow⟩)
  · simp only [ScreamRx.step, ScreamHeader.rtpPayload, BitVec.ofInt_natCast]
  · exact h.solo.receive _ _ _ _
  · simp [received]

/-- Packets that are read from the socket leave it, and others wait there. -/
theorem Truthful.waits (h : s.Truthful) {socket : List MediaDatagram}
    (hsocket : ∀ d ∈ socket, s.Carries d) :
    { s with receiver := { s.receiver with socket } }.Truthful := by
  obtain ⟨ring, hring, hholds⟩ := h.ring
  exact
    { h with
      ring := ⟨ring, hring, hholds⟩
      media := fun d hd => (h.media d hd).mono le_rfl
      socket := fun d hd => (hsocket d hd).mono le_rfl
      feedback := fun d hd => (h.feedback d hd).mono (List.prefix_refl _) }

theorem Truthful.recvMedia (h : s.Truthful) {d : MediaDatagram} (hmem : d ∈ s.media)
    (hwindow : ∀ next x, (s.receiver.socket ++ [d]).head? = some next →
      top s.arrived = some x → InWindow x next.number)
    (hstep : s.recvMedia d = some s') : s'.Truthful := by
  have hall : ∀ next ∈ s.receiver.socket ++ [d], s.Carries next := by
    intro next hnext
    rcases List.mem_append.mp hnext with hnext | hnext
    · exact h.socket next hnext
    · obtain rfl := List.mem_singleton.mp hnext
      exact h.media next hmem
  unfold ScreamSession.recvMedia at hstep
  cases hqueue : s.receiver.socket ++ [d] with
  | nil => simp at hqueue
  | cons next rest =>
      rw [hqueue] at hall hwindow hstep
      have hrest : ∀ d ∈ rest, s.Carries d := fun d hd => hall d (List.mem_cons_of_mem _ hd)
      simp only at hstep
      split at hstep
      · refine (h.waits hrest).takeMedia ?_ (fun x => hwindow next x rfl) hstep
        exact (hall next List.mem_cons_self).mono le_rfl
      · obtain rfl := Option.some.inj hstep
        exact h.waits hall

/-- **A feedback that is made** tells of what has arrived. -/
theorem Truthful.process (h : s.Truthful) (stack : Mem) : (s.process stack).Truthful := by
  have hnone : received senderSsrc [.getFeedback s.time_us] = [] := rfl
  let receiver := { s.receiver with screamRx := (s.receiver.screamRx.getFeedback s.time_us).2 }
  obtain ⟨hsolo, hfb⟩ := h.solo.getFeedback s.time_us
  unfold ScreamSession.process
  split
  · dsimp only
    split
    · exact h.heard (.getFeedback s.time_us) receiver rfl rfl hsolo h.feedback (.inl hnone)
    · rename_i fb hresult
      obtain ⟨stream, hstream, rfl⟩ := hfb fb hresult
      refine h.heard (.getFeedback s.time_us) receiver rfl rfl hsolo (fun d hd => ?_) (.inl hnone)
      rcases List.mem_append.mp hd with hd | hd
      · exact h.feedback d hd
      · obtain rfl := List.mem_singleton.mp hd
        rw [h.screamRx] at hstream
        rcases ScreamRx.after_follows 0 senderSsrc s.calls with ⟨-, hno⟩ | ⟨stream', hs, hf⟩
        · rw [hno] at hstream
          cases hstream
        · obtain rfl := Option.some.inj (hs.symm.trans hstream)
          refine ⟨List.prefix_refl _, _, _, stack, rfl, ?_, tells_of_follows hf h.window⟩
          rw [← h.screamRx] at hstream
          exact h.inRange _ (List.mem_of_find?_eq_some hstream)
  · exact h

/-! ## Feedback that arrives -/

theorem eq_of_ofInt_eq {x y : Int} (h : BitVec.ofInt 16 x = BitVec.ofInt 16 y)
    (hlt : x - y < 65536) (hgt : y - x < 65536) : x = y := by
  have hx := Stream.ofInt_toNat x
  have hy := Stream.ofInt_toNat y
  rw [h] at hx
  omega

/-- What a feedback tells of a packet in reach of its highest number has arrived, or is in front
of the first that did. -/
theorem Truthful.reported (h : s.Truthful) {d : FeedbackDatagram} {fb : IncomingFeedback}
    (hfront : d.arrived <+: s.arrived) (htells : Tells d.arrived fb.highestSeqNr fb.ackVector)
    {m : Nat} (hm : m < s.nextNumber) (hold : s.nextNumber ≤ m + 2 ^ 15)
    (hnear : ∀ x, top d.arrived = some x → s.nextNumber ≤ x + 2 ^ 15)
    (hreports : Reports fb (BitVec.ofNat 16 m) ∨
      ackDiff fb.highestSeqNr (BitVec.ofNat 16 m) = 64 ∧ fb.overlong = true) :
    (m : Int) ∈ s.arrived ∨ s.arrived.head? = some ((m : Int) + 1) ∨
      top d.arrived = some ((m : Int) + 65) ∧ fb.overlong = true := by
  obtain ⟨first, rest, hcons, hseq, hbits⟩ := htells
  have htop : top d.arrived = some (highest first rest) := by rw [hcons, top]
  have hmem : ∀ x ∈ d.arrived, x ∈ s.arrived := fun x hx => hfront.subset hx
  have hhead : s.arrived.head? = some first := by
    obtain ⟨more, hmore⟩ := hfront
    rw [← hmore, hcons]
    rfl
  have hhighest : highest first rest ∈ d.arrived := by
    rw [hcons]
    exact highest_mem first rest
  have hbelow := (h.numbered _ (hmem _ hhighest)).2
  have hnext := hnear _ htop
  have hnumber : ∀ k : Int, 0 ≤ k → k ≤ 65 →
      BitVec.ofNat 16 m = BitVec.ofInt 16 (highest first rest - k) →
      (m : Int) = highest first rest - k := by
    intro k hk hle heq
    rw [← BitVec.ofInt_natCast] at heq
    exact eq_of_ofInt_eq heq (by omega) (by omega)
  have hsub : ∀ k : Nat, fb.highestSeqNr - BitVec.ofNat 16 k =
      BitVec.ofInt 16 (highest first rest - k) := by
    intro k
    rw [hseq, ← BitVec.ofInt_natCast, BitVec.sub_eq_iff_eq_add, ← BitVec.ofInt_add]
    congr 1
    omega
  rcases hreports with (heq | ⟨k, hk, heq, hbit⟩) | ⟨hdiff, hoverlong⟩
  · left
    rw [hnumber 0 le_rfl (by omega) (by rw [heq, hseq, Int.sub_zero]), Int.sub_zero]
    exact hmem _ hhighest
  · have hm' := hnumber (k + 1 : Nat) (Int.natCast_nonneg _) (by omega)
      (by rw [heq, hsub])
    have htold := hbits k hk hbit
    rw [show highest first rest - 1 - (k : Int) = m by omega] at htold
    rcases List.mem_cons.mp htold with hfirst | htold
    · right
      left
      rw [hhead, hfirst, Int.sub_add_cancel]
    · exact .inl (hmem _ htold)
  · have hdist := (ackDiff_eq_iff (by decide)).mp hdiff
    have heq := (dist_eq_iff (by decide)).mp hdist
    have hm' := hnumber 65 (by decide) le_rfl (by rw [heq]; exact hsub 65)
    refine .inr (.inr ⟨?_, hoverlong⟩)
    rw [htop, hm', Int.sub_add_cancel]

/-- **A feedback that arrives** marks packets that it tells of. -/
theorem Truthful.marked (h : s.Truthful) {d : FeedbackDatagram} {fb : IncomingFeedback}
    (hfront : d.arrived <+: s.arrived) (htells : Tells d.arrived fb.highestSeqNr fb.ackVector)
    (htimely : ∀ x, top d.arrived = some x → s.nextNumber ≤ x + 2 ^ 15 ∧
      ∀ ring ∈ s.screamTx.rings, ∀ n, (ring n).isUsed = true →
        s.nextNumber ≤ s.numberIn n + 2 ^ 15) :
    { s with
      screamTx := s.screamTx.incomingFeedback fb
      overlong := if fb.overlong then s.overlong ++ (top d.arrived).toList
        else s.overlong }.Truthful := by
  obtain ⟨x, hx⟩ : ∃ x, top d.arrived = some x := by
    obtain ⟨first, rest, hcons, -⟩ := htells
    exact ⟨highest first rest, by rw [hcons, top]⟩
  obtain ⟨ring, hring, hholds⟩ := h.ring
  have hover : s.overlong ⊆
      if fb.overlong then s.overlong ++ (top d.arrived).toList else s.overlong := by
    split
    · exact List.subset_append_left _ _
    · exact fun _ => id
  have hdetected : ∀ (stream : TxStream) timeTxAck_us, ring = stream.txPackets →
      { s with
        screamTx := s.screamTx.incomingFeedback fb
        overlong := if fb.overlong then s.overlong ++ (top d.arrived).toList
          else s.overlong }.Holds (detectedRing fb stream timeTxAck_us) := by
    rintro stream timeTxAck_us rfl n
    obtain ⟨hseq, hused, hacked⟩ := detectedRing_cell fb stream timeTxAck_us n
    obtain ⟨hcell, hback⟩ := hholds n
    by_cases hold : (stream.txPackets n).isAcked = true
    · rw [hseq]
      exact ⟨fun _ => hcell (.inr hold), fun _ => (hback hold).mono (List.prefix_refl _) hover⟩
    · have hnew := fun ha => reports_of_marked (Bool.eq_false_iff.mpr hold)
        ((hacked ha).resolve_left hold)
      refine ⟨fun hu => ?_, fun ha => ?_⟩
      · rw [hseq]
        exact hcell (.inl (hu.elim hused fun ha => (hnew ha).1))
      · obtain ⟨hin, hreports⟩ := hnew ha
        obtain ⟨hnumber, hlt⟩ := hcell (.inl hin)
        rw [hnumber] at hreports
        have hrecent := (htimely x hx).2 stream.txPackets (by rw [hring]; simp) n hin
        rcases h.reported hfront htells hlt hrecent (fun y hy => (htimely y hy).1) hreports with
          harrived | hhead | ⟨htop, hoverlong⟩
        · exact .inl harrived
        · exact .inr (.inl hhead)
        · refine .inr (.inr ?_)
          simp [hoverlong, htop]
  have hrings : ∃ ring', (s.screamTx.incomingFeedback fb).rings = [ring'] ∧
      { s with
        screamTx := s.screamTx.incomingFeedback fb
        overlong := if fb.overlong then s.overlong ++ (top d.arrived).toList
          else s.overlong }.Holds ring' := by
    rcases s.screamTx.incomingFeedback_rings fb with hsame | ⟨i, stream, time, hget, hset⟩
    · refine ⟨ring, hsame.trans hring, fun n => ⟨(hholds n).1, fun ha => ?_⟩⟩
      exact ((hholds n).2 ha).mono (List.prefix_refl _) hover
    · rw [hring] at hget hset
      obtain ⟨rfl, hstream⟩ := of_singleton_getElem? hget
      exact ⟨_, hset, hdetected stream time hstream⟩
  exact
    { h with
      ordered := h.ordered.step (e := .incomingFeedback fb) rfl
      ring := hrings
      media := fun d hd => (h.media d hd).mono le_rfl
      socket := fun d hd => (h.socket d hd).mono le_rfl
      feedback := fun d hd => (h.feedback d hd).mono (List.prefix_refl _) }

theorem Truthful.recvFeedback (h : s.Truthful) {d : FeedbackDatagram} {stack : Mem}
    {overlong : Bool} (hmem : d ∈ s.feedback)
    (htimely : ∀ x, top d.arrived = some x → s.nextNumber ≤ x + 2 ^ 15 ∧
      ∀ ring ∈ s.screamTx.rings, ∀ n, (ring n).isUsed = true →
        s.nextNumber ≤ s.numberIn n + 2 ^ 15)
    (hstep : s.recvFeedback d stack overlong = some s') : s'.Truthful := by
  obtain ⟨hfront, hdr, feedback, stack', hbytes, hrange, htells⟩ := h.feedback d hmem
  have hread : ScreamHeader.deserialize d.bytes =
      some (.rtcp hdr, feedback.structBytes stack') := by
    rw [hbytes]
    exact @ScreamHeader.deserialize_serialize (.rtcp _) trivial _
  unfold ScreamSession.recvFeedback at hstep
  split at hstep
  · simp only [hread, bind, Option.bind, pure, Feedback.readStruct_structBytes hrange] at hstep
    obtain rfl := Option.some.inj hstep
    exact @Truthful.marked s h d { feedback.arguments s.time_us overlong with ssrc := senderSsrc }
      hfront htells htimely
  · obtain rfl := Option.some.inj hstep
    exact h

/-! ## Runs -/

/-- What leaves both ends and the network alone keeps what holds. -/
theorem Truthful.kept (h : s.Truthful) (htx : s'.screamTx = s.screamTx)
    (hnumber : s.nextNumber ≤ s'.nextNumber) (hcalls : s'.calls = s.calls)
    (hmedia : s'.media = s.media) (hsocket : s'.receiver.socket = s.receiver.socket)
    (hrx : s'.receiver.screamRx = s.receiver.screamRx) (hfeedback : s'.feedback = s.feedback)
    (hcells : s'.numberIn = s.numberIn) (hoverlong : s'.overlong = s.overlong) :
    s'.Truthful := by
  have harrived : s'.arrived = s.arrived := by rw [arrived, hcalls, arrived]
  have hfront : s.arrived <+: s'.arrived := harrived ▸ List.prefix_refl _
  obtain ⟨ring, hring, hholds⟩ := h.ring
  refine ⟨htx ▸ h.ordered, ⟨ring, htx ▸ hring, fun n => ?_⟩, ?_, hrx ▸ h.inRange, hrx ▸ h.solo,
    harrived ▸ h.window, fun x hx => ?_, fun d hd => ?_, fun d hd => ?_, fun d hd => ?_⟩
  · rw [hcells]
    obtain ⟨hcell, hback⟩ := hholds n
    refine ⟨fun hu => ⟨(hcell hu).1, (hcell hu).2.trans_le hnumber⟩, fun ha => ?_⟩
    exact (hback ha).mono hfront (hoverlong ▸ List.Subset.refl _)
  · rw [hrx, hcalls, h.screamRx]
  · have hold := h.numbered x (harrived ▸ hx)
    exact ⟨hold.1, hold.2.trans_le (Int.ofNat_le.mpr hnumber)⟩
  · exact (h.media d (hmedia ▸ hd)).mono hnumber
  · exact (h.socket d (hsocket ▸ hd)).mono hnumber
  · exact (h.feedback d (hfeedback ▸ hd)).mono hfront

/-- **A step in which nothing is too old** keeps what holds. -/
theorem Truthful.step (h : s.Truthful) {e : Turn} (hstep : s.Step e s') (htimely : s.Timely e) :
    s'.Truthful := by
  cases e with
  | advance t =>
      simp only [Step, turn] at hstep
      split at hstep
      · obtain rfl := Option.some.inj hstep
        exact h.kept rfl le_rfl rfl rfl rfl rfl rfl rfl rfl
      · cases hstep
  | startReceiver =>
      obtain rfl := Option.some.inj hstep
      exact h.kept rfl le_rfl rfl rfl rfl rfl rfl rfl rfl
  | stopReceiver =>
      obtain rfl := Option.some.inj hstep
      exact h.kept rfl le_rfl rfl rfl rfl rfl rfl rfl rfl
  | stopSender =>
      obtain rfl := Option.some.inj hstep
      exact h.kept rfl le_rfl rfl rfl rfl rfl rfl rfl rfl
  | discard n =>
      obtain rfl := Option.some.inj hstep
      exact h.kept rfl (Nat.le_add_right _ _) rfl rfl rfl rfl rfl rfl rfl
  | newMediaFrame =>
      obtain ⟨screamTx, htx, rfl⟩ := Option.map_eq_some_iff.mp hstep
      exact h.called (h.ordered.step htx) (.inl (ScreamTx.newMediaFrame_eq htx).1)
  | getTargetBitrate =>
      obtain ⟨screamTx, htx, rfl⟩ := Option.map_eq_some_iff.mp hstep
      exact h.called (h.ordered.step htx) (.inl (ScreamTx.getTargetBitrate_eq htx).1)
  | isOkToTransmit slow prioritized =>
      obtain ⟨screamTx, htx, rfl⟩ := Option.map_eq_some_iff.mp hstep
      refine h.called (h.ordered.step htx) ?_
      rcases ScreamTx.isOkToTransmit_eq htx with ⟨-, hsame, -⟩ | ⟨-, i, stream, -, hget, hset, -⟩
      · exact .inl hsame
      · exact .inr ⟨i, stream, hget, hset⟩
  | transmit size flags => exact h.transmit hstep
  | process stack =>
      simp only [Step, turn] at hstep
      split at hstep
      · obtain rfl := Option.some.inj hstep
        exact h.process stack
      · cases hstep
  | media i =>
      obtain ⟨d, hget, hrecv⟩ := Option.bind_eq_some_iff.mp hstep
      refine h.recvMedia (List.mem_of_getElem? hget) (fun next x hnext hx => ?_) hrecv
      refine htimely next x ?_ hx
      rw [hget]
      exact hnext
  | feedback i stack overlong =>
      obtain ⟨d, hget, hrecv⟩ := Option.bind_eq_some_iff.mp hstep
      exact h.recvFeedback (List.mem_of_getElem? hget) (fun x hx => htimely d x hget hx) hrecv

theorem truthful_of_run {lossBetaBelowOne : Bool} {es : List Turn}
    (hrun : Run (fun s e s' => s.Step e s' ∧ s.Timely e) (start lossBetaBelowOne) es s) :
    s.Truthful :=
  hrun.stateInvariant (start_truthful lossBetaBelowOne) fun _ _ _ h hstep =>
    h.step hstep.1 hstep.2

theorem takeMedia_nextNumber {d : MediaDatagram} (h : s.takeMedia d = some s') :
    s'.nextNumber = s.nextNumber := by
  obtain ⟨⟨header, payload⟩, -, hrest⟩ := Option.bind_eq_some_iff.mp h
  obtain rfl := Option.some.inj hrest
  rfl

theorem recvMedia_nextNumber {d : MediaDatagram} (h : s.recvMedia d = some s') :
    s'.nextNumber = s.nextNumber := by
  unfold ScreamSession.recvMedia at h
  split at h
  · obtain rfl := Option.some.inj h
    rfl
  · split at h
    · exact (takeMedia_nextNumber h).trans rfl
    · obtain rfl := Option.some.inj h
      rfl

theorem recvFeedback_nextNumber {d : FeedbackDatagram} {stack : Mem} {overlong : Bool}
    (h : s.recvFeedback d stack overlong = some s') : s'.nextNumber = s.nextNumber := by
  unfold ScreamSession.recvFeedback at h
  split at h
  · obtain ⟨⟨header, payload⟩, -, hrest⟩ := Option.bind_eq_some_iff.mp h
    obtain ⟨called, hcall, hrest⟩ := Option.bind_eq_some_iff.mp hrest
    obtain ⟨screamTx, -, rfl⟩ := Option.map_eq_some_iff.mp hcall
    obtain rfl := Option.some.inj hrest
    rfl
  · obtain rfl := Option.some.inj h
    rfl

/-- The numbers only grow. -/
theorem nextNumber_le {e : Turn} (hstep : s.Step e s') : s.nextNumber ≤ s'.nextNumber := by
  cases e with
  | advance t =>
      simp only [Step, turn] at hstep
      split at hstep
      · obtain rfl := Option.some.inj hstep
        exact le_rfl
      · cases hstep
  | startReceiver | stopReceiver | stopSender =>
      obtain rfl := Option.some.inj hstep
      exact le_rfl
  | discard n =>
      obtain rfl := Option.some.inj hstep
      exact Nat.le_add_right _ _
  | newMediaFrame | getTargetBitrate | isOkToTransmit slow prioritized =>
      obtain ⟨screamTx, -, rfl⟩ := Option.map_eq_some_iff.mp hstep
      exact le_rfl
  | transmit size flags =>
      obtain ⟨screamTx, -, rfl⟩ := Option.map_eq_some_iff.mp hstep
      exact Nat.le_succ _
  | process stack =>
      simp only [Step, turn, process] at hstep
      split at hstep
      · obtain rfl := Option.some.inj hstep
        split
        · split <;> exact le_rfl
        · exact le_rfl
      · cases hstep
  | media i =>
      obtain ⟨d, -, hrecv⟩ := Option.bind_eq_some_iff.mp hstep
      exact (recvMedia_nextNumber hrecv).ge
  | feedback i stack overlong =>
      obtain ⟨d, -, hrecv⟩ := Option.bind_eq_some_iff.mp hstep
      exact (recvFeedback_nextNumber hrecv).ge

/-- Until the encoder has given out a quarter of the numbers, nothing can be too old. -/
theorem timely_of_few (h : s.Truthful) (hfew : s.nextNumber ≤ 2 ^ 14) (e : Turn) :
    s.Timely e := by
  have htop : ∀ {numbers x}, numbers <+: s.arrived → top numbers = some x →
      0 ≤ x ∧ x < s.nextNumber := by
    intro numbers x hfront hx
    cases numbers with
    | nil => cases hx
    | cons first rest =>
        obtain rfl := Option.some.inj hx
        exact h.numbered _ (hfront.subset (highest_mem first rest))
  cases e with
  | media i =>
      intro d x hd hx
      have hx' := htop (List.prefix_refl _) hx
      have hcarries : s.Carries d := by
        rcases List.mem_append.mp (List.mem_of_head? hd) with hd | hd
        · exact h.socket d hd
        · exact h.media d (List.mem_of_getElem? (Option.mem_toList.mp hd))
      have hd' := hcarries.numbered
      exact ⟨by omega, .inl (by omega)⟩
  | feedback i stack overlong =>
      intro d x hd hx
      have hx' := htop (h.feedback d (List.mem_of_getElem? hd)).arrived hx
      exact ⟨by omega, fun _ _ n _ => by omega⟩
  | _ => trivial

theorem timely_of_run {lossBetaBelowOne : Bool} {es : List Turn}
    (hrun : Run Step (start lossBetaBelowOne) es s) (hfew : s.nextNumber ≤ 2 ^ 14) :
    Run (fun s e s' => s.Step e s' ∧ s.Timely e) (start lossBetaBelowOne) es s := by
  induction hrun with
  | nil => exact .nil
  | snoc _ hstep ih =>
      have hbefore := (nextNumber_le hstep).trans hfew
      exact .snoc (ih hbefore)
        ⟨hstep, timely_of_few (truthful_of_run (ih hbefore)) hbefore _⟩

/-- **What the sender takes as received** in a run in which nothing is too old: a cell that is
acknowledged holds the packet of a number that has arrived, or of the one in front of the first
that arrived, or of one that lies 65 below the highest number of a feedback and was found in a bit
that the vector does not have. -/
theorem acked_of_run {lossBetaBelowOne : Bool} {es : List Turn}
    (hrun : Run (fun s e s' => s.Step e s' ∧ s.Timely e) (start lossBetaBelowOne) es s) :
    ∀ ring ∈ s.screamTx.rings, ∀ n, (ring n).isAcked = true →
      (ring n).seqNr = BitVec.ofNat 16 (s.numberIn n) ∧ s.numberIn n < s.nextNumber ∧
        s.Justified (s.numberIn n) := by
  intro ring hmem n hacked
  have h := truthful_of_run hrun
  obtain ⟨only, honly, hholds⟩ := h.ring
  rw [honly] at hmem
  obtain rfl := List.mem_singleton.mp hmem
  obtain ⟨hcell, hback⟩ := hholds n
  exact ⟨(hcell (.inr hacked)).1, (hcell (.inr hacked)).2, hback hacked⟩

/-- Two packets are lost, and the second one is taken as received when the third one arrives. -/
def lostBefore : List Turn :=
  [.startReceiver, .advance 1000, .transmit 100 0, .transmit 100 0, .transmit 100 0,
    .advance 1040, .media 2, .process fun _ => 0, .advance 1080, .feedback 0 (fun _ => 0) false]

theorem acked_lostBefore : ∃ s : ScreamSession,
    (s.arrived = [2] ∧ ∃ ring ∈ s.screamTx.rings, (ring 1).isAcked = true) ∧
      ∀ ring ∈ s.screamTx.rings, ∀ n, (ring n).isAcked = true →
        (ring n).seqNr = BitVec.ofNat 16 (s.numberIn n) ∧ s.numberIn n < s.nextNumber ∧
          s.Justified (s.numberIn n) := by
  have hview : (lostBefore.foldlM turn (start true)).map (fun s =>
      (s.nextNumber, s.arrived, s.screamTx.rings.any fun ring => (ring 1).isAcked))
      = some (3, [2], true) := by
    decide +kernel
  obtain ⟨s, hs, hview⟩ := Option.map_eq_some_iff.mp hview
  obtain ⟨hnumber, hview⟩ := Prod.mk.inj hview
  obtain ⟨harrived, hany⟩ := Prod.mk.inj hview
  obtain ⟨ring, hmem, hacked⟩ := List.any_eq_true.mp hany
  have hrun : Run Step (start true) lostBefore s := Run.of_foldlM hs
  exact ⟨s, ⟨harrived, ring, hmem, hacked⟩, acked_of_run (timely_of_run hrun (by omega))⟩

end ScreamSession

end Scream
