import RmcatNs3.Razor.LossList
import RmcatNs3.Razor.ReceiverLoops
import RmcatNs3.Razor.SendWindow

/-!
# Requests for lost packets

`video_real_ack` writes the packets that it asks for as offsets of 16 bits from the base, and
`sim_sender_ack` adds them to the base again. The packets that the video cache has accepted
are written down beside the receiver.
-/

namespace Razor

namespace SimTransport

open CountedLoop Runs SimProto

/-- The packets that `sim_sender_ack` looks for. -/
def SegmentAck.requested (ack : SegmentAck) : List (BitVec 32) :=
  ack.nack.map fun offset => ack.basePacketId + offset.setWidth 32

theorem Sender.nacked_eq (s : Sender) (ack : SegmentAck) :
    s.nacked ack.basePacketId ack.nack =
      ack.requested.filterMap fun id => s.cache.lookup id.toNat := by
  rw [SegmentAck.requested, List.filterMap_map]
  rfl

namespace Receiver

variable {clock : Clock} {r r' : Receiver} {accepted : List (BitVec 32)}

/-- What an ack asks for is less than `2 ^ 16` above its base. -/
def Near (clock : Clock) (r : Receiver) : Prop :=
  ∀ key ∈ r.requests clock, key - r.ackBase.toNat < 2 ^ 16

instance (clock : Clock) (r : Receiver) : Decidable (r.Near clock) :=
  inferInstanceAs (Decidable (∀ key ∈ r.requests clock, _))

/-- The counters behind a segment that the cache has taken. -/
def filed (r : Receiver) (seq : BitVec 32) : Receiver :=
  { r with
    baseSeq := if seq = r.baseSeq + 1 then seq else r.baseSeq
    maxSeq := suMax r.maxSeq seq }

theorem taken_eq (clock : Clock) (r : Receiver) (seq : BitVec 32) :
    r.taken clock seq = (r.filed seq).videoRealAck clock false seq :=
  rfl

/-- The receiver that `sim_receiver_put` calls `video_real_ack` with. -/
def acking (clock : Clock) (seg : SimSegment) (r : Receiver) : Option Receiver :=
  if r.ignores seg then none
  else
    match (r.start seg).updateLoss clock seg.packetId, r.cache.put seg with
    | some r, .ok (cache, true) => some ({ r with cache }.filed seg.packetId)
    | _, _ => none

/-- The loop of `sim_receiver_update_loss` does not begin behind the largest packet id, and
where an ack is sent, what it asks for is near. -/
def Input.InReach (r : Receiver) : Input → Prop
  | .put clock seg => r.ignores seg = false → r.maxSeq ≠ BitVec.allOnes 32 ∧
      ∀ r₁ ∈ r.acking clock seg, r₁.ackDue clock false = true → r₁.Near clock
  | .timer clock _ => r.ackDue clock true = true → r.Near clock
  | _ => True

instance (r : Receiver) : (e : Input) → Decidable (e.InReach r)
  | .put clock seg => inferInstanceAs (Decidable (r.ignores seg = false →
      r.maxSeq ≠ BitVec.allOnes 32 ∧
        ∀ r₁ ∈ r.acking clock seg, r₁.ackDue clock false = true → r₁.Near clock))
  | .timer _ _ => inferInstanceAs (Decidable (_ → _))
  | .get _ _ | .active _ _ | .reset _ => inferInstanceAs (Decidable True)

/-! ## Offsets -/

/-- **An entry leads back** to the packet that is asked for exactly if it is near. -/
theorem add_offset_eq_iff {base : BitVec 32} {key : Nat} (hkey : key < 2 ^ 32)
    (hbase : base.toNat < key) :
    base + (offset base key).setWidth 32 = BitVec.ofNat 32 key ↔ key - base.toNat < 2 ^ 16 := by
  have hnat : (BitVec.ofNat 32 key).toNat = key := by
    rw [BitVec.toNat_ofNat, Nat.mod_eq_of_lt hkey]
  have hle : base ≤ BitVec.ofNat 32 key := by
    rw [BitVec.le_def, hnat]
    omega
  have hdist : (BitVec.ofNat 32 key - base).toNat = key - base.toNat := by
    rw [BitVec.toNat_sub_of_le hle, hnat]
  rw [offset, KeyRange.add_offset_eq_iff (by decide), hdist]

/-- The sender looks for the packets that have been asked for. -/
theorem requested_eq {hb : Bool} {seq : BitVec 32} {ack : SegmentAck}
    (h : r.videoRealAck clock hb seq = some (r', some ack))
    (hkeys : ∀ key, r.Lost key → key < 2 ^ 32) (hnear : r.Near clock) :
    ack.requested = (r.requests clock).map (BitVec.ofNat 32) := by
  obtain ⟨-, hbase, hnack, -⟩ := ack_of_videoRealAck h
  rw [SegmentAck.requested, hbase, hnack, List.map_map]
  refine List.map_congr_left fun key hkey => ?_
  exact (add_offset_eq_iff (hkeys key (lost_of_mem_requests hkey))
    (lt_of_mem_requests hkey)).mpr (hnear key hkey)

/-! ## Accepted packets -/

/-- The lost packets have packet ids, and the accepted ones are up to the highest one and not
lost. -/
structure Accounts (r : Receiver) (accepted : List (BitVec 32)) : Prop where
  keys : ∀ key, r.Lost key → key < 2 ^ 32
  apart : ∀ id ∈ accepted, ¬r.Lost id.toNat
  le_max : ∀ id ∈ accepted, 0 < id ∧ id ≤ r.maxSeq

/-- No packet joins the list. -/
theorem Accounts.mono (h : r.Accounts accepted)
    (hr : r'.maxSeq = r.maxSeq ∧ ∀ key, r'.Lost key → r.Lost key) : r'.Accounts accepted where
  keys key hkey := h.keys key (hr.2 key hkey)
  apart id hid hlost := h.apart id hid (hr.2 _ hlost)
  le_max id hid := by
    rw [hr.1]
    exact h.le_max id hid

/-- The first segment sets the base when none has been accepted. -/
theorem Accounts.start (h : r.Accounts accepted) (seg : SimSegment) :
    (r.start seg).Accounts accepted := by
  rw [Receiver.start]
  split
  · rename_i hfirst
    have hnone : accepted = [] := by
      refine List.eq_nil_iff_forall_not_mem.mpr fun id hid => ?_
      obtain ⟨hpos, hle⟩ := h.le_max id hid
      rw [hfirst.1] at hle
      exact absurd hpos (BitVec.not_lt.mpr hle)
    subst hnone
    exact ⟨h.keys, fun _ hid => absurd hid List.not_mem_nil,
      fun _ hid => absurd hid List.not_mem_nil⟩
  · exact h

theorem maxSeq_start_ne (hmax : r.maxSeq ≠ BitVec.allOnes 32) (seg : SimSegment) :
    (r.start seg).maxSeq ≠ BitVec.allOnes 32 := by
  rw [Receiver.start]
  split
  · rename_i hfirst
    intro heq
    have hlt : (seg.index.setWidth 32).toNat < seg.packetId.toNat := hfirst.2
    have hnat := congrArg BitVec.toNat heq
    have hpacket := seg.packetId.isLt
    have hsub : (seg.packetId - seg.index.setWidth 32).toNat =
        seg.packetId.toNat - (seg.index.setWidth 32).toNat :=
      BitVec.toNat_sub_of_le (BitVec.le_of_lt hfirst.2)
    have hone : (1 : BitVec 32) ≤ seg.packetId - seg.index.setWidth 32 := by
      rw [BitVec.le_def, hsub]
      exact Nat.sub_pos_of_lt hlt
    dsimp only at hnat
    rw [BitVec.toNat_sub_of_le hone, hsub, BitVec.toNat_allOnes,
      show (1 : BitVec 32).toNat = 1 from rfl] at hnat
    omega
  · exact hmax

/-- The packets that join the list are above the accepted ones. -/
theorem Accounts.updateLoss (h : r.Accounts accepted) (hmax : r.maxSeq ≠ BitVec.allOnes 32)
    {seq : BitVec 32} (hr : r.updateLoss clock seq = some r') :
    r'.Accounts accepted ∧ ¬r'.Lost seq.toNat := by
  have hmaxSeq : r'.maxSeq = r.maxSeq := by rw [updateLoss_eq hr]
  have hseq := seq.isLt
  have hlt : r.maxSeq.toNat + 1 < 2 ^ 32 := by
    have hne : r.maxSeq.toNat ≠ 2 ^ 32 - 1 := fun heq => hmax (BitVec.eq_of_toNat_eq heq)
    have hle := r.maxSeq.isLt
    omega
  have hsucc := toNat_add_one hlt
  refine ⟨⟨fun key hkey => ?_, fun id hid hlost => ?_, fun id hid => ?_⟩, fun hlost => ?_⟩
  · rcases (lost_updateLoss_iff hr).mp hkey with hold | hnew
    · exact h.keys key hold.1
    · omega
  · rcases (lost_updateLoss_iff hr).mp hlost with hold | hnew
    · exact h.apart id hid hold.1
    · have hle : id.toNat ≤ r.maxSeq.toNat := (h.le_max id hid).2
      omega
  · rw [hmaxSeq]
    exact h.le_max id hid
  · rcases (lost_updateLoss_iff hr).mp hlost with hold | hnew
    · exact hold.2 rfl
    · omega

theorem le_suMax (a b : BitVec 32) : a ≤ suMax a b ∧ b ≤ suMax a b := by
  rw [suMax]
  split
  · rename_i hlt
    exact ⟨BitVec.le_refl a, BitVec.le_of_lt hlt⟩
  · rename_i hnot
    exact ⟨BitVec.not_lt.mp hnot, BitVec.le_refl b⟩

/-- A packet is accepted that has left the list. -/
theorem Accounts.filed (h : r.Accounts accepted) {seq : BitVec 32} (hpos : 0 < seq)
    (hlost : ¬r.Lost seq.toNat) : (r.filed seq).Accounts (seq :: accepted) where
  keys := h.keys
  apart id hid := by
    rcases List.mem_cons.mp hid with rfl | hid
    · exact hlost
    · exact h.apart id hid
  le_max id hid := by
    obtain ⟨hold, hnew⟩ := le_suMax r.maxSeq seq
    rcases List.mem_cons.mp hid with rfl | hid
    · exact ⟨hpos, hnew⟩
    · obtain ⟨hid0, hle⟩ := h.le_max id hid
      exact ⟨hid0, BitVec.le_trans hle hold⟩

end Receiver

/-! ## Calls -/

/-- A receiver, and the packets that its cache has accepted since the last reset. -/
structure Receipt where
  receiver : Receiver
  accepted : List (BitVec 32)

namespace Receipt

open Receiver

/-- A receiver that has just been created. -/
def new (clock : Clock) : Receipt := ⟨.new clock, []⟩

/-- The accepted packets after a call. -/
def record (p : Receipt) : Input → List (BitVec 32)
  | .put _ seg =>
      match p.receiver.ignores seg, p.receiver.cache.put seg with
      | false, .ok (_, true) => seg.packetId :: p.accepted
      | _, _ => p.accepted
  | .reset _ => []
  | _ => p.accepted

/-- A call, and the ack that it sends. -/
def call (scaled : Speed → BitVec 64 → BitVec 32) (p : Receipt) (e : Input) :
    Except Fault (Receipt × Option SegmentAck) :=
  (p.receiver.call scaled e).map fun result => (⟨result.1, p.record e⟩, result.2)

/-- Every entry of the ack leads to a packet that is lost and has not been accepted, and the
entries are different. -/
structure Faithful (p : Receipt) (ack : SegmentAck) : Prop where
  lost : ∀ id ∈ ack.requested, p.receiver.Lost id.toNat
  missing : ∀ id ∈ ack.requested, id ∉ p.accepted
  nodup : ack.nack.Nodup

variable {scaled : Speed → BitVec 64 → BitVec 32} {clock : Clock} {p p' : Receipt}

/-- An ack of near packets is faithful. -/
theorem faithful_of_videoRealAck {r : Receiver} {accepted : List (BitVec 32)} {hb : Bool}
    {seq : BitVec 32} {ack : SegmentAck} (hr : r.Accounts accepted)
    (h : r.videoRealAck clock hb seq = some (p'.receiver, some ack)) (hnear : r.Near clock)
    (hp : p'.accepted = accepted) : p'.Faithful ack := by
  obtain ⟨-, -, -, hlost⟩ := ack_of_videoRealAck h
  have hrequested := requested_eq h hr.keys hnear
  have hnat : ∀ key ∈ r.requests clock, (BitVec.ofNat 32 key).toNat = key := fun key hkey => by
    rw [BitVec.toNat_ofNat, Nat.mod_eq_of_lt (hr.keys key (lost_of_mem_requests hkey))]
  have hnodup : ack.requested.Nodup := by
    rw [hrequested]
    refine (r.nodup_requests clock).map_on fun key hkey key' hkey' heq => ?_
    rw [← hnat key hkey, ← hnat key' hkey', heq]
  constructor
  · intro id hid
    rw [hrequested] at hid
    obtain ⟨key, hkey, rfl⟩ := List.mem_map.mp hid
    rw [hnat key hkey]
    exact hlost key hkey
  · intro id hid hmem
    rw [hrequested] at hid
    obtain ⟨key, hkey, rfl⟩ := List.mem_map.mp hid
    rw [hp] at hmem
    refine hr.apart _ hmem ?_
    rw [hnat key hkey]
    exact lost_of_mem_requests hkey
  · exact hnodup.of_map _

/-- A frame that is taken from the cache changes nothing else. -/
theorem get_lost {now : BitVec 64} {bufferSize : Nat} {out : Option VideoCache.Delivery}
    {r r' : Receiver} (h : r.get scaled now bufferSize = .ok (r', out)) :
    r'.maxSeq = r.maxSeq ∧ ∀ key, r'.Lost key → r.Lost key := by
  rw [Receiver.get] at h
  split at h
  · obtain ⟨result, -, hresult⟩ := map_eq_ok h
    obtain ⟨rfl, -⟩ := Prod.mk.inj hresult
    exact ⟨rfl, fun _ hkey => hkey⟩
  · obtain ⟨rfl, -⟩ := Prod.mk.inj (Except.ok.inj h)
    exact ⟨rfl, fun _ hkey => hkey⟩

/-- What a call of `sim_receiver_put` keeps, and the ack that it sends. -/
theorem put_accounts {seg : SimSegment} {ack : Option SegmentAck}
    (hp : p.receiver.Accounts p.accepted) (he : (Input.put clock seg).InReach p.receiver)
    (h : p.receiver.put clock seg = .ok (p'.receiver, ack))
    (haccepted : p'.accepted = p.record (.put clock seg)) :
    p'.receiver.Accounts p'.accepted ∧ ∀ a, ack = some a → p'.Faithful a := by
  have hresult := put_result clock p.receiver seg
  rw [h] at hresult
  generalize hout : (Except.ok (p'.receiver, ack) : Except Fault _) = out at hresult
  cases hresult with
  | ignored hignores =>
      obtain ⟨heq, rfl⟩ := Prod.mk.inj (Except.ok.inj hout)
      rw [haccepted, heq, record, hignores]
      exact ⟨hp, fun a ha => by cases ha⟩
  | fault => cases hout
  | @rejected r₁ cache hignores hloss hput =>
      obtain ⟨heq, rfl⟩ := Prod.mk.inj (Except.ok.inj hout)
      obtain ⟨hmax, -⟩ := he hignores
      obtain ⟨h₁, -⟩ := (hp.start seg).updateLoss (maxSeq_start_ne hmax seg) hloss
      rw [haccepted, heq, record, hignores, hput]
      exact ⟨h₁.mono ⟨rfl, fun _ hkey => hkey⟩, fun a ha => by cases ha⟩
  | endless => cases hout
  | @taken r₁ cache result hignores hloss hput htaken =>
      obtain rfl := Except.ok.inj hout
      obtain ⟨hmax, hnear⟩ := he hignores
      obtain ⟨h₁, hlost⟩ := (hp.start seg).updateLoss (maxSeq_start_ne hmax seg) hloss
      -- a segment that is not ignored is above the base
      have hpos : 0 < seg.packetId := by
        have habove : ¬seg.packetId ≤ p.receiver.baseSeq := by
          intro hle
          simp [ignores, hle] at hignores
        exact Nat.lt_of_le_of_lt (Nat.zero_le _) (BitVec.not_le.mp habove)
      have hcache : Receiver.Accounts { r₁ with cache } p.accepted :=
        h₁.mono ⟨rfl, fun _ hkey => hkey⟩
      have hfiled := hcache.filed hpos hlost
      have hrecord : p'.accepted = seg.packetId :: p.accepted := by
        rw [haccepted, record, hignores, hput]
      rw [taken_eq] at htaken
      constructor
      · rw [hrecord]
        exact hfiled.mono (lost_of_videoRealAck htaken)
      · rintro a rfl
        have hacking : p.receiver.acking clock seg =
            some (Receiver.filed { r₁ with cache } seg.packetId) := by
          rw [acking, hignores, hloss, hput]
          rfl
        have hdue := (ack_of_videoRealAck htaken).1
        exact faithful_of_videoRealAck hfiled htaken (hnear _ hacking hdue) hrecord

/-- **A call in reach** keeps the accepted packets apart from the lost ones, and the ack that
it sends is faithful. -/
theorem call_accounts {e : Input} {ack : Option SegmentAck}
    (hp : p.receiver.Accounts p.accepted) (he : e.InReach p.receiver)
    (h : p.call scaled e = .ok (p', ack)) :
    p'.receiver.Accounts p'.accepted ∧ ∀ a, ack = some a → p'.Faithful a := by
  obtain ⟨result, hcall, hresult⟩ := map_eq_ok h
  obtain ⟨rfl, rfl⟩ := Prod.mk.inj hresult
  cases e with
  | put clock seg => exact put_accounts hp he hcall rfl
  | get now bufferSize =>
      obtain ⟨out, hget, rfl⟩ := map_eq_ok hcall
      exact ⟨hp.mono (get_lost hget), fun a ha => by cases ha⟩
  | timer clock nowTs =>
      rw [Receiver.call] at hcall
      split at hcall
      · cases hcall
      · rename_i timed htimer
        obtain rfl := Except.ok.inj hcall
        obtain ⟨acked, hack, rfl⟩ := Option.map_eq_some_iff.mp htimer
        obtain ⟨hloss, hmax⟩ := lowerWait_lost clock nowTs acked.1
        have hkept := hp.mono (lost_of_videoRealAck hack)
        constructor
        · refine hkept.mono ⟨hmax, fun key hkey => ?_⟩
          rwa [Lost, hloss] at hkey
        · intro a ha
          obtain ⟨r₁, out⟩ := acked
          dsimp only at ha
          subst ha
          have hdue := (ack_of_videoRealAck hack).1
          have hfaithful : Faithful ⟨r₁, p.accepted⟩ a :=
            faithful_of_videoRealAck hp hack (he hdue) rfl
          refine ⟨fun id hid => ?_, hfaithful.missing, hfaithful.nodup⟩
          rw [Lost, hloss]
          exact hfaithful.lost id hid
  | active uid clock =>
      obtain rfl := Except.ok.inj hcall
      refine ⟨hp.mono ?_, fun a ha => by cases ha⟩
      rw [Receiver.active]
      split <;> exact ⟨rfl, fun _ hkey => hkey⟩
  | reset clock =>
      obtain rfl := Except.ok.inj hcall
      refine ⟨⟨fun key hkey => ?_, ?_, ?_⟩, fun a ha => by cases ha⟩
      · exact absurd hkey Bool.false_ne_true
      · exact fun _ hid => absurd hid List.not_mem_nil
      · exact fun _ hid => absurd hid List.not_mem_nil

/-! ## Runs -/

/-- A call that returns. -/
def Step (scaled : Speed → BitVec 64 → BitVec 32) (p : Receipt) (e : Input) (p' : Receipt) :
    Prop :=
  ∃ ack, p.call scaled e = .ok (p', ack)

/-- **Requests are faithful**: in every run whose calls are in reach, every entry of every ack
leads the sender to a packet that is lost and has not been accepted, and no packet is asked
for twice. -/
theorem faithful_of_run {start : Clock} {es : List Input}
    (h : Run (fun p e p' => Step scaled p e p' ∧ e.InReach p.receiver) (.new start) es p)
    {e : Input} (he : e.InReach p.receiver) {ack : SegmentAck}
    (hcall : p.call scaled e = .ok (p', some ack)) : p'.Faithful ack := by
  have hnew : (new start).receiver.Accounts (new start).accepted := by
    refine ⟨fun key hkey => ?_, ?_, ?_⟩
    · exact absurd hkey Bool.false_ne_true
    · exact fun _ hid => absurd hid List.not_mem_nil
    · exact fun _ hid => absurd hid List.not_mem_nil
  have hp : p.receiver.Accounts p.accepted :=
    h.stateInvariant (I := fun p => p.receiver.Accounts p.accepted) hnew
      fun _ _ _ hs hstep => by
        obtain ⟨⟨ack, hcall⟩, hreach⟩ := hstep
        exact (call_accounts hs hreach hcall).1
  exact (call_accounts hp he hcall).2 ack rfl

/-- The state after a call that returns. -/
def step? (scaled : Speed → BitVec 64 → BitVec 32) (p : Receipt) (e : Input) : Option Receipt :=
  (p.call scaled e).toOption.map (·.1)

theorem step_of_step? {e : Input} (h : p.step? scaled e = some p') : Step scaled p e p' := by
  obtain ⟨result, hcall, rfl⟩ := Option.map_eq_some_iff.mp h
  exact ⟨result.2, ok_of_toOption hcall⟩

/-- Two packets, with two lost ones between them. -/
def twoLost : List Input :=
  [.active 0 ⟨1, 10, 10⟩, .put ⟨10000, 10, 10⟩ (segmentFrom 1 0 1 1),
    .put ⟨10010, 10, 10⟩ (segmentFrom 2 40 4 1)]

/-- The next ack of the heartbeat asks for both. -/
theorem faithful_twoLost : ∃ p p' ack,
    Run (fun p e p' => Step (fun _ elapsed => elapsed.setWidth 32) p e p' ∧
      e.InReach p.receiver) (.new ⟨0, 10, 10⟩) twoLost p ∧
    p.call (fun _ elapsed => elapsed.setWidth 32) (.timer ⟨10300, 10, 10⟩ 10300) =
      .ok (p', some ack) ∧ ack.requested = [2, 3] ∧ p'.Faithful ack := by
  have hlast : (twoLost.foldlM (fun p e => if Input.InReach p.receiver e then
      step? (fun _ elapsed => elapsed.setWidth 32) p e else none) (new ⟨0, 10, 10⟩)).bind
        (fun p => if (Input.timer ⟨10300, 10, 10⟩ 10300).InReach p.receiver then
          (p.call (fun _ elapsed => elapsed.setWidth 32)
            (.timer ⟨10300, 10, 10⟩ 10300)).toOption.map fun result =>
              result.2.map SegmentAck.requested
        else none) = some (some [2, 3]) := by
    decide +kernel
  obtain ⟨p, hp, hcall⟩ := Option.bind_eq_some_iff.mp hlast
  have hrun : Run (fun p e p' => Step (fun _ elapsed => elapsed.setWidth 32) p e p' ∧
      e.InReach p.receiver) (.new ⟨0, 10, 10⟩) twoLost p :=
    (Run.of_foldlM_guarded hp).mono fun _ _ _ hstep => ⟨step_of_step? hstep.1, hstep.2⟩
  split at hcall
  · rename_i hreach
    obtain ⟨⟨p', out⟩, hok, hrequested⟩ := Option.map_eq_some_iff.mp hcall
    obtain ⟨ack, rfl, hack⟩ := Option.map_eq_some_iff.mp hrequested
    have hresult := ok_of_toOption hok
    exact ⟨p, p', ack, hrun, hresult, hack, faithful_of_run hrun hreach hresult⟩
  · cases hcall

/-! ## A packet that is far away -/

/-- What a segment above the highest one changes if the cache takes it and no ack is due. -/
structure Later (clock : Clock) (p : Receipt) (seg : SimSegment) (cache : VideoCache)
    (p' : Receipt) : Prop where
  accepted : p'.accepted = seg.packetId :: p.accepted
  cache : p'.receiver.cache = cache
  baseSeq : p'.receiver.baseSeq = p.receiver.baseSeq
  maxSeq : p'.receiver.maxSeq = seg.packetId
  ackTs : p'.receiver.ackTs = p.receiver.ackTs
  actived : p'.receiver.actived = true
  loss : ∀ c, c ∈ p'.receiver.loss ↔ c ∈ p.receiver.loss ∨
    p.receiver.maxSeq.toNat < c.1 ∧ c.1 < seg.packetId.toNat ∧
      c.2 = ⟨clock.now - (clock.rtt / 2).setWidth 64, 0⟩

theorem call_later {seg : SimSegment} {cache : VideoCache}
    (hactived : p.receiver.actived = true) (hmax : p.receiver.maxSeq ≠ 0)
    (hlt : p.receiver.baseSeq < seg.packetId) (hgap : seg.packetId ≠ p.receiver.baseSeq + 1)
    (habove : p.receiver.maxSeq < seg.packetId)
    (hkeys : ∀ b ∈ p.receiver.loss, b.1 ≤ p.receiver.maxSeq.toNat)
    (hput : p.receiver.cache.put seg = .ok (cache, true))
    (hdue : p.receiver.ackDue clock false = false) :
    ∃ p', p.call scaled (.put clock seg) = .ok (p', none) ∧ Later clock p seg cache p' := by
  have hignores : p.receiver.ignores seg = false := by
    have hnot : ¬seg.packetId ≤ p.receiver.baseSeq := BitVec.not_le.mpr hlt
    rw [ignores, decide_eq_false hmax, hactived, decide_eq_false hnot]
    rfl
  have hstart : p.receiver.start seg = p.receiver := if_neg fun h => hmax h.1
  obtain ⟨r₁, hloss⟩ := Option.isSome_iff_exists.mp
    (p.receiver.updateLoss_isSome clock seg.packetId)
  have heq := updateLoss_eq hloss
  have hcache := cache_updateLoss hloss
  have hbaseSeq : r₁.baseSeq = p.receiver.baseSeq := by rw [heq]
  have hmaxSeq : r₁.maxSeq = p.receiver.maxSeq := by rw [heq]
  have hackTs : r₁.ackTs = p.receiver.ackTs := by rw [heq]
  have hactive : r₁.actived = true := by rw [heq, hactived]
  have hquiet : (Receiver.filed { r₁ with cache } seg.packetId).ackDue clock false = false := by
    have hsame : (Receiver.filed { r₁ with cache } seg.packetId).ackDue clock false =
        p.receiver.ackDue clock false := by
      simp only [ackDue, Receiver.filed, hackTs]
    rw [hsame, hdue]
  have htaken : Receiver.taken clock { r₁ with cache } seg.packetId =
      some (Receiver.filed { r₁ with cache } seg.packetId, none) := by
    rw [taken_eq, videoRealAck, hquiet]
    rfl
  have hcall : p.receiver.call scaled (.put clock seg) =
      .ok (Receiver.filed { r₁ with cache } seg.packetId, none) := by
    rw [Receiver.call, Receiver.put, hignores, hstart, hloss]
    simp only [hcache, hput, htaken, Bool.false_eq_true, if_false]
  have hrecord : p.record (.put clock seg) = seg.packetId :: p.accepted := by
    rw [record, hignores, hput]
  refine ⟨⟨Receiver.filed { r₁ with cache } seg.packetId, seg.packetId :: p.accepted⟩, ?_, ?_⟩
  · rw [call, hcall, hrecord]
    rfl
  · have hmem := mem_updateLoss_above hloss hkeys habove
    refine ⟨rfl, rfl, ?_, ?_, hackTs, hactive, hmem⟩
    · show (if seg.packetId = r₁.baseSeq + 1 then seg.packetId else r₁.baseSeq) = _
      rw [hbaseSeq, if_neg hgap]
    · show suMax r₁.maxSeq seg.packetId = _
      rw [hmaxSeq, suMax, if_neg (BitVec.not_lt.mpr (BitVec.le_of_lt habove))]

/-- The first packet of a stream, and then one after `65534` lost ones. -/
def farSegment : SimSegment := segmentFrom 100 0 65536 1

/-- The next but one. -/
def farthestSegment : SimSegment := segmentFrom 101 40 65538 1

/-- Three packets; the one before the last is lost when the round trip time is longer, so that
it is due before the others. -/
def farLoss : List Input :=
  [.active 0 ⟨1, 100, 0⟩, .put ⟨10000, 100, 0⟩ (segmentFrom 1 0 1 1),
    .put ⟨10010, 100, 0⟩ farSegment, .put ⟨10011, 104, 138⟩ farthestSegment]

/-- What there is before any packet is lost: the number of lost packets, the base, the highest
packet and the time of the ack, the accepted packets, whether the cache takes the two segments
that follow, and its `min_seq` then. -/
def farView (p : Receipt) : Option (List Nat × List (BitVec 32) × List Bool) :=
  (p.receiver.cache.put farSegment).toOption.bind fun (c, taken) =>
    (c.put farthestSegment).toOption.map fun (c', taken') =>
      ([p.receiver.loss.size, p.receiver.baseSeq.toNat, p.receiver.maxSeq.toNat,
        p.receiver.ackTs.toNat, c'.minSeq.toNat], p.accepted,
        [p.receiver.actived, taken, taken'])

theorem farView_eq : ((farLoss.take 2).foldlM (step? fun _ elapsed => elapsed.setWidth 32)
    (new ⟨0, 100, 0⟩)).bind farView =
      some ([0, 1, 1, 10000, 0], [1], [true, true, true]) := by
  decide +kernel

/-- The lost packets after the run, and the packets that have been accepted. -/
theorem run_farLoss : ∃ p, Run (Step fun _ elapsed => elapsed.setWidth 32) (.new ⟨0, 100, 0⟩)
    farLoss p ∧ p.receiver.baseSeq = 1 ∧ p.receiver.ackTs = 10000 ∧
      p.receiver.cache.minSeq = 0 ∧ p.accepted = [65538, 65536, 1] ∧
      ∀ c, c ∈ p.receiver.loss ↔
        2 ≤ c.1 ∧ c.1 < 65536 ∧ c.2 = ⟨9960, 0⟩ ∨ c = (65537, ⟨9959, 0⟩) := by
  obtain ⟨p₁, hp₁, hview⟩ := Option.bind_eq_some_iff.mp farView_eq
  obtain ⟨⟨c₂, taken₂⟩, hput₂, hview⟩ := Option.bind_eq_some_iff.mp hview
  obtain ⟨⟨c₃, taken₃⟩, hput₃, hview⟩ := Option.map_eq_some_iff.mp hview
  simp only [Prod.mk.injEq, List.cons.injEq, and_true] at hview
  obtain ⟨⟨hsize, hbase, hmax, hackTs, hmin⟩, haccepted, hactived, rfl, rfl⟩ := hview
  have hbase₁ : p₁.receiver.baseSeq = 1 := BitVec.eq_of_toNat_eq hbase
  have hmax₁ : p₁.receiver.maxSeq = 1 := BitVec.eq_of_toNat_eq hmax
  have hackTs₁ : p₁.receiver.ackTs = 10000 := BitVec.eq_of_toNat_eq hackTs
  have hempty : ∀ c, c ∉ p₁.receiver.loss := by
    intro c hc
    rw [SortedMap.mem_def, List.length_eq_zero_iff.mp hsize] at hc
    exact List.not_mem_nil hc
  have hfirst : Run (Step fun _ elapsed => elapsed.setWidth 32) (.new ⟨0, 100, 0⟩)
      (farLoss.take 2) p₁ :=
    (Run.of_foldlM hp₁).mono fun _ _ _ => step_of_step?
  -- the first gap
  obtain ⟨p₂, hcall₂, h₂⟩ := @call_later (fun _ elapsed => elapsed.setWidth 32) ⟨10010, 100, 0⟩
    p₁ farSegment c₂ hactived (by rw [hmax₁]; decide) (by rw [hbase₁]; decide)
    (by rw [hbase₁]; decide) (by rw [hmax₁]; decide) (fun b hb => absurd hb (hempty b))
    (ok_of_toOption hput₂) (by rw [ackDue, hackTs₁]; decide)
  have hloss₂ : ∀ c, c ∈ p₂.receiver.loss ↔ 2 ≤ c.1 ∧ c.1 < 65536 ∧ c.2 = ⟨9960, 0⟩ := by
    intro c
    rw [h₂.loss c, or_iff_right (hempty c), hmax₁]
    exact Iff.rfl
  -- the second one
  have hmax₂ : p₂.receiver.maxSeq = 65536 := h₂.maxSeq
  have hkeys₂ : ∀ b ∈ p₂.receiver.loss, b.1 ≤ p₂.receiver.maxSeq.toNat := by
    intro b hb
    rw [hmax₂]
    exact Nat.le_of_lt ((hloss₂ b).mp hb).2.1
  obtain ⟨p₃, hcall₃, h₃⟩ := @call_later (fun _ elapsed => elapsed.setWidth 32)
    ⟨10011, 104, 138⟩ p₂ farthestSegment c₃ h₂.actived (by rw [hmax₂]; decide)
    (by rw [h₂.baseSeq, hbase₁]; decide) (by rw [h₂.baseSeq, hbase₁]; decide)
    (by rw [hmax₂]; decide) hkeys₂ (by rw [h₂.cache]; exact ok_of_toOption hput₃)
    (by rw [ackDue, h₂.ackTs, hackTs₁]; decide)
  refine ⟨p₃, ?_, ?_, ?_, ?_, ?_, ?_⟩
  · exact .snoc (.snoc hfirst ⟨none, hcall₂⟩) ⟨none, hcall₃⟩
  · rw [h₃.baseSeq, h₂.baseSeq, hbase₁]
  · rw [h₃.ackTs, h₂.ackTs, hackTs₁]
  · rw [h₃.cache]
    exact BitVec.eq_of_toNat_eq hmin
  · rw [h₃.accepted, h₂.accepted, haccepted]
    rfl
  · intro c
    rw [h₃.loss c, hloss₂ c, hmax₂]
    refine or_congr_right ?_
    constructor
    · rintro ⟨hlow, hhigh, hc⟩
      have hlow' : 65536 < c.1 := hlow
      have hhigh' : c.1 < 65538 := hhigh
      exact Prod.ext (show c.1 = 65537 by omega) hc
    · rintro rfl
      exact ⟨by decide, by decide, rfl⟩

/-- Of the lost packets only the last one is due, and its offset has more than 16 bits: the ack
leads the sender to the first packet, which has been accepted. -/
theorem not_faithful_farLoss : ∃ p p' ack,
    Run (Step fun _ elapsed => elapsed.setWidth 32) (.new ⟨0, 100, 0⟩) farLoss p ∧
    p.call (fun _ elapsed => elapsed.setWidth 32) (.timer ⟨10201, 104, 138⟩ 10201) =
      .ok (p', some ack) ∧
    ack.requested = [1] ∧ 1 ∈ p'.accepted ∧ ¬p'.receiver.Lost 1 ∧ ¬p'.Faithful ack := by
  obtain ⟨p, hrun, hbase, hackTs, hmin, haccepted, hloss⟩ := run_farLoss
  obtain ⟨clock, hclock⟩ : ∃ clock : Clock, clock = ⟨10201, 104, 138⟩ := ⟨_, rfl⟩
  have hdue : p.receiver.ackDue clock true = true := by
    rw [ackDue, hackTs, hclock]
    decide
  have hackBase : p.receiver.ackBase = 1 := by
    rw [ackBase, hbase, hmin]
    decide
  have hrequests : p.receiver.requests clock = [65537] := by
    refine @requests_eq_singleton clock p.receiver (65537, ⟨9959, 0⟩) fun c => ?_
    rw [hloss c, hackBase]
    constructor
    · rintro ⟨⟨-, -, hc⟩ | rfl, hdue⟩
      · have hnot : due clock c.2 = false := by
          rw [hc, hclock]
          decide
        rw [dueAbove, hnot, Bool.and_false] at hdue
        cases hdue
      · rfl
    · rintro rfl
      refine ⟨.inr rfl, ?_⟩
      rw [hclock]
      decide
  have hends : (p.receiver.videoRealAck clock true 0).isSome := by
    rw [videoRealAck_isSome_iff, hbase, hmin]
    exact fun h => absurd h.2.1 (by decide)
  obtain ⟨⟨r', out⟩, hack⟩ := Option.isSome_iff_exists.mp hends
  obtain ⟨ack, rfl⟩ : ∃ ack, out = some ack := by
    rcases videoRealAck_cases hack with ⟨hnot, -, -⟩ | ⟨-, r₁, scan, -, -, -, -, -, hout⟩
    · exact absurd (hdue.symm.trans hnot) (by decide)
    · exact ⟨_, hout⟩
  obtain ⟨-, hbaseAck, hnack, -⟩ := ack_of_videoRealAck hack
  have hrequested : ack.requested = [1] := by
    rw [SegmentAck.requested, hbaseAck, hnack, hrequests, hackBase]
    decide
  -- nothing below 2 is lost, and an ack adds nothing
  have hnotLost : ¬(r'.lowerWait clock 10201).Lost 1 := by
    intro hlost
    rw [Lost, (lowerWait_lost clock 10201 r').1] at hlost
    obtain ⟨b, hb, hkey⟩ := lost_iff.mp ((lost_of_videoRealAck hack).2 1 hlost)
    rcases (hloss b).mp hb with ⟨hlow, -⟩ | rfl
    · omega
    · exact absurd hkey (by decide)
  refine ⟨p, ⟨r'.lowerWait clock 10201, p.accepted⟩, ack, hrun, ?_, hrequested, ?_, hnotLost, ?_⟩
  · rw [← hclock, call, Receiver.call, timer, hack]
    rfl
  · rw [haccepted]
    decide
  · intro hfaithful
    exact hnotLost (hfaithful.lost 1 (by rw [hrequested]; exact List.mem_singleton_self 1))

end Receipt

end SimTransport

end Razor
